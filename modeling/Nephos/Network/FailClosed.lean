import Nephos.Network.AntiSpoof

/-!
# A failed `EnsureENI`

What a call of `EnsureENI` leaves behind.  However it ends, it has changed no
link but the pair it works on and `lo`.  When it returns an error there is no
link that was not there before, and no link that is up without the source
checks.  The deferred cleanup keeps this promise except at two lookups, one
before it is registered and one that overwrites the variable it reads.
-/

namespace Nephos

open Effects Kernel

abbrev KernelEvent := Effects.Event Op Op.Result Network

/-- A moment of a run, with the calls before it. -/
abbrev Moment := Traced Op Op.Result Network

/-- The event brought the router's end of a pair down. -/
def quiets : KernelEvent → Bool
  | ⟨_, .linkSetDown .router _, .ok _, _⟩ => true
  | _ => false

/-- The event installed the source checks. -/
def reinstalls : KernelEvent → Bool
  | ⟨_, .nftApply _, .ok _, _⟩ => true
  | _ => false

theorem quiets_of_spares {op : Op} (spares : op.SparesRouter)
    (before : Network) (result : op.Result) (after : Network) :
    quiets ⟨before, op, result, after⟩ = false := by
  cases op with
  | linkSetDown side link =>
      cases side with
      | router => exact spares.elim
      | inst inode => rfl
  | _ => rfl

theorem quiets_of_failed (op : Op) (before : Network) (error : CallError) :
    quiets ⟨before, op, .error error, before⟩ = false := by
  cases op with
  | linkSetDown side link => cases side <;> rfl
  | _ => rfl

/-- The source checks have been installed. -/
def Installed (history : List KernelEvent) : Prop :=
  ∃ event ∈ history, reinstalls event = true

/-- A link may be up: it was up and nothing has brought it down, or the checks
have been installed. -/
def MayBeUp (wasUp : Prop) (history : List KernelEvent) : Prop :=
  (wasUp ∧ ∀ event ∈ history, quiets event = false) ∨ Installed history

theorem MayBeUp.snoc {wasUp : Prop} {history : List KernelEvent}
    (may : MayBeUp wasUp history) {event : KernelEvent}
    (loud : quiets event = false) : MayBeUp wasUp (history ++ [event]) := by
  rcases may with ⟨up, none⟩ | ⟨other, member, installs⟩
  · refine .inl ⟨up, fun other member => ?_⟩
    rcases List.mem_append.mp member with old | new
    · exact none other old
    · rw [List.mem_singleton.mp new]
      exact loud
  · exact .inr ⟨other, List.mem_append_left _ member, installs⟩

/-- The run of a task from a moment, with what holds after an error and after
a result. -/
abbrev Runs {α : Type} (keepsAlias : Bool) (refused : Nat → Op → Bool)
    (fails : Moment → Prop) (post : α → Moment → Prop)
    (task : Kernel.Task α) (traced : Moment) : Prop :=
  ((machine keepsAlias).exactly refused).Safe (Task.Ends fails post) task.run
    traced

namespace Runs

variable {α β : Type} {keepsAlias : Bool} {refused : Nat → Op → Bool}
  {fails holds : Moment → Prop} {middle : α → Moment → Prop}
  {post : β → Moment → Prop} {task : Kernel.Task α}
  {rest : α → Kernel.Task β} {traced : Moment}

theorem bind (first : Runs keepsAlias refused fails middle task traced)
    (onward : ∀ {value later}, middle value later →
      Runs keepsAlias refused fails post (rest value) later) :
    Runs keepsAlias refused fails post (task >>= rest) traced :=
  Task.safe_bind first trivial (fun _ failed => failed)
    fun _ held => onward held

theorem of_keeps
    (keeps : ((machine keepsAlias).exactly refused).Safe (fun _ => holds)
      task.run traced)
    (weaker : ∀ {later}, holds later → fails later) :
    Runs keepsAlias refused fails (fun _ => holds) task traced := by
  refine keeps.mono trivial fun {result _} _ held => ?_
  cases result with
  | ok value => exact held
  | error text => exact weaker held

end Runs

/-- The links of the router are those of the start, but for the state of one
of them. -/
structure RouterFrame (start : Network) (wasUp : Prop) (index : Nat)
    (traced : Moment) : Prop where
  links : (traced.state.router.links.setUp index false).links =
    (start.router.links.setUp index false).links
  raised : ∀ link ∈ traced.state.router.links.links, link.index = index →
    link.up = true → MayBeUp wasUp traced.history

section Router

variable {keepsAlias : Bool} {refused : Nat → Op → Bool} {start : Network}
  {wasUp : Prop} {index : Nat} {traced : Moment}

variable (keepsAlias refused) in
theorem advance_spares {op : Op} (spares : op.SparesRouter)
    (traced : Moment) :
    ((machine keepsAlias).advance refused traced op).state.router.links =
        traced.state.router.links ∧
      ∃ event, quiets event = false ∧
        ((machine keepsAlias).advance refused traced op).history =
          traced.history ++ [event] := by
  refine ⟨?_, _, quiets_of_spares spares traced.state _ _, rfl⟩
  change ((machine keepsAlias).step refused _ traced.state op).2.router.links
    = _
  unfold Machine.step
  split
  · rfl
  · exact (traced.state.answer_spares keepsAlias spares).1

/-- A call that leaves the router alone keeps the frame. -/
theorem RouterFrame.advance {op : Op} (spares : op.SparesRouter)
    (frame : RouterFrame start wasUp index traced) :
    RouterFrame start wasUp index
      ((machine keepsAlias).advance refused traced op) := by
  obtain ⟨links, event, loud, history⟩ :=
    advance_spares keepsAlias refused spares traced
  refine ⟨?_, fun link member same up => ?_⟩
  · rw [links]
    exact frame.links
  · rw [links] at member
    rw [history]
    exact (frame.raised link member same up).snoc loud

/-- The calls of a program that leaves the router alone. -/
theorem RouterFrame.uses {α : Type} {program : Program Op Op.Result α}
    (uses : program.Uses Op.SparesRouter)
    (frame : RouterFrame start wasUp index traced) :
    ((machine keepsAlias).exactly refused).Safe
      (fun _ => RouterFrame start wasUp index) program traced :=
  Machine.exactly_uses (uses.mono fun _ spares _ frame =>
    frame.advance spares) frame

/-- The rule for a call whose error is returned. -/
theorem exactly_perform {op : Op} {front : String}
    {post : Except String op.Value → Moment → Prop}
    (answered : ∀ {value after},
      refused traced.history.length op = false →
      traced.state.answer keepsAlias op = (.ok value, after) →
        post (.ok value) ⟨after, traced.history ++
          [⟨traced.state, op, .ok value, after⟩]⟩)
    (failed : ∀ {text error},
      (refused traced.history.length op = true ∨
        traced.state.answer keepsAlias op = (.error error, traced.state)) →
      post (.error text) ⟨traced.state, traced.history ++
        [⟨traced.state, op, .error error, traced.state⟩]⟩) :
    ((machine keepsAlias).exactly refused).Safe post (perform op front).run
      traced := by
  refine Machine.exactly_cases (fun refusal => failed (.inl refusal)) ?_
  intro result after refusal answer
  cases result with
  | ok value => exact answered refusal answer
  | error error =>
      obtain rfl := Network.answer_error answer
      exact failed (.inr answer)

theorem Installed.uses {α : Type} (program : Program Op Op.Result α)
    (installed : Installed traced.history) :
    ((machine keepsAlias).exactly refused).Safe
      (fun _ moment => Installed moment.history) program traced := by
  obtain ⟨event, member, installs⟩ := installed
  exact (Machine.exactly_remembers program member).mono trivial
    fun {_ _} _ kept => ⟨event, kept, installs⟩

/-- A failed call keeps the frame. -/
theorem RouterFrame.failed {op : Op} {error : CallError}
    (frame : RouterFrame start wasUp index traced) :
    RouterFrame start wasUp index ⟨traced.state, traced.history ++
      [⟨traced.state, op, .error error, traced.state⟩]⟩ :=
  ⟨frame.links, fun link member same up =>
    (frame.raised link member same up).snoc (quiets_of_failed op _ error)⟩

theorem setUp_setUp (table : LinkTable) (index : Nat) (up : Bool) :
    ((table.setUp index up).setUp index false).links =
      (table.setUp index false).links := by
  change ((table.links.map _).map _) = table.links.map _
  rw [List.map_map]
  apply List.map_congr_left
  intro link _
  simp only [Function.comp_apply]
  split <;> rfl

theorem RouterFrame.linkSetDown {link : Link} {front : String}
    (same : link.index = index)
    (frame : RouterFrame start wasUp index traced) :
    ((machine keepsAlias).exactly refused).Safe
      (fun _ => RouterFrame start wasUp index)
      (perform (.linkSetDown .router link) front).run traced := by
  refine exactly_perform (fun _ answer => ?_) (fun _ => frame.failed)
  obtain rfl := Network.answer_linkSetDown answer
  refine ⟨?_, fun other member at' up => ?_⟩
  · rw [← frame.links, ← same]
    exact setUp_setUp _ _ _
  · obtain ⟨old, -, rfl⟩ := LinkTable.mem_setUp member
    split at up
    · cases up
    · rename_i different
      rw [if_neg different] at at'
      exact absurd (at'.trans same.symm) different

theorem RouterFrame.linkSetUp {link : Link} {front : String}
    (same : link.index = index)
    (installed : Installed traced.history)
    (frame : RouterFrame start wasUp index traced) :
    ((machine keepsAlias).exactly refused).Safe
      (fun _ => RouterFrame start wasUp index)
      (perform (.linkSetUp .router link) front).run traced := by
  refine exactly_perform (fun _ answer => ?_) (fun _ => frame.failed)
  obtain rfl := Network.answer_linkSetUp answer
  obtain ⟨event, member, installs⟩ := installed
  refine ⟨?_, fun _ _ _ _ => .inr ⟨event, List.mem_append_left _ member,
    installs⟩⟩
  rw [← frame.links, ← same]
  exact setUp_setUp _ _ _

theorem answer_nftApply {network after : Network} {script : String}
    {value : Unit}
    (answer : network.answer keepsAlias (.nftApply script) =
      (.ok value, after)) :
    after.router.links = network.router.links ∧
      after.known = network.known ∧ after.instances = network.instances := by
  simp only [Network.answer, Network.applyScript] at answer
  split at answer
  · cases (Prod.mk.inj answer).1
  · split at answer
    · cases (Prod.mk.inj answer).1
    · cases answer
      exact ⟨rfl, rfl, rfl⟩
  · split at answer
    · cases answer
      exact ⟨rfl, rfl, rfl⟩
    · cases answer
      exact ⟨rfl, rfl, rfl⟩

/-- A task that leaves the router alone. -/
theorem RouterFrame.next {α β : Type} {task : Kernel.Task α}
    {rest : α → Kernel.Task β} {post : β → Moment → Prop}
    (frame : RouterFrame start wasUp index traced)
    (uses : task.run.Uses Op.SparesRouter)
    (onward : ∀ {value later}, RouterFrame start wasUp index later →
      Runs keepsAlias refused (RouterFrame start wasUp index) post
        (rest value) later) :
    Runs keepsAlias refused (RouterFrame start wasUp index) post
      (task >>= rest) traced :=
  .bind (.of_keeps (frame.uses uses) id) onward

theorem RouterFrame.applyENISourceChecks
    (frame : RouterFrame start wasUp index traced) :
    Runs keepsAlias refused (RouterFrame start wasUp index)
      (fun _ moment => RouterFrame start wasUp index moment ∧
        Installed moment.history) Nephos.applyENISourceChecks traced := by
  unfold Nephos.applyENISourceChecks
  refine frame.next (uses_perform trivial) fun frame => ?_
  refine frame.next (uses_orThrow _) fun frame => ?_
  refine frame.next (uses_perform trivial) fun frame => ?_
  refine frame.next (uses_orThrow _) fun frame => ?_
  refine frame.next (uses_orThrow _) fun {script moment} frame => ?_
  refine exactly_perform (fun {value after} _ answer => ?_)
    (fun _ => frame.failed)
  obtain ⟨links, -, -⟩ := answer_nftApply answer
  have installed : Installed (moment.history ++
      [⟨moment.state, .nftApply script, .ok value, after⟩]) :=
    ⟨⟨moment.state, .nftApply script, .ok value, after⟩,
      List.mem_append_right _ (List.mem_singleton.mpr rfl), rfl⟩
  refine ⟨⟨?_, fun _ _ _ _ => .inr installed⟩, installed⟩
  rw [links]
  exact frame.links

end Router

/-- A link of the instance that is neither `lo` nor the end of the pair. -/
def bystander (peer : Nat) (link : Link) : Bool :=
  link.name ≠ "lo" && link.index ≠ peer

/-- The links of the instances are those of the start, but for `lo` and the
end of the pair. -/
structure InstanceFrame (start : Network) (inode peer : Nat)
    (now : Network) : Prop where
  known : now.known = start.known
  others : ∀ other, other ≠ inode →
    now.instances other = start.instances other
  bystanders : (now.instances inode).links.filter (bystander peer) =
    (start.instances inode).links.filter (bystander peer)

theorem filter_map_of_fixed {links : List Link} {chosen : Link → Bool}
    {change : Link → Link}
    (fixed : ∀ link ∈ links, chosen link = true → change link = link)
    (outside : ∀ link ∈ links, chosen link = false →
      chosen (change link) = false) :
    (links.map change).filter chosen = links.filter chosen := by
  induction links with
  | nil => rfl
  | cons link links induction =>
      rw [List.forall_mem_cons] at fixed outside
      rw [List.map_cons, List.filter_cons, List.filter_cons,
        induction fixed.2 outside.2]
      cases picked : chosen link with
      | true => rw [fixed.1 picked, picked]
      | false =>
          rw [outside.1 picked]
          rfl

section Instance

variable {keepsAlias : Bool} {refused : Nat → Op → Bool}
  {start now : Network} {inode peer : Nat} {traced : Moment}

theorem withTable_instances (network : Network) (inode : Nat)
    (table : LinkTable) :
    (network.withTable (.inst inode) table).instances inode = table :=
  if_pos rfl

/-- A change of the end of the pair, or of `lo`. -/
theorem InstanceFrame.edit {change : Link → Link} {table : LinkTable}
    (frame : InstanceFrame start inode peer now)
    (edited : table.links = (now.instances inode).links.map change)
    (index : ∀ link, (change link).index = link.index)
    (only : ∀ link ∈ (now.instances inode).links, change link = link ∨
      link.index = peer ∨ (link.name = "lo" ∧ (change link).name = "lo")) :
    InstanceFrame start inode peer (now.withTable (.inst inode) table) := by
  refine ⟨frame.known, fun other different => ?_, ?_⟩
  · rw [← frame.others other different]
    exact if_neg different
  · rw [withTable_instances, edited, ← frame.bystanders]
    apply filter_map_of_fixed
    · intro link member chosen
      rw [bystander, Bool.and_eq_true, decide_eq_true_iff,
        decide_eq_true_iff] at chosen
      rcases only link member with same | pair | ⟨lo, -⟩
      · exact same
      · exact absurd pair chosen.2
      · exact absurd lo chosen.1
    · intro link member passed
      rcases only link member with same | pair | ⟨-, lo⟩
      · rw [same]
        exact passed
      · simp [bystander, index, pair]
      · simp [bystander, lo]

variable (keepsAlias refused) in
theorem advance_sparesInstances {op : Op} (spares : op.SparesInstances)
    (traced : Moment) :
    ((machine keepsAlias).advance refused traced op).state.known =
        traced.state.known ∧
      ((machine keepsAlias).advance refused traced op).state.instances =
        traced.state.instances := by
  change ((machine keepsAlias).step refused _ traced.state op).2.known = _ ∧
    ((machine keepsAlias).step refused _ traced.state op).2.instances = _
  unfold Machine.step
  split
  · exact ⟨rfl, rfl⟩
  · exact traced.state.answer_sparesInstances keepsAlias spares

theorem InstanceFrame.advance {op : Op} (spares : op.SparesInstances)
    (frame : InstanceFrame start inode peer traced.state) :
    InstanceFrame start inode peer
      ((machine keepsAlias).advance refused traced op).state := by
  obtain ⟨known, instances⟩ :=
    advance_sparesInstances keepsAlias refused spares traced
  refine ⟨known.trans frame.known, ?_, ?_⟩
  · rw [instances]
    exact frame.others
  · rw [instances]
    exact frame.bystanders

/-- The calls of a program that leaves the instances alone. -/
theorem InstanceFrame.uses {α : Type} {program : Program Op Op.Result α}
    (uses : program.Uses Op.SparesInstances)
    (frame : InstanceFrame start inode peer traced.state) :
    ((machine keepsAlias).exactly refused).Safe
      (fun _ moment => InstanceFrame start inode peer moment.state) program
      traced :=
  have always : program.Uses fun op => ∀ traced : Moment,
      InstanceFrame start inode peer traced.state →
        InstanceFrame start inode peer
          ((machine keepsAlias).advance refused traced op).state :=
    uses.mono fun _ spares _ frame => frame.advance spares
  Machine.exactly_uses always frame

/-- A link with the index and the name is there. -/
def HasLink (index : Nat) (name : String) (table : LinkTable) : Prop :=
  ∃ link ∈ table.links, link.index = index ∧ link.name = name

theorem HasLink.find {index : Nat} {name : String} {table : LinkTable}
    (has : HasLink index name table) {link : Link}
    (found : table.find name = some link) : link.index = index := by
  obtain ⟨other, member, atIndex, named⟩ := has
  obtain ⟨inside, name⟩ := LinkTable.find_mem found
  have same := List.inj_on_of_nodup_map table.names inside member
    (name.trans named.symm)
  rw [same]
  exact atIndex

theorem HasLink.update {index : Nat} {name : String} {table edited : LinkTable}
    {change : Link → Link} (has : HasLink index name table)
    (links : edited.links = table.links.map change)
    (same : ∀ link, (change link).index = link.index ∧
      (change link).name = link.name) : HasLink index name edited := by
  obtain ⟨link, member, atIndex, named⟩ := has
  refine ⟨change link, ?_, (same link).1.trans atIndex,
    (same link).2.trans named⟩
  rw [links]
  exact List.mem_map_of_mem member

/-- What is kept of the instance when a call fails. -/
abbrev InstanceKept (start : Network) (inode peer : Nat)
    (moment : Moment) : Prop :=
  InstanceFrame start inode peer moment.state

/-- The end of the pair is there under a name, and the rest is as it was. -/
structure PeerFrame (start : Network) (inode peer : Nat) (name : String)
    (now : Network) : Prop where
  frame : InstanceFrame start inode peer now
  named : HasLink peer name (now.instances inode)

theorem PeerFrame.uses {α : Type} {task : Kernel.Task α} {name : String}
    (uses : task.run.Uses Op.SparesInstances)
    (frame : PeerFrame start inode peer name traced.state) :
    Runs keepsAlias refused (InstanceKept start inode peer)
      (fun _ moment => PeerFrame start inode peer name moment.state) task
      traced := by
  have always : task.run.Uses fun op => ∀ traced : Moment,
      PeerFrame start inode peer name traced.state →
        PeerFrame start inode peer name
          ((machine keepsAlias).advance refused traced op).state := by
    refine uses.mono fun op spares traced frame =>
      ⟨frame.frame.advance spares, ?_⟩
    rw [(advance_sparesInstances keepsAlias refused spares traced).2]
    exact frame.named
  exact .of_keeps (Machine.exactly_uses always frame) (·.frame)

/-- A call that changes the end of the pair or `lo`, but no names. -/
theorem PeerFrame.perform {op : Op} {front name : String} {index : Nat}
    {change : Link → Link}
    {sameIndex : ∀ link, (change link).index = link.index}
    {sameName : ∀ link, (change link).name = link.name}
    (frame : PeerFrame start inode peer name traced.state)
    (only : ∀ link ∈ (traced.state.instances inode).links,
      link.index = index → link.index = peer ∨ link.name = "lo")
    (answers : ∀ {value after},
      traced.state.answer keepsAlias op = (.ok value, after) →
      after = traced.state.withTable (.inst inode)
        ((traced.state.instances inode).update index change sameIndex
          sameName)) :
    Runs keepsAlias refused (InstanceKept start inode peer)
      (fun _ moment => PeerFrame start inode peer name moment.state)
      (Kernel.perform op front) traced := by
  refine exactly_perform (fun _ answer => ?_) (fun _ => frame.frame)
  obtain rfl := answers answer
  refine ⟨frame.frame.edit rfl (fun link => ?_) fun link member => ?_, ?_⟩
  · split
    · exact sameIndex link
    · rfl
  · by_cases same : link.index = index
    · rw [if_pos same]
      refine .inr ((only link member same).imp_right fun lo => ⟨lo, ?_⟩)
      exact (sameName link).trans lo
    · exact .inl (if_neg same)
  · change HasLink peer name ((traced.state.withTable (.inst inode)
      ((traced.state.instances inode).update ..)).instances inode)
    rw [withTable_instances]
    refine frame.named.update rfl fun link => ?_
    split
    · exact ⟨sameIndex link, sameName link⟩
    · exact ⟨rfl, rfl⟩

theorem PeerFrame.linkSetName {link : Link} {front name wanted : String}
    (same : link.index = peer)
    (frame : PeerFrame start inode peer name traced.state) :
    Runs keepsAlias refused (InstanceKept start inode peer)
      (fun _ moment => PeerFrame start inode peer wanted moment.state)
      (Kernel.perform (.linkSetName (.inst inode) link wanted) front)
      traced := by
  refine exactly_perform (fun _ answer => ?_) (fun _ => frame.frame)
  obtain ⟨free, rfl⟩ := Network.answer_linkSetName answer
  refine ⟨frame.frame.edit rfl (fun other => ?_) fun other member => ?_, ?_⟩
  · split <;> rfl
  · by_cases index : other.index = link.index
    · exact .inr (.inl (index.trans same))
    · exact .inl (if_neg index)
  obtain ⟨there, member, atPeer, -⟩ := frame.named
  change HasLink peer wanted ((traced.state.withTable (.inst inode)
    ((traced.state.instances inode).rename link.index wanted
      free)).instances inode)
  rw [withTable_instances]
  refine ⟨{ there with name := wanted }, ?_, atPeer, rfl⟩
  exact List.mem_map.mpr ⟨there, member, if_pos (atPeer.trans same.symm)⟩

/-- A lookup leaves everything as it was. -/
theorem PeerFrame.linkByName {name wanted front : String}
    (frame : PeerFrame start inode peer name traced.state) :
    Runs keepsAlias refused (InstanceKept start inode peer)
      (fun link moment => PeerFrame start inode peer name moment.state ∧
        (moment.state.instances inode).find wanted = some link)
      (Kernel.perform (.linkByName (.inst inode) wanted) front) traced := by
  refine exactly_perform (fun _ answer => ?_) (fun _ => frame.frame)
  obtain ⟨found, rfl⟩ := Network.answer_linkByName answer
  exact ⟨frame, found⟩

variable (refused) in
/-- What is known after a lookup. -/
structure LookedUp (side : Side) (name : String) (traced : Moment)
    (result : Except String (Except CallError Link)) (moment : Moment) :
    Prop where
  state : moment.state = traced.state
  history : ∃ event, quiets event = false ∧
    moment.history = traced.history ++ [event]
  returns : ∀ text, result ≠ .error text
  found : ∀ link, result = .ok (.ok link) →
    (traced.state.table side).find name = some link
  missing : result = .ok (.error .notFound) →
    (traced.state.table side).find name = none
  failed : ∀ text, result = .ok (.error (.failed text)) →
    refused traced.history.length (.linkByName side name) = true

theorem exactly_lookUp {side : Side} {name : String} :
    ((machine keepsAlias).exactly refused).Safe
      (LookedUp refused side name traced) (lookUp side name).run traced := by
  refine Machine.exactly_cases (fun refusal => ⟨rfl, ⟨_, rfl, rfl⟩, by simp,
    by simp [machine], by simp [machine], fun _ _ => refusal⟩) ?_
  intro result after _ answer
  change traced.state.answer keepsAlias (.linkByName side name) = _ at answer
  simp only [Network.answer] at answer
  split at answer
  · rename_i link found
    cases answer
    refine ⟨rfl, ⟨_, rfl, rfl⟩, by simp, fun other same => ?_, by simp,
      by simp⟩
    rw [found, Except.ok.inj (Except.ok.inj same)]
  · rename_i missing
    cases answer
    exact ⟨rfl, ⟨_, rfl, rfl⟩, by simp, by simp, fun _ => missing, by simp⟩

theorem exactly_refuseIf {bad : Prop} [Decidable bad] {text : String} :
    ((machine keepsAlias).exactly refused).Safe
      (fun result moment => moment = traced ∧ (result = .ok () → ¬ bad))
      (refuseIf bad text).run traced := by
  unfold refuseIf
  split
  · exact Task.safe_throw ⟨rfl, nofun⟩
  · rename_i fine
    exact Task.safe_pure ⟨rfl, fun _ => fine⟩

theorem Runs.refuse {α : Type} {bad : Prop} [Decidable bad] {text : String}
    {fails : Moment → Prop} {post : α → Moment → Prop}
    {rest : Unit → Kernel.Task α} (failed : fails traced)
    (onward : ¬ bad → Runs keepsAlias refused fails post (rest ()) traced) :
    Runs keepsAlias refused fails post (refuseIf bad text >>= rest)
      traced := by
  refine Task.safe_bind exactly_refuseIf trivial ?_ ?_
  · rintro _ _ - ⟨rfl, -⟩
    exact failed
  · rintro ⟨⟩ _ - ⟨rfl, fine⟩
    exact onward (fine rfl)

variable (attachment : Attachment)

/-- The link that is found is one of the instance. -/
theorem InstanceFrame.findPeer
    (frame : InstanceFrame start attachment.inode peer traced.state) :
    Runs keepsAlias refused (InstanceKept start attachment.inode peer)
      (fun link moment =>
        InstanceFrame start attachment.inode peer moment.state ∧
        link ∈ (moment.state.instances attachment.inode).links)
      attachment.findPeer traced := by
  unfold Attachment.findPeer
  refine Task.safe_bind exactly_lookUp trivial
    (fun _ kept => absurd rfl (kept.returns _)) ?_
  intro result moment _ looked
  rw [← looked.state] at frame
  match result with
  | .ok link =>
      have found := looked.found link rfl
      rw [← looked.state] at found
      exact Task.safe_pure ⟨frame, (LinkTable.find_mem found).1⟩
  | .error (.failed text) => exact Task.safe_throw frame
  | .error .notFound =>
      refine exactly_perform (fun _ answer => ?_) (fun _ => frame)
      obtain ⟨found, rfl⟩ := Network.answer_linkByName answer
      exact ⟨frame, (LinkTable.find_mem found).1⟩

/-- The end of the pair gets its name. -/
theorem PeerFrame.renamePeer {link : Link} (at' : link.index = peer)
    (frame : PeerFrame start attachment.inode peer link.name traced.state) :
    Runs keepsAlias refused (InstanceKept start attachment.inode peer)
      (fun _ moment => PeerFrame start attachment.inode peer "eth0"
        moment.state) (attachment.renamePeer link) traced := by
  unfold Attachment.renamePeer
  split
  · refine .bind (frame.linkSetName at') fun renamed => ?_
    refine renamed.linkByName.mono trivial fun {result _} _ looked => ?_
    cases result with
    | ok link => exact looked.1
    | error text => exact looked
  · rename_i plain
    rw [not_not.mp plain] at frame
    exact Task.safe_pure frame

/-- The first visit to the namespace of the instance only changes the end of
the pair and `lo`. -/
theorem InstanceFrame.configurePeer (created : Bool) (router : Link)
    (frame : InstanceFrame start attachment.inode router.parentIndex
      traced.state) :
    Runs keepsAlias refused
      (InstanceKept start attachment.inode router.parentIndex)
      (fun _ moment => PeerFrame start attachment.inode router.parentIndex
        "eth0" moment.state)
      (attachment.configurePeer created router) traced := by
  unfold Attachment.configurePeer
  refine .bind (.of_keeps (frame.uses (uses_perform trivial)) id)
    fun frame => ?_
  refine .bind (frame.findPeer attachment) fun {peer later} looked => ?_
  obtain ⟨frame, found⟩ := looked
  refine .refuse frame fun related => ?_
  -- The check lets only the other end of the router's link through.
  have at' : peer.index = router.parentIndex := by
    simp only [ne_eq, not_or, not_not] at related
    exact related.2.2.symm
  refine .refuse frame fun _ => ?_
  have named : PeerFrame start attachment.inode router.parentIndex peer.name
      later.state := ⟨frame, peer, found, at', rfl⟩
  refine .bind (named.perform (fun _ _ index => .inl (index.trans at'))
    Network.answer_linkSetDown) fun named => ?_
  refine .bind (named.perform (fun _ _ index => .inl (index.trans at'))
    Network.answer_linkSetAlias) fun named => ?_
  refine .bind (named.renamePeer attachment at') fun named => ?_
  refine .bind (named.uses (uses_orThrow _)) fun named => ?_
  refine .bind (named.uses (uses_perform trivial)) fun named => ?_
  refine .bind (named.uses (uses_perform trivial)) fun named => ?_
  refine .bind named.linkByName fun {_ _} looked => ?_
  obtain ⟨named, found⟩ := looked
  refine named.perform (fun other member index => .inr ?_)
    Network.answer_linkSetUp
  obtain ⟨inside, name⟩ := LinkTable.find_mem found
  rw [LinkTable.eq_of_index member inside index]
  exact name

theorem PeerFrame.activatePeer
    (named : PeerFrame start attachment.inode peer "eth0" traced.state) :
    Runs keepsAlias refused (InstanceKept start attachment.inode peer)
      (fun _ => InstanceKept start attachment.inode peer)
      attachment.activatePeer traced := by
  unfold Attachment.activatePeer
  refine .bind (named.uses (uses_perform trivial)) fun named => ?_
  refine .bind named.linkByName fun {_ _} looked => ?_
  obtain ⟨named, found⟩ := looked
  refine .bind (named.perform (fun _ _ index => .inl (index.trans
    (named.named.find found))) Network.answer_linkSetUp) fun named => ?_
  refine .bind (.of_keeps (named.frame.uses (uses_perform trivial)) id)
    fun frame => ?_
  exact .of_keeps (frame.uses (uses_perform trivial)) id

theorem applyENISourceChecks_sparesInstances :
    applyENISourceChecks.run.Uses Op.SparesInstances := by
  unfold applyENISourceChecks
  refine Task.uses_bind (uses_perform trivial) fun _ => ?_
  refine Task.uses_bind (uses_orThrow _) fun _ => ?_
  refine Task.uses_bind (uses_perform trivial) fun _ => ?_
  refine Task.uses_bind (uses_orThrow _) fun _ => ?_
  refine Task.uses_bind (uses_orThrow _) fun _ => ?_
  exact uses_perform trivial

end Instance

/-- The activation has only changed the state of the router's end and, in the
instance, `lo` and the other end. -/
structure Framed (start : Network) (wasUp : Prop) (inode : Nat)
    (router : Link) (moment : Moment) : Prop where
  links : RouterFrame start wasUp router.index moment
  instances : InstanceFrame start inode router.parentIndex moment.state

section Activation

variable {keepsAlias : Bool} {refused : Nat → Op → Bool} {start : Network}
  {wasUp : Prop} {inode : Nat} {router : Link} {traced : Moment}

/-- The calls of a program that leaves both ends alone. -/
theorem Framed.uses {α : Type} {program : Program Op Op.Result α}
    (framed : Framed start wasUp inode router traced)
    (sparesRouter : program.Uses Op.SparesRouter)
    (sparesInstances : program.Uses Op.SparesInstances) :
    ((machine keepsAlias).exactly refused).Safe
      (fun _ => Framed start wasUp inode router) program traced :=
  ((framed.links.uses sparesRouter).and
    (framed.instances.uses sparesInstances)).mono trivial
    fun {_ _} _ kept => ⟨kept.1, kept.2⟩

theorem Framed.next {α β : Type} {task : Kernel.Task α}
    {rest : α → Kernel.Task β}
    (framed : Framed start wasUp inode router traced)
    (sparesRouter : task.run.Uses Op.SparesRouter)
    (sparesInstances : task.run.Uses Op.SparesInstances)
    (onward : ∀ {value later}, Framed start wasUp inode router later →
      ((machine keepsAlias).exactly refused).Safe
        (fun _ => Framed start wasUp inode router) (rest value).run later) :
    ((machine keepsAlias).exactly refused).Safe
      (fun _ => Framed start wasUp inode router) (task >>= rest).run traced :=
  Task.safe_bind (framed.uses sparesRouter sparesInstances) trivial
    (fun _ kept => kept) fun _ kept => onward kept

/-- The whole activation keeps both frames. -/
theorem Framed.activate {attachment : Attachment} (created : Bool)
    (framed : Framed start wasUp attachment.inode router traced) :
    ((machine keepsAlias).exactly refused).Safe
      (fun _ => Framed start wasUp attachment.inode router)
      (attachment.activate created router).run traced := by
  unfold Attachment.activate
  refine Task.safe_bind ((framed.links.linkSetDown rfl).and
    (framed.instances.uses (uses_perform trivial))) trivial
    (fun _ kept => ⟨kept.1, kept.2⟩) ?_
  rintro _ moment - ⟨links, instances⟩
  refine Framed.next ⟨links, instances⟩
    (attachment.setENISysctls_uses fun _ _ => trivial)
    (attachment.setENISysctls_uses fun _ _ => trivial) fun framed => ?_
  refine framed.next (uses_perform trivial) (uses_perform trivial)
    fun framed => ?_
  refine framed.next uses_refuseIf uses_refuseIf fun framed => ?_
  refine Task.safe_bind ((framed.links.uses
    (attachment.configurePeer_uses created router)).and
    (framed.instances.configurePeer attachment created router)) trivial
    (fun _ kept => ⟨kept.1, kept.2⟩) ?_
  rintro ⟨⟩ moment - ⟨links, named⟩
  refine Task.safe_bind (links.applyENISourceChecks.and
    (PeerFrame.uses applyENISourceChecks_sparesInstances named)) trivial
    (fun _ kept => ⟨kept.1, kept.2⟩) ?_
  rintro ⟨⟩ moment - ⟨⟨links, installed⟩, named⟩
  refine Task.safe_bind (((links.uses attachment.activatePeer_uses).and
    (installed.uses _)).and (PeerFrame.activatePeer attachment named)) trivial
    (fun _ kept => ⟨kept.1.1, kept.2⟩) ?_
  rintro _ moment - ⟨⟨links, installed⟩, instances⟩
  refine Task.safe_bind ((links.linkSetUp rfl installed).and
    (instances.uses (uses_perform trivial))) trivial
    (fun _ kept => ⟨kept.1, kept.2⟩) ?_
  rintro _ moment - ⟨links, instances⟩
  exact Framed.uses ⟨links, instances⟩ (uses_perform trivial)
    (uses_perform trivial)

end Activation

/-- No link has changed but those with the name in the router, the other end
of its pair, and `lo` of the instance.  The pair is the one that was there or,
if there was none, the one that is there now. -/
structure Confined (name : String) (inode : Nat) (before after : Network) :
    Prop where
  routers : ∀ link, link.name ≠ name →
    (link ∈ after.router.links.links ↔ link ∈ before.router.links.links)
  others : ∀ other, other ≠ inode →
    after.instances other = before.instances other
  bystanders : ∀ link, link.name ≠ "lo" →
    (∀ router, (before.router.links.find name).or
        (after.router.links.find name) = some router →
      link.index ≠ router.parentIndex) →
    (link ∈ (after.instances inode).links ↔
      link ∈ (before.instances inode).links)

/-- After an error, a link that was missing is missing, and a link that was
there is only up if it may be. -/
structure LeavesClosed (name : String) (before : Network)
    (moment : Moment) : Prop where
  missing : before.router.links.find name = none →
    moment.state.router.links.find name = none
  quiet : ∀ router, before.router.links.find name = some router →
    ∀ link, moment.state.router.links.find name = some link →
      link.up = true → MayBeUp (router.up = true) moment.history

/-- The call does not crash, and what it leaves behind after an error is
closed. -/
structure FailsClosed (name : String) (before : Network) (ending : Ending)
    (moment : Moment) : Prop where
  returns : ending ≠ .panicked
  closed : ∀ text, ending = .returned (.error text) →
    LeavesClosed name before moment

/-- One call fails, unless it is the cleanup. -/
def failAt (call number : Nat) : Op → Bool
  | .linkDel _ => false
  | _ => number == call

/-- The state in which `EnsureENI` gets to create a pair. -/
def Attachment.Creates (attachment : Attachment) (before : Network) : Prop :=
  before.router.links.find routerLinkName ≠ none ∧
    before.router.addresses.any attachment.hasGateway = true ∧
    before.router.links.find attachment.name = none ∧
    (before.instances attachment.inode).find "eth0" = none ∧
    (before.instances attachment.inode).find attachment.peerName = none

theorem Confined.refl (name : String) (inode : Nat) (network : Network) :
    Confined name inode network network :=
  ⟨fun _ _ => Iff.rfl, fun _ _ => rfl, fun _ _ _ => Iff.rfl⟩

theorem LeavesClosed.refl {name : String} {before : Network}
    {moment : Moment} (same : moment.state = before)
    (quiet : ∀ event ∈ moment.history, quiets event = false) :
    LeavesClosed name before moment := by
  subst same
  refine ⟨id, fun router found link other up => .inl ⟨?_, quiet⟩⟩
  rw [Option.some.inj (found.symm.trans other)]
  exact up

theorem LinkTable.find_of_mem {table : LinkTable} {link : Link}
    (member : link ∈ table.links) : table.find link.name = some link := by
  cases found : table.find link.name with
  | none => exact absurd rfl (LinkTable.find_eq_none.mp found link member)
  | some other =>
      obtain ⟨inside, same⟩ := LinkTable.find_mem found
      rw [List.inj_on_of_nodup_map table.names inside member same]

theorem mem_setUp_of_ne {table : LinkTable} {index : Nat} {up : Bool}
    {link : Link} (different : link.index ≠ index) :
    link ∈ (table.setUp index up).links ↔ link ∈ table.links := by
  constructor
  · intro member
    obtain ⟨old, inside, rfl⟩ := LinkTable.mem_setUp member
    split at different
    · contradiction
    · rename_i apart
      rw [if_neg apart]
      exact inside
  · intro member
    exact List.mem_map.mpr ⟨link, member, if_neg different⟩

/-- Tables that only differ in the state of one link have the same links but
for that. -/
theorem mem_of_setUp_eq {left right : LinkTable} {index : Nat}
    (same : (left.setUp index false).links = (right.setUp index false).links)
    {link : Link} (member : link ∈ left.links) :
    ∃ other ∈ right.links, other.index = link.index ∧
      other.name = link.name ∧ other.parentIndex = link.parentIndex ∧
      other.netNsID = link.netNsID := by
  have lowered : (if link.index = index then { link with up := false }
      else link) ∈ (right.setUp index false).links := by
    rw [← same]
    exact List.mem_map_of_mem member
  obtain ⟨other, inside, same⟩ := LinkTable.mem_setUp lowered
  have fields (link : Link) :
      (if link.index = index then { link with up := false } else link) =
        { link with up := if link.index = index then false else link.up } := by
    split <;> rfl
  rw [fields, fields, Link.mk.injEq] at same
  obtain ⟨atIndex, name, -, -, -, parent, netNsID⟩ := same
  exact ⟨other, inside, atIndex.symm, name.symm, parent.symm, netNsID.symm⟩

theorem InstanceFrame.mem_iff {start now : Network} {inode peer : Nat}
    (frame : InstanceFrame start inode peer now) {link : Link}
    (notLo : link.name ≠ "lo") (apart : link.index ≠ peer) :
    link ∈ (now.instances inode).links ↔
      link ∈ (start.instances inode).links := by
  have chosen : bystander peer link = true := by
    simp [bystander, notLo, apart]
  have both := congrArg (link ∈ ·) frame.bystanders
  simpa [List.mem_filter, chosen] using both

section Existing

variable {name : String} {inode : Nat} {start : Network} {wasUp : Prop}
  {router : Link} {moment : Moment}

/-- The activation of a link that was there. -/
theorem Framed.confined (framed : Framed start wasUp inode router moment)
    (found : start.router.links.find name = some router) :
    Confined name inode start moment.state := by
  obtain ⟨inside, named⟩ := LinkTable.find_mem found
  refine ⟨fun link different => ?_, framed.instances.others,
    fun link notLo apart => framed.instances.mem_iff notLo
      (apart router (by rw [found]; rfl))⟩
  by_cases index : link.index = router.index
  · -- Only the link of the call itself has this index.
    refine iff_of_false (fun member => ?_) fun member => ?_
    · obtain ⟨old, oldMember, oldIndex, oldName, -⟩ :=
        mem_of_setUp_eq framed.links.links member
      rw [LinkTable.eq_of_index oldMember inside (oldIndex.trans index)]
        at oldName
      exact different (oldName.symm.trans named)
    · rw [LinkTable.eq_of_index member inside index] at different
      exact different named
  · rw [← mem_setUp_of_ne index, framed.links.links, mem_setUp_of_ne index]

theorem Framed.closed
    (framed : Framed start (router.up = true) inode router moment)
    (found : start.router.links.find name = some router) :
    LeavesClosed name start moment := by
  obtain ⟨inside, named⟩ := LinkTable.find_mem found
  refine ⟨fun missing => ?_, fun other same link now up => ?_⟩
  · rw [found] at missing
    cases missing
  · cases found.symm.trans same
    obtain ⟨member, linkName⟩ := LinkTable.find_mem now
    obtain ⟨old, oldMember, index, oldName, -⟩ :=
      mem_of_setUp_eq framed.links.links member
    have same := List.inj_on_of_nodup_map start.router.links.names oldMember
      inside (oldName.trans (linkName.trans named.symm))
    refine framed.links.raised link member ?_ up
    rw [← index, same]

end Existing

/-- The pair is there, and nothing else has changed. -/
structure Joined (attachment : Attachment) (before : Network) (router : Link)
    (now : Network) : Prop where
  links : now.router.links.links = before.router.links.links ++ [router]
  index : router.index = before.router.links.next
  name : router.name = attachment.name
  down : router.up = false
  parentIndex :
    router.parentIndex = (before.instances attachment.inode).next
  peerNamespace :
    now.namespaceOf router.netNsID = some attachment.inode
  others : ∀ other, other ≠ attachment.inode →
    now.instances other = before.instances other
  ends : ∃ peer, (now.instances attachment.inode).links =
      (before.instances attachment.inode).links ++ [peer] ∧
    peer.index = router.parentIndex

/-- The kernel knows a namespace by the id that it gives for it. -/
theorem namespaceOf_netNsID {network : Network} {inode : Nat}
    (member : inode ∈ network.known) :
    network.namespaceOf (network.netNsID inode) = some inode := by
  unfold Network.netNsID
  cases found : network.known.idxOf? inode with
  | none =>
      rw [List.idxOf?_eq_none_iff] at found
      exact absurd member found
  | some id =>
      change network.known[id]? = some inode
      rw [List.idxOf?_eq_some_iff] at found
      obtain ⟨inside, same, -⟩ := found
      rw [List.getElem?_eq_getElem inside, same]

section Creating

variable {keepsAlias : Bool} {call : Nat} {attachment : Attachment}
  {before now after : Network} {router : Link} {moment : Moment}

theorem joined_of_linkAdd {value : Unit}
    (answer : before.answer keepsAlias (.linkAdd attachment.name
      attachment.marker attachment.peerName attachment.inode) =
      (.ok value, after)) :
    (before.instances attachment.inode).find attachment.peerName = none ∧
      ∃ router, Joined attachment before router after := by
  simp only [Network.answer, Network.addPair] at answer
  split at answer
  · rename_i free
    split at answer
    · rename_i peerFree
      cases answer
      refine ⟨peerFree, _, rfl, rfl, rfl, rfl, rfl, ?_, ?_, _,
        congrArg LinkTable.links (if_pos rfl), rfl⟩
      · refine namespaceOf_netNsID ?_
        change attachment.inode ∈ if attachment.inode ∈ before.known then
          before.known else before.known ++ [attachment.inode]
        split
        · assumption
        · exact List.mem_append_right _ (List.mem_singleton.mpr rfl)
      · intro other different
        exact if_neg different
    · cases (Prod.mk.inj answer).1
  · cases (Prod.mk.inj answer).1

theorem Joined.mem (joined : Joined attachment before router now) :
    router ∈ now.router.links.links := by
  rw [joined.links]
  exact List.mem_append_right _ (List.mem_singleton.mpr rfl)

theorem Joined.find (joined : Joined attachment before router now) :
    now.router.links.find attachment.name = some router := by
  rw [← joined.name]
  exact LinkTable.find_of_mem joined.mem

/-- The old links have other indexes. -/
theorem Joined.ne_index (joined : Joined attachment before router now)
    {link : Link} (member : link ∈ before.router.links.links) :
    link.index ≠ router.index := by
  rw [joined.index]
  exact Nat.ne_of_lt (LinkTable.index_lt_next member)

theorem Joined.marked (joined : Joined attachment before router now)
    (marker : String) :
    Joined attachment before { router with marker } (now.withTable .router
      (now.router.links.setAlias router.index marker)) := by
  refine ⟨?_, joined.index, joined.name, joined.down, joined.parentIndex,
    joined.peerNamespace, joined.others, joined.ends⟩
  change now.router.links.links.map (fun link => if link.index = router.index
    then { link with marker } else link) = _
  rw [joined.links, List.map_append, List.map_singleton, if_pos rfl]
  congr 1
  calc before.router.links.links.map _
      = before.router.links.links.map id :=
        List.map_congr_left fun link member =>
          if_neg (joined.ne_index member)
    _ = _ := List.map_id _

/-- The frames of the activation hold at its start. -/
theorem Joined.framed (joined : Joined attachment before router moment.state) :
    Framed moment.state True attachment.inode router moment := by
  refine ⟨⟨rfl, fun link member index up => ?_⟩, rfl, fun _ _ => rfl, rfl⟩
  rw [LinkTable.eq_of_index member joined.mem index, joined.down] at up
  cases up

theorem Joined.mem_iff {start : Network}
    (joined : Joined attachment before router start)
    (frame : InstanceFrame start attachment.inode router.parentIndex now)
    {link : Link} (notLo : link.name ≠ "lo")
    (apart : link.index ≠ router.parentIndex) :
    link ∈ (now.instances attachment.inode).links ↔
      link ∈ (before.instances attachment.inode).links := by
  obtain ⟨peer, ends, peerIndex⟩ := joined.ends
  rw [frame.mem_iff notLo apart, ends, List.mem_append, List.mem_singleton]
  refine or_iff_left fun same => apart ?_
  rw [same, peerIndex]

/-- A new pair that stays. -/
theorem Joined.confined {start : Network} {wasUp : Prop}
    (joined : Joined attachment before router start)
    (missing : before.router.links.find attachment.name = none)
    (framed : Framed start wasUp attachment.inode router moment) :
    Confined attachment.name attachment.inode before moment.state := by
  have kept := framed.confined joined.find
  refine ⟨fun link different => (kept.routers link different).trans ?_,
    fun other different => (kept.others other different).trans
      (joined.others other different), fun link notLo apart =>
        joined.mem_iff framed.instances notLo ?_⟩
  · rw [joined.links, List.mem_append, List.mem_singleton]
    refine or_iff_left fun same => different ?_
    rw [same, joined.name]
  · obtain ⟨there, member, -, name, parent, -⟩ :=
      mem_of_setUp_eq framed.links.links.symm joined.mem
    have found := LinkTable.find_of_mem member
    rw [name, joined.name] at found
    rw [← parent]
    refine apart there ?_
    rw [missing]
    exact found

theorem filter_setUp (table : LinkTable) (index : Nat) :
    (table.setUp index false).links.filter (fun link => link.index ≠ index) =
      table.links.filter (fun link => link.index ≠ index) := by
  refine filter_map_of_fixed (fun link _ chosen => ?_) fun link _ out => ?_
  · exact if_neg (of_decide_eq_true chosen)
  · split <;> exact out

/-- The call has kept to its links, and failed closed if it failed. -/
def Closes (attachment : Attachment) (before : Network) (ending : Ending)
    (moment : Moment) : Prop :=
  Confined attachment.name attachment.inode before moment.state ∧
    FailsClosed attachment.name before ending moment

/-- Without the pair everything is as it was. -/
theorem removePair_closes {start : Network} {there : Link} (text : String)
    (joined : Joined attachment before router start)
    (missing : before.router.links.find attachment.name = none)
    (framed : Framed start True attachment.inode router moment)
    (member : there ∈ moment.state.router.links.links)
    (same : there.index = router.index) (history : List KernelEvent) :
    Closes attachment before (.returned (.error text))
      ⟨moment.state.removePair there, history⟩ := by
  obtain ⟨frame, instances⟩ := framed
  -- The link that goes is the one that came, but for its state.
  obtain ⟨old, oldMember, index, -, parent, netNsID⟩ :=
    mem_of_setUp_eq frame.links member
  obtain rfl := LinkTable.eq_of_index oldMember joined.mem (index.trans same)
  have peerNamespace : moment.state.namespaceOf there.netNsID =
      some attachment.inode := by
    rw [← netNsID, ← joined.peerNamespace]
    unfold Network.namespaceOf
    rw [instances.known]
  have links : (moment.state.removePair there).router.links.links =
      before.router.links.links := by
    rw [Network.removePair_router, same]
    calc moment.state.router.links.links.filter
          (fun link => link.index ≠ old.index)
        = start.router.links.links.filter
            (fun link => link.index ≠ old.index) := by
          rw [← filter_setUp, frame.links, filter_setUp]
      _ = before.router.links.links := by
          rw [joined.links, List.filter_append,
            List.filter_eq_self.mpr fun link inside =>
              decide_eq_true (joined.ne_index inside)]
          simp
  have removed : (moment.state.removePair there).instances =
      (moment.state.withTable (.inst attachment.inode)
        ((moment.state.instances attachment.inode).remove
          there.parentIndex)).instances := by
    unfold Network.removePair
    rw [peerNamespace]
    rfl
  refine ⟨⟨fun link _ => ?_, fun other different => ?_,
    fun link notLo _ => ?_⟩, nofun, fun _ _ => ⟨fun _ => ?_,
      fun other found => ?_⟩⟩
  · rw [links]
  · rw [← joined.others other different, ← instances.others other different]
    change (moment.state.removePair there).instances other = _
    rw [removed]
    exact if_neg different
  · change link ∈ ((moment.state.removePair there).instances _).links ↔ _
    rw [removed, withTable_instances, LinkTable.remove, List.mem_filter,
      ← parent, decide_eq_true_iff]
    by_cases index : link.index = old.parentIndex
    · -- The index of the pair's end is new, so the link is not an old one.
      refine iff_of_false (fun there => there.2 index) fun member => ?_
      rw [joined.parentIndex] at index
      exact Nat.ne_of_lt (LinkTable.index_lt_next member) index
    · rw [joined.mem_iff instances notLo index]
      exact and_iff_left index
  · rw [LinkTable.find_eq_none] at missing ⊢
    rw [links]
    exact missing
  · rw [missing] at found
    cases found

/-- The cleanup takes the pair away again. -/
theorem cleanUp_closes {start : Network}
    (joined : Joined attachment before router start)
    (missing : before.router.links.find attachment.name = none)
    (framed : Framed start True attachment.inode router moment)
    (text : String) :
    ((machine keepsAlias).exactly (failAt call)).Safe
      (Closes attachment before)
      (Attachment.cleanUp true (some router) text) moment := by
  refine Machine.exactly_call ?_
  obtain ⟨other, member, index, -⟩ :=
    mem_of_setUp_eq framed.links.links.symm joined.mem
  have answered : ∃ there ∈ moment.state.router.links.links,
      there.index = router.index ∧
      moment.state.answer keepsAlias (.linkDel router) =
        (.ok (), moment.state.removePair there) := by
    simp only [Network.answer]
    split
    · rename_i there found
      refine ⟨there, List.mem_of_find?_eq_some found, ?_, rfl⟩
      simpa using List.find?_some found
    · rename_i absent
      rw [List.find?_eq_none] at absent
      exact absurd (beq_iff_eq.mpr index) (absent other member)
  obtain ⟨there, thereMember, same, answer⟩ := answered
  have state : ((machine keepsAlias).advance (failAt call) moment
      (.linkDel router)).state = moment.state.removePair there :=
    congrArg Prod.snd answer
  have closes := removePair_closes text joined missing framed
    thereMember same ((machine keepsAlias).advance (failAt call) moment
      (.linkDel router)).history
  rw [← state] at closes
  exact closes

/-- Nothing has been changed yet. -/
structure Untouched (before : Network) (count : Nat) (moment : Moment) :
    Prop where
  state : moment.state = before
  quiet : ∀ event ∈ moment.history, quiets event = false
  length : moment.history.length = count

/-- The call has returned before it changed anything. -/
structure Stopped (attachment : Attachment) (before : Network) (call : Nat)
    (moment : Moment) : Prop where
  state : moment.state = before
  quiet : ∀ event ∈ moment.history, quiets event = false
  early : attachment.Creates before → call < 7

theorem Untouched.snoc {count : Nat} {event : KernelEvent} {later : Moment}
    (untouched : Untouched before count moment)
    (state : later.state = moment.state) (loud : quiets event = false)
    (history : later.history = moment.history ++ [event]) :
    Untouched before (count + 1) later := by
  refine ⟨state.trans untouched.state, fun other member => ?_, ?_⟩
  · rw [history] at member
    rcases List.mem_append.mp member with old | new
    · exact untouched.quiet other old
    · rw [List.mem_singleton.mp new]
      exact loud
  · rw [history, List.length_append, untouched.length]
    rfl

theorem Untouched.failed {count : Nat}
    (untouched : Untouched before count moment) (op : Op)
    (error : CallError) :
    Untouched before (count + 1) ⟨moment.state, moment.history ++
      [⟨moment.state, op, .error error, moment.state⟩]⟩ :=
  untouched.snoc rfl (quiets_of_failed op _ error) rfl

theorem Untouched.stopped {count : Nat}
    (untouched : Untouched before count moment)
    (early : attachment.Creates before → call < 7) :
    Stopped attachment before call moment :=
  ⟨untouched.state, untouched.quiet, early⟩

theorem call_of_failAt {number : Nat} {op : Op}
    (refusal : failAt call number op = true) : number = call := by
  cases op with
  | linkDel link => cases refusal
  | _ => exact beq_iff_eq.mp refusal

/-- A call that changes nothing, and that only the schedule can refuse where
the pair is created. -/
theorem Untouched.perform {count : Nat} {op : Op} {front : String}
    (untouched : Untouched before count moment) (early : count < 7)
    (spares : op.SparesRouter)
    (reads : ∀ {value after},
      before.answer keepsAlias op = (.ok value, after) → after = before)
    (works : attachment.Creates before → ∀ error,
      before.answer keepsAlias op ≠ (.error error, before)) :
    Runs keepsAlias (failAt call) (Stopped attachment before call)
      (fun value later => Untouched before (count + 1) later ∧
        before.answer keepsAlias op = (.ok value, before))
      (Kernel.perform op front) moment := by
  have state := untouched.state
  refine exactly_perform (fun _ answer => ?_) (fun {_ error} refusal => ?_)
  · rw [state] at answer
    obtain rfl := reads answer
    exact ⟨untouched.snoc state.symm (quiets_of_spares spares _ _ _) rfl,
      answer⟩
  · refine (untouched.failed op error).stopped fun creates => ?_
    rcases refusal with refusal | answer
    · rw [← call_of_failAt refusal, untouched.length]
      exact early
    · rw [state] at answer
      exact absurd answer (works creates _)

theorem Untouched.lookUp {count : Nat} {side : Side} {name : String}
    (untouched : Untouched before count moment) :
    ((machine keepsAlias).exactly (failAt call)).Safe
      (fun result later => Untouched before (count + 1) later ∧
        (∀ text, result ≠ .error text) ∧
        (∀ link, result = .ok (.ok link) →
          (before.table side).find name = some link) ∧
        (result = .ok (.error .notFound) →
          (before.table side).find name = none) ∧
        ∀ text, result = .ok (.error (.failed text)) → count = call)
      (Kernel.lookUp side name).run moment := by
  refine exactly_lookUp.mono trivial fun {result later} _ looked => ?_
  obtain ⟨event, loud, history⟩ := looked.history
  refine ⟨untouched.snoc looked.state loud history, looked.returns, ?_, ?_, ?_⟩
  · rw [← untouched.state]
    exact looked.found
  · rw [← untouched.state]
    exact looked.missing
  · intro text failed
    rw [← untouched.length]
    exact call_of_failAt (looked.failed text failed)

/-- How the search for the link ends. -/
inductive Found (attachment : Attachment) (before : Network) (call : Nat) :
    Except String (Bool × Link) → Moment → Prop
  | stopped {text : String} {moment : Moment}
      (stopped : Stopped attachment before call moment) :
      Found attachment before call (.error text) moment
  /-- The lookup of the new link has failed. -/
  | leaked {text : String} {router : Link} {moment : Moment}
      (creates : attachment.Creates before) (lookup : call = 7)
      (joined : Joined attachment before router moment.state) :
      Found attachment before call (.error text) moment
  | existing {router : Link} {moment : Moment}
      (found : before.router.links.find attachment.name = some router)
      (state : moment.state = before)
      (quiet : ∀ event ∈ moment.history, quiets event = false) :
      Found attachment before call (.ok (false, router)) moment
  | created {router : Link} {moment : Moment}
      (creates : attachment.Creates before) (passed : call ≠ 7)
      (joined : Joined attachment before router moment.state)
      (length : moment.history.length = 8) :
      Found attachment before call (.ok (true, router)) moment

theorem answer_linkByName_ne {name : String}
    (there : before.router.links.find name ≠ none) (error : CallError) :
    before.answer keepsAlias (.linkByName .router name) ≠
      (.error error, before) := by
  intro answer
  simp only [Network.answer] at answer
  split at answer
  · cases (Prod.mk.inj answer).1
  · contradiction

/-- The router and the gateway are there. -/
theorem checkGateway_exactly {count : Nat}
    (untouched : Untouched before count moment) (early : count + 1 < 7) :
    Runs keepsAlias (failAt call) (Stopped attachment before call)
      (fun _ later => Untouched before (count + 2) later ∧
        before.router.links.find routerLinkName ≠ none ∧
        before.router.addresses.any attachment.hasGateway = true)
      attachment.checkGateway moment := by
  unfold Attachment.checkGateway
  refine .bind (untouched.perform (by omega) trivial
    (fun answer => (Network.answer_linkByName answer).2)
    fun creates => answer_linkByName_ne creates.1) ?_
  rintro router later ⟨untouched, answer⟩
  have there : before.router.links.find routerLinkName ≠ none := by
    have found := (Network.answer_linkByName answer).1
    change before.router.links.find routerLinkName = some router at found
    rw [found]
    exact Option.some_ne_none router
  refine .bind (untouched.perform early trivial
    (fun answer => (Prod.mk.inj answer).2.symm)
    fun _ _ answer => by cases answer) ?_
  rintro addresses later ⟨untouched, answer⟩
  cases answer
  unfold refuseIf
  split
  · rename_i absent
    refine Task.safe_throw (untouched.stopped fun creates => ?_)
    exact absurd creates.2.1 absent
  · rename_i ready
    exact Task.safe_pure ⟨untouched, there, not_not.mp ready⟩

/-- The pair is created as a whole, or not at all. -/
theorem joined_exactly {front : String}
    (untouched : Untouched before 6 moment)
    (missing : before.router.links.find attachment.name = none) :
    Runs keepsAlias (failAt call) (Stopped attachment before call)
      (fun _ later =>
        (before.instances attachment.inode).find attachment.peerName =
          none ∧
        ∃ router, Joined attachment before router later.state ∧
          later.history.length = 7)
      (perform (.linkAdd attachment.name attachment.marker
        attachment.peerName attachment.inode) front) moment := by
  have state := untouched.state
  refine exactly_perform (fun _ answer => ?_) (fun {_ error} refusal => ?_)
  · rw [state] at answer
    obtain ⟨peerFree, router, joined⟩ := joined_of_linkAdd answer
    refine ⟨peerFree, router, joined, ?_⟩
    rw [List.length_append, untouched.length]
    rfl
  · refine (untouched.failed _ error).stopped fun creates => ?_
    rcases refusal with refusal | answer
    · rw [← call_of_failAt refusal, untouched.length]
      omega
    · rw [state] at answer
      simp only [Network.answer, Network.addPair] at answer
      rw [dif_pos missing, dif_pos creates.2.2.2.2] at answer
      cases (Prod.mk.inj answer).1

/-- The creation of the pair. -/
theorem create_exactly
    (untouched : Untouched before 4 moment)
    (there : before.router.links.find routerLinkName ≠ none)
    (ready : before.router.addresses.any attachment.hasGateway = true)
    (missing : before.router.links.find attachment.name = none) :
    ((machine keepsAlias).exactly (failAt call)).Safe
      (fun result => Found attachment before call
        (result.map fun router => (true, router)))
      attachment.create.run moment := by
  unfold Attachment.create
  refine Task.safe_bind (untouched.perform (by omega) trivial
    (fun answer => (Prod.mk.inj answer).2.symm)
    fun _ _ answer => by cases answer) trivial
    (fun _ stopped => .stopped stopped) ?_
  rintro _ later - ⟨untouched, -⟩
  refine Task.safe_bind untouched.lookUp trivial
    (fun _ kept => absurd rfl (kept.2.1 _)) ?_
  rintro result later - ⟨untouched, -, found, absent, failed⟩
  match result with
  | .ok link =>
      refine Task.safe_throw (.stopped (untouched.stopped fun creates => ?_))
      have taken := found link rfl
      exact absurd (creates.2.2.2.1.symm.trans taken) nofun
  | .error (.failed text) =>
      refine Task.safe_throw (.stopped (untouched.stopped fun _ => ?_))
      rw [← failed text rfl]
      omega
  | .error .notFound =>
      have free := absent rfl
      refine Task.safe_bind (joined_exactly untouched missing) trivial
        (fun _ stopped => .stopped stopped) ?_
      rintro _ later - ⟨peerFree, router, joined, length⟩
      have creates : attachment.Creates before :=
        ⟨there, ready, missing, free, peerFree⟩
      refine exactly_perform (fun {link after} refusal answer => ?_)
        (fun {text error} refusal => ?_)
      · obtain ⟨found, rfl⟩ := Network.answer_linkByName answer
        cases joined.find.symm.trans found
        refine .created creates (fun lookup => ?_) joined ?_
        · rw [length, lookup] at refusal
          cases refusal
        · rw [List.length_append, length]
          rfl
      · refine .leaked creates ?_ joined
        rcases refusal with refusal | answer
        · rw [← call_of_failAt refusal, length]
        · refine absurd answer (answer_linkByName_ne ?_ error)
          rw [joined.find]
          exact Option.some_ne_none router

theorem findOrCreate_exactly :
    ((machine keepsAlias).exactly (failAt call)).Safe
      (Found attachment before call) attachment.findOrCreate.run
      ⟨before, []⟩ := by
  unfold Attachment.findOrCreate
  have untouched : Untouched before 0 ⟨before, []⟩ :=
    ⟨rfl, List.forall_mem_nil _, rfl⟩
  refine Task.safe_bind (untouched.perform (by omega) trivial
    (fun answer => (Prod.mk.inj answer).2.symm)
    fun _ _ answer => by cases answer) trivial
    (fun _ stopped => .stopped stopped) ?_
  rintro _ later - ⟨untouched, -⟩
  refine Task.safe_bind (checkGateway_exactly untouched (by omega)) trivial
    (fun _ stopped => .stopped stopped) ?_
  rintro _ later - ⟨untouched, there, ready⟩
  refine Task.safe_bind untouched.lookUp trivial
    (fun _ kept => absurd rfl (kept.2.1 _)) ?_
  rintro result later - ⟨untouched, -, found, absent, failed⟩
  match result with
  | .error (.failed text) =>
      refine Task.safe_throw (.stopped (untouched.stopped fun _ => ?_))
      rw [← failed text rfl]
      omega
  | .ok router =>
      have present : before.router.links.find attachment.name =
          some router := found router rfl
      refine Task.safe_bind exactly_refuseIf trivial ?_ ?_
      · rintro text _ - ⟨rfl, -⟩
        refine .stopped (untouched.stopped fun creates => ?_)
        rw [creates.2.2.1] at present
        cases present
      · rintro _ _ - ⟨rfl, -⟩
        exact Task.safe_pure
          (.existing present untouched.state untouched.quiet)
  | .error .notFound =>
      refine Task.safe_bind
        (create_exactly untouched there ready (absent rfl)) trivial
        (fun _ ends => ends) ?_
      intro router later _ ends
      exact Task.safe_pure ends

/-- How the marking of a new link ends. -/
inductive Marked (attachment : Attachment) (before : Network) (call : Nat) :
    Except (String × Option Link) Link → Moment → Prop
  /-- The second lookup has failed. -/
  | lost {text : String} {router : Link} {moment : Moment}
      (lookup : call = 9)
      (joined : Joined attachment before router moment.state) :
      Marked attachment before call (.error (text, none)) moment
  | failed {text : String} {router : Link} {moment : Moment}
      (passed : call ≠ 9)
      (joined : Joined attachment before router moment.state) :
      Marked attachment before call (.error (text, some router)) moment
  | marked {router : Link} {moment : Moment} (passed : call ≠ 9)
      (joined : Joined attachment before router moment.state) :
      Marked attachment before call (.ok router) moment

theorem answer_linkSetAlias_of_mem {marker : String}
    (joined : Joined attachment before router now) :
    now.answer keepsAlias (.linkSetAlias .router router marker) =
      (.ok (), now.withTable .router
        (now.router.links.setAlias router.index marker)) := by
  have present : (now.table .router).links.any
      (fun other => other.index == router.index) = true := by
    exact List.any_eq_true.mpr ⟨router, joined.mem, beq_self_eq_true _⟩
  simp only [Network.answer, Network.change]
  exact if_pos present

theorem findMarked_exactly
    (joined : Joined attachment before router moment.state)
    (marked : router.marker = attachment.marker)
    (length : moment.history.length = 9) :
    ((machine keepsAlias).exactly (failAt call)).Safe
      (Marked attachment before call) attachment.findMarked moment := by
  unfold Attachment.findMarked
  refine Machine.exactly_cases (fun refusal => ?_) ?_
  · refine Marked.lost ?_ joined
    rw [← call_of_failAt refusal, length]
  · intro result after refusal answer
    have passed : call ≠ 9 := by
      rintro rfl
      rw [length] at refusal
      cases refusal
    change moment.state.answer keepsAlias
      (.linkByName .router attachment.name) = _ at answer
    simp only [Network.answer, Network.table, joined.find] at answer
    cases answer
    change ((machine keepsAlias).exactly (failAt call)).Safe _
      (if router.marker ≠ attachment.marker then _ else _) _
    rw [if_neg (not_not.mpr marked)]
    exact Marked.marked passed joined

theorem mark_exactly (joined : Joined attachment before router moment.state)
    (length : moment.history.length = 8) :
    ((machine keepsAlias).exactly (failAt call)).Safe
      (Marked attachment before call) (attachment.mark router) moment := by
  unfold Attachment.mark
  refine Machine.exactly_cases (fun refusal => ?_) ?_
  · refine Marked.failed (fun lookup => ?_) joined
    have number := call_of_failAt refusal
    omega
  · intro result after _ answer
    change moment.state.answer keepsAlias
      (.linkSetAlias .router router attachment.marker) = _ at answer
    rw [answer_linkSetAlias_of_mem joined] at answer
    cases answer
    refine findMarked_exactly (joined.marked _) rfl ?_
    rw [List.length_append, length]
    rfl

/-- The activation and the cleanup after it. -/
theorem activate_closes {start : Network} {wasUp : Prop} {created : Bool}
    (framed : Framed start wasUp attachment.inode router moment)
    (confined : ∀ {later},
      Framed start wasUp attachment.inode router later →
      Confined attachment.name attachment.inode before later.state)
    (cleans : ∀ text {later},
      Framed start wasUp attachment.inode router later →
      ((machine keepsAlias).exactly (failAt call)).Safe
        (Closes attachment before)
        (Attachment.cleanUp created (some router) text) later) :
    ((machine keepsAlias).exactly (failAt call)).Safe
      (Closes attachment before)
      ((attachment.activate created router).run >>= fun
        | .ok () => return .returned (.ok ())
        | .error text => Attachment.cleanUp created (some router) text)
      moment := by
  refine (framed.activate created).bind trivial ?_
  intro result later _ framed
  cases result with
  | ok value =>
      exact ⟨confined framed, nofun, fun _ failed => by cases failed⟩
  | error text => exact cleans text framed

/-- A call of `EnsureENI` keeps to its links, and fails closed but for the two
lookups. -/
theorem ensure_exactly :
    ((machine keepsAlias).exactly (failAt call)).Safe
      (fun ending moment =>
        Confined attachment.name attachment.inode before moment.state ∧
          (FailsClosed attachment.name before ending moment ↔
            ¬ (attachment.Creates before ∧ (call = 7 ∨ call = 9))))
      attachment.ensure ⟨before, []⟩ := by
  unfold Attachment.ensure
  refine findOrCreate_exactly.bind trivial ?_
  intro result moment _ found
  cases found with
  | stopped stopped =>
      obtain ⟨rfl, quiet, early⟩ := stopped
      refine ⟨.refl _ _ _, iff_of_true ⟨nofun, fun _ _ => .refl rfl quiet⟩
        fun late => ?_⟩
      have := early late.1
      omega
  | leaked creates lookup joined =>
      refine ⟨joined.confined creates.2.2.1 joined.framed,
        iff_of_false (fun closed => ?_) (not_not.mpr
          ⟨creates, .inl lookup⟩)⟩
      have gone := (closed.closed _ rfl).missing creates.2.2.1
      cases gone.symm.trans joined.find
  | @existing router moment found state quiet =>
      have exists' : ¬ (attachment.Creates before ∧
          (call = 7 ∨ call = 9)) := by
        rintro ⟨creates, -⟩
        rw [creates.2.2.1] at found
        cases found
      subst state
      have framed : Framed moment.state (router.up = true)
          attachment.inode router moment := by
        refine ⟨⟨rfl, fun link member index up => .inl ⟨?_, quiet⟩⟩,
          rfl, fun _ _ => rfl, rfl⟩
        rw [← LinkTable.eq_of_index member (LinkTable.find_mem found).1 index]
        exact up
      refine (activate_closes framed (fun framed => framed.confined found)
        ?_).mono trivial fun {_ _} _ closes =>
          ⟨closes.1, iff_of_true closes.2 exists'⟩
      intro text later framed
      exact ⟨framed.confined found, nofun, fun _ _ => framed.closed found⟩
  | @created router moment creates passed joined length =>
      have missing := creates.2.2.1
      refine (mark_exactly joined length).bind trivial ?_
      intro result moment _ marked
      cases marked with
      | lost lookup joined =>
          exact ⟨joined.confined missing joined.framed, iff_of_false
            (fun closed => closed.returns rfl)
            (not_not.mpr ⟨creates, .inr lookup⟩)⟩
      | failed passed' joined =>
          refine (cleanUp_closes joined missing joined.framed _).mono
            trivial fun {_ _} _ closes =>
              ⟨closes.1, iff_of_true closes.2 ?_⟩
          exact fun late => late.2.elim passed passed'
      | marked passed' joined =>
          refine (activate_closes joined.framed (joined.confined missing)
            fun text _ framed => cleanUp_closes joined missing framed
              text).mono trivial fun {_ _} _ closes =>
                ⟨closes.1, iff_of_true closes.2 ?_⟩
          exact fun late => late.2.elim passed passed'

end Creating

theorem attachment_ok {vpc : VPC} {subnet : Subnet} {eni : ENI} {inode : Nat}
    {checked : Attachment}
    (valid : attachment vpc subnet eni inode = .ok checked) :
    checked.name = "ve" ++ toString eni.shortIndex ∧
      checked.inode = inode := by
  have named : eniLinkName eni.shortIndex = .ok checked.name ∧
      checked.inode = inode := by
    simp only [attachment, bind, Except.bind, pure, Except.pure, throw,
      throwThe, MonadExceptOf.throw] at valid
    repeat' split at valid
    all_goals
      first
        | cases (Except.ok.inj valid)
          exact ⟨by assumption, rfl⟩
        | cases valid
  refine ⟨?_, named.2⟩
  have linked := named.1
  unfold eniLinkName at linked
  split at linked
  · cases linked
  · exact (Except.ok.inj linked).symm

/-- Whichever call fails, `EnsureENI` changes no link but its own pair and
`lo`.  It fails closed unless it creates a pair and one of the two lookups of
the new link fails: the first comes before the cleanup is registered, and the
second overwrites the link that the cleanup deletes. -/
theorem ensureENI_failsClosed_iff (keepsAlias : Bool) (before : Network)
    (vpc : VPC) (subnet : Subnet) (eni : ENI) (inode call : Nat) :
    let name := "ve" ++ toString eni.shortIndex
    let run := (machine keepsAlias).run (failAt call) 0
      (ensureENI vpc subnet eni inode) before
    Confined name inode before run.final ∧
      (FailsClosed name before run.value ⟨run.final, run.events⟩ ↔
        ∀ checked, attachment vpc subnet eni inode = .ok checked →
          ¬ (checked.Creates before ∧ (call = 7 ∨ call = 9))) := by
  intro name run
  cases checks : attachment vpc subnet eni inode with
  | error text =>
      have ends : run = ⟨.returned (.error text), before, []⟩ := by
        change (machine keepsAlias).run (failAt call) 0
          (ensureENI vpc subnet eni inode) before = _
        unfold ensureENI
        rw [checks]
        rfl
      rw [ends]
      exact ⟨.refl _ _ _, iff_of_true ⟨nofun, fun _ _ => .refl rfl
        (List.forall_mem_nil _)⟩ nofun⟩
  | ok checked =>
      obtain ⟨named, inodes⟩ := attachment_ok checks
      have safe : ((machine keepsAlias).exactly (failAt call)).Safe
          (fun ending moment =>
            Confined checked.name checked.inode before moment.state ∧
              (FailsClosed checked.name before ending moment ↔
                ¬ (checked.Creates before ∧ (call = 7 ∨ call = 9))))
          (ensureENI vpc subnet eni inode) ⟨before, []⟩ := by
        unfold ensureENI
        rw [checks]
        exact ensure_exactly
      obtain ⟨confined, closes⟩ := Machine.run_exactly safe
      rw [named, inodes] at confined
      rw [named] at closes
      refine ⟨confined, fun closed _ same => ?_,
        fun spared => closes.mpr (spared checked rfl)⟩
      cases same
      exact closes.mp closed

/-- The failures at the two lookups of a new link. -/
theorem openNetwork_left_open :
    let run (call : Nat) := (machine false).run (failAt call) 0
      (ensureENI plainVPC plainSubnet plainENI 4026532000) openNetwork
    openNetwork.router.links.find "ve1" = none ∧
      (run 7).value = .returned (.error "find created ENI ve1: refused") ∧
      (run 7).final.router.links.find "ve1" ≠ none ∧
      (run 9).value = .panicked := by
  decide +kernel

end Nephos
