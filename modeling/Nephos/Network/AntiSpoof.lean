import Nephos.Network.Convergence
import Nephos.Network.Interfaces

/-!
# Source checks before activation

A link of an instance that is up is in the set of the source checks, with
the address of its marker, and packets with another source are dropped.  The
invariant holds at every moment of every sequence of `EnsureENI` and
`DeleteENI`, whichever of their calls fail.
-/

namespace Nephos

open Effects Kernel

/-- The link is the router's end of an interface. -/
def Kernel.Link.IsENI (link : Link) : Prop :=
  "ve".toList.isPrefixOf link.name.toList = true

instance (link : Link) : Decidable link.IsENI :=
  inferInstanceAs (Decidable (_ = true))

/-- The policy lets the link send from the address of its marker only. -/
def Protects (policy : Ruleset.Policy) (link : Link) : Prop :=
  ∃ record, parseENIAlias link.marker = .ok record ∧
    (link.name, record.ip) ∈ policy.sources ∧
    (∀ ip, (link.name, ip) ∈ policy.sources → ip = record.ip) ∧
    policy.rules =
      [.returnSources ("@" ++ policy.set), .dropFrom "ve*"]

/-- Every link that is up is protected. -/
def Guarded (network : Network) : Prop :=
  ∀ link ∈ network.router.links.links, link.IsENI → link.up = true →
    ∃ policy, network.router.table = some policy ∧ Protects policy link

/-- Every link is protected, also those that are down. -/
def Covered (network : Network) : Prop :=
  ∃ policy, network.router.table = some policy ∧
    ∀ link ∈ network.router.links.links, link.IsENI → Protects policy link

theorem Covered.guarded {network : Network} (covered : Covered network) :
    Guarded network := by
  obtain ⟨policy, installed, protects⟩ := covered
  exact fun link member isENI _ => ⟨policy, installed, protects link member
    isENI⟩

/-- A protected link passes packets from its own address and no others. -/
theorem Protects.passes_iff {policy : Ruleset.Policy} {link : Link}
    (protects : Protects policy link) (isENI : link.IsENI) :
    ∃ record, parseENIAlias link.marker = .ok record ∧
      ∀ source, policy.passes { iifname := link.name, source } = true ↔
        source = some record.ip := by
  obtain ⟨record, marked, listed, unique, rules⟩ := protects
  refine ⟨record, marked, fun source => ?_⟩
  have pattern : Ruleset.matchesName "ve*" link.name = true := isENI
  rw [Ruleset.Policy.passes, rules, Ruleset.Policy.accepts,
    Ruleset.Policy.accepts, if_pos pattern]
  constructor
  · intro passes
    split at passes
    · rename_i both
      obtain ⟨ip, same, member⟩ := (Option.any_eq_true _ _).mp both.2
      exact same.trans (congrArg some (unique ip (of_decide_eq_true member)))
    · cases passes
  · rintro rfl
    rw [if_pos ⟨rfl, decide_eq_true listed⟩]

theorem parseENIAlias_is4 {marker : String} {record : ENIIdentity}
    (parsed : parseENIAlias marker = .ok record) :
    record.ip.is4 = true := by
  unfold parseENIAlias at parsed
  split at parsed
  · rename_i first second third fourth _
    cases id : markerID first with
    | error text =>
        rw [id] at parsed
        cases parsed
    | ok owner =>
        rw [id] at parsed
        dsimp only [bind, Except.bind] at parsed
        split at parsed
        · cases parsed
        · rename_i ip _
          split at parsed
          · cases parsed
          · rename_i isV4
            cases mac : markerMAC third with
            | error text =>
                rw [mac] at parsed
                cases parsed
            | ok hardware =>
                rw [mac] at parsed
                dsimp only at parsed
                split at parsed
                · cases parsed
                · split at parsed
                  · cases parsed
                  · cases parsed
                    exact not_not.mp isV4
  · cases parsed

/-- What the records say about the links. -/
structure Records (links : List Link) (records : List (String × ENIIdentity)) :
    Prop where
  valid : ∀ record ∈ records, ValidSource record
  names : (records.map Prod.fst).Sublist (links.map Link.name)
  complete : ∀ link ∈ links, link.IsENI → ∃ record,
    parseENIAlias link.marker = .ok record ∧ (link.name, record) ∈ records

theorem collectRecords_spec {links : List Link}
    {records : List (String × ENIIdentity)}
    (collected : collectRecords links = .ok records) :
    Records links records := by
  induction links generalizing records with
  | nil =>
      cases collected
      exact ⟨nofun, .slnil, nofun⟩
  | cons link links induction =>
      rw [collectRecords] at collected
      split at collected
      · rename_i other
        obtain ⟨valid, names, complete⟩ := induction collected
        refine ⟨valid, names.cons _, List.forall_mem_cons.mpr ⟨?_, complete⟩⟩
        exact fun isENI => absurd isENI other
      · split at collected
        · cases collected
        rename_i fine
        rw [not_or, not_not] at fine
        cases parsed : parseENIAlias link.marker with
        | error text =>
            rw [parsed] at collected
            cases collected
        | ok record =>
            cases rest : collectRecords links with
            | error text =>
                rw [parsed, rest] at collected
                cases collected
            | ok others =>
                rw [parsed, rest] at collected
                cases collected
                obtain ⟨valid, names, complete⟩ := induction rest
                refine ⟨List.forall_mem_cons.mpr
                  ⟨⟨fine.1, parseENIAlias_is4 parsed⟩, valid⟩,
                  names.cons_cons _, List.forall_mem_cons.mpr ⟨?_, ?_⟩⟩
                · exact fun _ => ⟨record, parsed, List.mem_cons_self⟩
                · intro other member isENI
                  obtain ⟨found, marked, inside⟩ := complete other member isENI
                  exact ⟨found, marked, List.mem_cons_of_mem _ inside⟩

theorem Records.protects {table : LinkTable}
    {records : List (String × ENIIdentity)}
    (spec : Records table.links records) (existing : Bool) {link : Link}
    (member : link ∈ table.links) (isENI : link.IsENI) :
    Protects (sourcePolicy (byName records) existing) link := by
  obtain ⟨record, marked, inside⟩ := spec.complete link member isENI
  have distinct : (records.map Prod.fst).Nodup :=
    table.names.sublist spec.names
  have sources : ∀ ip, (link.name, ip) ∈
      (sourcePolicy (byName records) existing).sources ↔
      ∃ other, (link.name, other) ∈ records ∧ other.ip = ip := by
    intro ip
    change (link.name, ip) ∈ (byName records).map sourcePair ↔ _
    rw [List.mem_map]
    constructor
    · rintro ⟨⟨name, other⟩, listed, same⟩
      cases same
      exact ⟨other, (byName_perm records).mem_iff.mp listed, rfl⟩
    · rintro ⟨other, listed, rfl⟩
      exact ⟨_, (byName_perm records).mem_iff.mpr listed, rfl⟩
  refine ⟨record, marked, (sources _).mpr ⟨record, inside, rfl⟩, ?_, ?_⟩
  · intro ip listed
    obtain ⟨other, otherInside, rfl⟩ := (sources ip).mp listed
    have first := lookup_of_mem distinct inside
    have second := lookup_of_mem distinct otherInside
    exact congrArg ENIIdentity.ip (Option.some.inj (second.symm.trans first))
  · have set : "@eni_sources" = "@" ++ "eni_sources" := by decide
    change [_, _] = [_, _]
    rw [← show "@eni_sources" = "@" ++ (sourcePolicy (byName records)
      existing).set from set]

theorem findTable_of_listed {table : Option Ruleset.Policy} {existing : Bool}
    (found : findTable (table.toList.map fun table =>
      { family := "inet", name := "nephos", comment := table.comment }) =
        .ok existing) : existing = table.isSome := by
  cases table with
  | none =>
      cases found
      rfl
  | some policy =>
      simp only [Option.toList_some, List.map_cons, List.map_nil, findTable,
        and_self, if_true] at found
      split at found
      · cases found
      · cases found
        rfl

/-- After the script was run every link is protected. -/
theorem covered_of_applied {network after : Network}
    {records : List (String × ENIIdentity)}
    (spec : Records network.router.links.links records) {script : String}
    (rendered : renderENISourceChecks records network.router.table.isSome =
      .ok script)
    (applied : network.applyScript script = (.ok (), after)) :
    Covered after := by
  have distinct : (records.map Prod.fst).Nodup :=
    network.router.links.names.sublist spec.names
  have text := render_valid distinct spec.valid network.router.table.isSome
  rw [rendered, Except.ok.injEq] at text
  have valid : ∀ record ∈ byName records, ValidSource record :=
    fun record member => spec.valid record
      ((byName_perm records).mem_iff.mp member)
  have parsed := parse_script valid network.router.table.isSome
  rw [← text] at parsed
  refine ⟨sourcePolicy (byName records) network.router.table.isSome, ?_,
    fun link member isENI => ?_⟩
  all_goals
    unfold Network.applyScript at applied
    rw [parsed] at applied
    cases table : network.router.table with
    | none =>
        rw [table] at applied
        cases applied
        first | rfl | exact spec.protects _ member isENI
    | some policy =>
        rw [table] at applied
        cases applied
        first | rfl | exact spec.protects _ member isENI

section Calls

variable {keepsAlias : Bool} {refusable : Op → Prop} {network : Network}

theorem uses_refuseIf {allowed : Op → Prop} {bad : Prop} [Decidable bad]
    {text : String} : (refuseIf bad text).run.Uses allowed := by
  unfold refuseIf
  split <;> trivial

theorem uses_orThrow {α : Type} {allowed : Op → Prop}
    (value : Except String α) : (orThrow value).run.Uses allowed := by
  cases value <;> trivial

theorem safe_orThrow {α : Type} {holds : Network → Prop}
    (value : Except String α) :
    ((machine keepsAlias).contract refusable holds).Safe
      (fun result now => now = network ∧ result = value)
      (orThrow value).run network := by
  cases value with
  | ok value => exact Task.safe_pure ⟨rfl, rfl⟩
  | error text => exact Task.safe_throw ⟨rfl, rfl⟩

/-- The links with the index are down. -/
def DownAt (index : Nat) (network : Network) : Prop :=
  ∀ link ∈ network.router.links.links, link.index = index → link.up = false

/-- Nothing comes up that was not up with the same marker. -/
theorem Guarded.of_links {before after : Network} (guarded : Guarded before)
    (table : after.router.table = before.router.table)
    (links : ∀ link ∈ after.router.links.links, link.up = true →
      link ∈ before.router.links.links) : Guarded after := by
  intro link member isENI up
  obtain ⟨policy, installed, protects⟩ :=
    guarded link (links link member up) isENI up
  exact ⟨policy, table.trans installed, protects⟩

/-- The contract of a program that keeps every link guarded. -/
abbrev guarding (keepsAlias : Bool) (refusable : Op → Prop) :
    Contract Op Op.Result Network :=
  (machine keepsAlias).contract refusable Guarded

/-- What depends on the links and the checks of the router is kept by calls
that leave them alone. -/
theorem safe_spares {α : Type} {keeps : Network → Prop}
    (depends : ∀ {before after : Network},
      after.router.links = before.router.links →
      after.router.table = before.router.table → keeps before → keeps after)
    {program : Program Op Op.Result α}
    (uses : program.Uses Op.SparesRouter) (now : keeps network) :
    (guarding keepsAlias refusable).Safe (fun _ => keeps) program
      network := by
  refine Machine.safe_uses (uses.mono fun op spares before guarded kept => ?_)
    now
  obtain ⟨links, table⟩ := before.answer_spares keepsAlias spares
  refine ⟨guarded.of_links table fun link member _ => ?_,
    depends links table kept⟩
  rw [← links]
  exact member

theorem safe_spared {α : Type} {program : Program Op Op.Result α}
    (uses : program.Uses Op.SparesRouter) :
    (guarding keepsAlias refusable).Keeps program network :=
  safe_spares (fun _ _ kept => kept) uses trivial

/-- The rule for a task that leaves the router alone. -/
theorem spared_bind {α β : Type} {task : Kernel.Task α}
    {rest : α → Kernel.Task β} {post : Except String β → Network → Prop}
    (uses : task.run.Uses Op.SparesRouter) (guarded : Guarded network)
    (failed : ∀ {text now}, post (.error text) now)
    (onward : ∀ {value now}, Guarded now →
      (guarding keepsAlias refusable).Safe post (rest value).run now) :
    (guarding keepsAlias refusable).Safe post (task >>= rest).run network :=
  Task.safe_bind (safe_spared uses) guarded (fun _ _ => failed)
    fun held _ => onward held

theorem Covered.depends {before after : Network}
    (links : after.router.links = before.router.links)
    (table : after.router.table = before.router.table)
    (covered : Covered before) : Covered after := by
  obtain ⟨policy, installed, protects⟩ := covered
  refine ⟨policy, table.trans installed, ?_⟩
  rw [links]
  exact protects

theorem applyENISourceChecks_safe (guarded : Guarded network) :
    (guarding keepsAlias refusable).Safe
      (fun result now => result = .ok () → Covered now)
      applyENISourceChecks.run network := by
  unfold applyENISourceChecks
  refine Task.safe_bind (safe_read rfl) guarded (fun _ _ => nofun) ?_
  rintro links now held ⟨rfl, listed, -⟩
  obtain rfl := listed links rfl
  refine Task.safe_bind (safe_orThrow _) held (fun _ _ => nofun) ?_
  rintro records now held ⟨rfl, collected⟩
  have spec := collectRecords_spec collected.symm
  refine Task.safe_bind (safe_read rfl) held (fun _ _ => nofun) ?_
  rintro entries now held ⟨rfl, listed, -⟩
  obtain rfl := listed entries rfl
  refine Task.safe_bind (safe_orThrow _) held (fun _ _ => nofun) ?_
  rintro existing now held ⟨rfl, found⟩
  obtain rfl := findTable_of_listed found.symm
  refine Task.safe_bind (safe_orThrow _) held (fun _ _ => nofun) ?_
  rintro script now held ⟨rfl, rendered⟩
  refine safe_perform (fun _ answer => ?_) (fun _ _ => nofun)
  have covered := covered_of_applied spec rendered.symm answer
  exact ⟨covered.guarded, fun _ => covered⟩

theorem linkAdd_safe {name marker peerName front : String} {inode : Nat} :
    (guarding keepsAlias refusable).Safe
      (fun result now => result = .ok () →
        ∀ link ∈ now.router.links.links, link.name = name → link.up = false)
      (perform (.linkAdd name marker peerName inode) front).run network := by
  refine safe_perform (fun guarded answer => ?_) (fun _ _ => nofun)
  simp only [Network.answer, Network.addPair] at answer
  split at answer
  · rename_i free
    split at answer
    · cases answer
      have split : ∀ {link : Link} {new : Link},
          link ∈ network.router.links.links ++ [new] →
          link ∈ network.router.links.links ∨ link = new := by
        intro link new member
        exact (List.mem_append.mp member).imp_right List.mem_singleton.mp
      refine ⟨guarded.of_links rfl fun link member up => ?_,
        fun _ link member named => ?_⟩
      · rcases split member with old | rfl
        · exact old
        · cases up
      · rcases split member with old | rfl
        · exact absurd named (LinkTable.find_eq_none.mp free link old)
        · rfl
    · cases (Prod.mk.inj answer).1
  · cases (Prod.mk.inj answer).1

theorem linkSetDown_safe {link : Link} {front : String} :
    (guarding keepsAlias refusable).Keeps
      (perform (.linkSetDown .router link) front).run network := by
  refine safe_perform (fun guarded answer => ?_) (fun _ _ => trivial)
  obtain rfl := Network.answer_linkSetDown answer
  refine ⟨guarded.of_links rfl fun other member up => ?_, trivial⟩
  obtain ⟨old, inside, rfl⟩ := LinkTable.mem_setUp member
  split at up
  · cases up
  · rename_i different
    rw [if_neg different]
    exact inside

theorem linkSetUp_safe {link : Link} {front : String}
    (covered : Covered network) :
    (guarding keepsAlias refusable).Keeps
      (perform (.linkSetUp .router link) front).run network := by
  refine safe_perform (fun _ answer => ?_) (fun _ _ => trivial)
  obtain rfl := Network.answer_linkSetUp answer
  obtain ⟨policy, installed, protects⟩ := covered
  have raised : Covered (network.withTable .router
      (network.router.links.setUp link.index true)) := by
    refine ⟨policy, installed, fun other member isENI => ?_⟩
    obtain ⟨old, inside, rfl⟩ := LinkTable.mem_setUp member
    split
    · rename_i same
      rw [if_pos same] at isENI
      exact protects old inside isENI
    · rename_i different
      rw [if_neg different] at isENI
      exact protects old inside isENI
  exact ⟨raised.guarded, trivial⟩

variable (keepsAlias) in
theorem linkDel_keeps (link : Link) (guarded : Guarded network) :
    Guarded (network.answer keepsAlias (.linkDel link)).2 := by
  simp only [Network.answer]
  split
  · rename_i there _
    have router := network.removePair_router there
    refine guarded.of_links (by rw [router]) fun other member _ => ?_
    rw [router] at member
    exact (List.mem_filter.mp member).1
  · exact guarded

end Calls

namespace Attachment

variable (attachment : Attachment) {keepsAlias : Bool}
  {refusable : Op → Prop} {network : Network}

theorem checkGateway_uses :
    attachment.checkGateway.run.Uses Op.SparesRouter := by
  refine Task.uses_bind (uses_perform trivial) fun _ => ?_
  exact Task.uses_bind (uses_perform trivial) fun _ => uses_refuseIf

theorem setENISysctls_uses {allowed : Op → Prop}
    (fine : ∀ path value, allowed (.writeSysctl path value)) :
    attachment.setENISysctls.run.Uses allowed := by
  refine Task.uses_bind uses_refuseIf fun _ => ?_
  generalize Attachment.eniSysctls = settings
  induction settings with
  | nil => exact Task.uses_pure _
  | cons setting settings induction =>
      exact Task.uses_bind (uses_perform (fine _ _)) fun _ => induction

theorem findPeer_uses : attachment.findPeer.run.Uses Op.SparesRouter := by
  refine Task.uses_bind (Task.uses_attempt trivial) fun found => ?_
  match found with
  | .ok peer => exact Task.uses_pure peer
  | .error .notFound => exact uses_perform trivial
  | .error (.failed text) => exact Task.uses_throw _

theorem renamePeer_uses (peer : Link) :
    (attachment.renamePeer peer).run.Uses Op.SparesRouter := by
  unfold renamePeer
  split
  · exact Task.uses_bind (uses_perform trivial) fun _ => uses_perform trivial
  · exact Task.uses_pure peer

theorem configurePeer_uses (created : Bool) (router : Link) :
    (attachment.configurePeer created router).run.Uses Op.SparesRouter := by
  refine Task.uses_bind (uses_perform trivial) fun _ => ?_
  refine Task.uses_bind attachment.findPeer_uses fun peer => ?_
  refine Task.uses_bind uses_refuseIf fun _ => ?_
  refine Task.uses_bind uses_refuseIf fun _ => ?_
  refine Task.uses_bind (uses_perform trivial) fun _ => ?_
  refine Task.uses_bind (uses_perform trivial) fun _ => ?_
  refine Task.uses_bind (attachment.renamePeer_uses peer) fun peer => ?_
  refine Task.uses_bind (uses_orThrow _) fun mac => ?_
  refine Task.uses_bind (uses_perform trivial) fun _ => ?_
  refine Task.uses_bind (uses_perform trivial) fun _ => ?_
  exact Task.uses_bind (uses_perform trivial) fun _ => uses_perform trivial

theorem activatePeer_uses :
    attachment.activatePeer.run.Uses Op.SparesRouter := by
  refine Task.uses_bind (uses_perform trivial) fun _ => ?_
  refine Task.uses_bind (uses_perform trivial) fun peer => ?_
  refine Task.uses_bind (uses_perform trivial) fun _ => ?_
  refine Task.uses_bind (uses_perform trivial) fun _ => ?_
  exact uses_perform trivial

/-- A link that was created is down when it is first looked up. -/
theorem create_safe (guarded : Guarded network) :
    (guarding keepsAlias refusable).Safe
      (fun result now => ∀ link, result = .ok link → DownAt link.index now)
      attachment.create.run network := by
  unfold create
  refine spared_bind (uses_perform trivial) guarded nofun fun held => ?_
  refine spared_bind (Task.uses_attempt trivial) held nofun
    fun {found _} held => ?_
  match found with
  | .ok _ => exact Task.safe_throw nofun
  | .error (.failed _) => exact Task.safe_throw nofun
  | .error .notFound =>
      refine Task.safe_bind linkAdd_safe held (fun _ _ => nofun) ?_
      rintro ⟨⟩ now held down
      refine safe_linkByName.mono held ?_
      rintro result later _ ⟨rfl, found, -⟩ link rfl
      obtain ⟨member, named⟩ := LinkTable.find_mem (found link rfl)
      intro other inside same
      rw [LinkTable.eq_of_index inside member same]
      exact down rfl link member named

theorem findOrCreate_safe (guarded : Guarded network) :
    (guarding keepsAlias refusable).Safe
      (fun result now => ∀ link, result = .ok (true, link) →
        DownAt link.index now)
      attachment.findOrCreate.run network := by
  unfold findOrCreate
  refine spared_bind (uses_perform trivial) guarded nofun fun held => ?_
  refine spared_bind attachment.checkGateway_uses held nofun fun held => ?_
  refine spared_bind (Task.uses_attempt trivial) held nofun
    fun {found _} held => ?_
  match found with
  | .error (.failed _) => exact Task.safe_throw nofun
  | .ok router =>
      refine spared_bind uses_refuseIf held nofun fun held => ?_
      exact Task.safe_pure nofun
  | .error .notFound =>
      refine Task.safe_bind (attachment.create_safe held) held
        (fun _ _ => nofun) ?_
      intro router now held down
      refine Task.safe_pure ?_
      rintro link ⟨⟩
      exact down router rfl

theorem findMarked_uses :
    attachment.findMarked.Uses Op.SparesRouter := by
  refine ⟨trivial, fun found => ?_⟩
  cases found with
  | error error => trivial
  | ok link =>
      change Program.Uses Op.SparesRouter (if _ then _ else _)
      split <;> trivial

/-- The link that is marked is down. -/
theorem mark_safe {router : Link} (down : DownAt router.index network) :
    (guarding keepsAlias refusable).Keeps (attachment.mark router) network := by
  refine Machine.safe_call (fun guarded => ?_) (fun _ _ => trivial)
  rcases answer : network.answer keepsAlias
    (.linkSetAlias .router router attachment.marker) with ⟨result, after⟩
  have same : (machine keepsAlias).answer network
      (.linkSetAlias .router router attachment.marker) = (result, after) :=
    answer
  rw [same]
  cases result with
  | error error =>
      obtain rfl := Network.answer_error answer
      exact ⟨guarded, trivial⟩
  | ok value =>
      obtain rfl := Network.answer_linkSetAlias answer
      refine ⟨guarded.of_links rfl fun link member up => ?_,
        safe_spared attachment.findMarked_uses⟩
      obtain ⟨old, inside, rfl⟩ := LinkTable.mem_setAlias member
      split at up
      · rename_i marked
        exact absurd (down old inside marked) (by simpa using up)
      · rename_i other
        rw [if_neg other]
        exact inside

theorem activate_safe (created : Bool) (router : Link)
    (guarded : Guarded network) :
    (guarding keepsAlias refusable).Keeps
      (attachment.activate created router).run network := by
  unfold activate
  refine Task.safe_bind linkSetDown_safe guarded (fun _ _ => trivial) ?_
  intro _ now held _
  refine spared_bind (attachment.setENISysctls_uses fun _ _ => trivial) held
    trivial fun held => ?_
  refine spared_bind (uses_perform trivial) held trivial fun {nsID _} held => ?_
  refine spared_bind uses_refuseIf held trivial fun held => ?_
  refine spared_bind (attachment.configurePeer_uses created router) held trivial
    fun held => ?_
  refine Task.safe_bind (applyENISourceChecks_safe held) held
    (fun _ _ => trivial) ?_
  rintro ⟨⟩ now held covered
  refine Task.safe_bind (safe_spares Covered.depends
    attachment.activatePeer_uses (covered rfl)) held (fun _ _ => trivial) ?_
  intro _ now held covered
  refine Task.safe_bind (linkSetUp_safe covered) held (fun _ _ => trivial) ?_
  intro _ now held _
  exact safe_spared (uses_perform trivial)

theorem cleanUp_safe (created : Bool) (router : Option Link)
    (text : String) :
    (guarding keepsAlias refusable).Keeps (cleanUp created router text)
      network := by
  match created, router with
  | true, some link =>
      exact Machine.safe_call
        (fun guarded => ⟨linkDel_keeps keepsAlias link guarded, trivial⟩)
        (fun _ _ => trivial)
  | true, none => trivial
  | false, _ => trivial

theorem ensure_safe (guarded : Guarded network) :
    (guarding keepsAlias refusable).Keeps attachment.ensure network := by
  unfold ensure
  refine (attachment.findOrCreate_safe guarded).bind guarded ?_
  intro found now held down
  match found with
  | .error text => trivial
  | .ok (true, router) =>
      refine (attachment.mark_safe (down router rfl)).bind held ?_
      intro marked now held _
      match marked with
      | .error (text, router) => exact cleanUp_safe true router text
      | .ok router =>
          refine (attachment.activate_safe true router held).bind held ?_
          intro result now held _
          match result with
          | .ok () => trivial
          | .error text => exact cleanUp_safe true (some router) text
  | .ok (false, router) =>
      refine (attachment.activate_safe false router held).bind held ?_
      intro result now held _
      match result with
      | .ok () => trivial
      | .error text => exact cleanUp_safe false (some router) text

end Attachment

section Requests

variable {keepsAlias : Bool} {refusable : Op → Prop} {network : Network}

theorem detach_safe (eni : ENI) (name : String) (guarded : Guarded network) :
    (guarding keepsAlias refusable).Keeps (detach eni name).run network := by
  have apply : ∀ {now : Network}, Guarded now →
      (guarding keepsAlias refusable).Keeps applyENISourceChecks.run now :=
    fun held => (applyENISourceChecks_safe held).mono held fun _ _ => trivial
  unfold detach
  refine spared_bind (uses_perform trivial) guarded trivial fun held => ?_
  refine spared_bind (Task.uses_attempt trivial) held trivial
    fun {found _} held => ?_
  match found with
  | .error (.failed text) => exact Task.safe_throw trivial
  | .error .notFound => exact apply held
  | .ok link =>
      refine spared_bind (uses_orThrow _) held trivial fun {record _} held => ?_
      refine spared_bind uses_refuseIf held trivial fun {_ now} held => ?_
      have deleted : (guarding keepsAlias refusable).Keeps
          (perform (.linkDel link) ("delete ENI " ++ name ++ ": ")).run
          now := by
        refine safe_perform (fun held answer => ?_) (fun _ _ => trivial)
        have kept := linkDel_keeps keepsAlias link held
        rw [answer] at kept
        exact ⟨kept, trivial⟩
      refine Task.safe_bind deleted held (fun _ _ => trivial) ?_
      intro _ now held _
      exact apply held

theorem deleteENI_safe (vpc : VPC) (eni : ENI) (guarded : Guarded network) :
    (guarding keepsAlias refusable).Keeps (deleteENI vpc eni).run network := by
  unfold deleteENI
  refine spared_bind (uses_orThrow _) guarded trivial fun {name _} held => ?_
  split
  · exact Task.safe_throw trivial
  · exact detach_safe eni name held

theorem ensureENI_safe (vpc : VPC) (subnet : Subnet) (eni : ENI)
    (inode : Nat) (guarded : Guarded network) :
    (guarding keepsAlias refusable).Keeps (ensureENI vpc subnet eni inode)
      network := by
  unfold ensureENI
  split
  · trivial
  · rename_i attachment _
    exact attachment.ensure_safe guarded

end Requests

/-- A call of the engine for one VPC. -/
inductive Request where
  | ensure (vpc : VPC) (subnet : Subnet) (eni : ENI) (inode : Nat)
  | delete (vpc : VPC) (eni : ENI)

/-- The calls one after the other, as the lock of the engine makes them. -/
def serve : List Request → Program Op Op.Result Unit
  | [] => return ()
  | .ensure vpc subnet eni inode :: requests => do
      let _ ← ensureENI vpc subnet eni inode
      serve requests
  | .delete vpc eni :: requests => do
      let _ ← (deleteENI vpc eni).run
      serve requests

theorem serve_safe {keepsAlias : Bool} {refusable : Op → Prop}
    {network : Network} (requests : List Request)
    (guarded : Guarded network) :
    (guarding keepsAlias refusable).Keeps (serve requests) network := by
  induction requests generalizing network with
  | nil => trivial
  | cons request requests induction =>
      cases request with
      | ensure vpc subnet eni inode =>
          exact (ensureENI_safe vpc subnet eni inode guarded).bind guarded
            fun held _ => induction held
      | delete vpc eni =>
          exact (deleteENI_safe vpc eni guarded).bind guarded
            fun held _ => induction held

/-- At every moment of every sequence of calls, whichever of them fail at
whatever step, each link of an interface that is up is protected. -/
theorem anti_spoof_before_activation (keepsAlias : Bool) (network : Network)
    (guarded : Guarded network) (requests : List Request)
    (refused : Nat → Op → Bool) :
    let run := (machine keepsAlias).run refused 0 (serve requests) network
    ∀ now, now = network ∨ (∃ event ∈ run.events, now = event.after) →
      ∀ link ∈ now.router.links.links, link.IsENI → link.up = true →
        ∃ policy, now.router.table = some policy ∧ Protects policy link := by
  intro run now moment
  obtain ⟨moments, -, -⟩ := Machine.run_keeps
    (fun _ _ _ => trivial : ∀ call op, refused call op = true →
      (fun _ => True) op) (serve_safe requests guarded) guarded 0
  rcases moment with rfl | ⟨event, member, rfl⟩
  · exact guarded
  · exact moments event member

/-- A converged router with one subnet, and an instance without links of its
own. -/
def openNetwork : Network :=
  { router :=
      { links := (staleNetwork []).router.links
        addresses := [gatewayAddress (.v4 0x0a000101#32)]
        rules := [], table := none }
    known := []
    instances := fun _ =>
      { links := [{ index := 1, name := "lo", kind := "device", marker := ""
                    up := false, parentIndex := 0, netNsID := -1 }]
        indexes := by decide
        names := by decide } }

def plainSubnet : Subnet :=
  { id := "subnet-1", workspaceID := "ws-1", vpcID := "vpc-1"
    name := "plain", cidrBlock := Prefix.ofAddr (.v4 0x0a000100#32) 24
    availabilityZone := "", shortIndex := 2, state := .available
    stateReason := "", deletionRequested := false, generation := 1
    observedGeneration := 1 }

def plainENI : ENI :=
  { id := "eni-00000000000000001", workspaceID := "ws-1"
    instanceID := "i-1", subnetID := "subnet-1", shortIndex := 1
    privateIP := .v4 0x0a000104#32, macAddress := "02:00:00:00:00:01"
    generation := 1, observedGeneration := 0, state := .pending
    stateReason := "" }

theorem openNetwork_protected :
    let run := (machine false).run (fun _ _ => false) 0
      (serve [.ensure plainVPC plainSubnet plainENI 4026532000]) openNetwork
    ∃ event ∈ run.events, ∃ link ∈ event.after.router.links.links,
      link.IsENI ∧ link.up = true ∧ ∃ policy,
        event.after.router.table = some policy ∧ Protects policy link := by
  intro run
  have guarded : Guarded openNetwork := by
    intro link member isENI
    obtain rfl := List.mem_singleton.mp member
    exact absurd isENI (by decide)
  have raised : ∃ event ∈ run.events,
      ∃ link ∈ event.after.router.links.links,
        link.IsENI ∧ link.up = true := by
    decide +kernel
  obtain ⟨event, member, link, inside, isENI, up⟩ := raised
  exact ⟨event, member, link, inside, isENI, up,
    anti_spoof_before_activation false openNetwork guarded _ _ event.after
      (.inr ⟨event, member, rfl⟩) link inside isENI up⟩

end Nephos
