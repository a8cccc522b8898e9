import Nephos.Compute.Ownership

/-!
# The daemon beside other containers

Passes of the controllers, handlers of the hook and consoles run side by side
over the client, in any number, while others make, start, stop and remove
containers.  A sweep of the instances is passes, one after the other.
-/

namespace Nephos

open Effects Transaction

namespace Podman

/-- A thread, and the instance that it works for, if any. -/
structure Thread where
  owner : ID
  program : Agent Unit

structure Site where
  scene : Scene
  threads : List Thread

inductive SiteTurn where
  | daemon (choice : Choice)
  | request (turn : Turn)

inductive SiteLabel where
  | serve (write : Write)
  | reconcileInstance (id : ID)
  | reconcileVPC (id : ID)
  | sweepVPCs (pages : Nat)
  | plumb (request : PlumbRequest)
  | console (id : ID) (request : Console.ExecRequest)
  | advance (index : Nat) (turn : SiteTurn)
  | crash
  | appear (doc : ContainerInspect)
  | vanish (id : RuntimeID)
  | switch (id : RuntimeID) (running : Bool)

def Scene.exec (scene : Scene) :
    (op : SiteOp) → SiteTurn → Option (op.Result × Scene)
  | .daemon op, .daemon choice =>
      (scene.world.exec op choice).map fun outcome =>
        (outcome.1, { scene with world := outcome.2 })
  | .request sent, .request turn =>
      (scene.engine.exec sent turn).map fun outcome =>
        (outcome.1, { scene with engine := outcome.2 })
  | _, _ => none

def Scene.advance (scene : Scene) (program : Agent Unit) (turn : SiteTurn) :
    Option (Option (Agent Unit) × Scene) :=
  match program with
  | .done _ => some (none, scene)
  | .call op next =>
      (scene.exec op turn).map fun outcome =>
        (some (next outcome.1), outcome.2)

/-- A thread whose result nobody waits for. -/
def thread {α : Type} (owner : ID) (program : Agent α) : Thread :=
  ⟨owner, program >>= fun _ => .done ()⟩

namespace Site

variable (site : Site)

def begin (added : Thread) : Site :=
  { site with threads := site.threads ++ [added] }

def step : SiteLabel → Option Site
  | .serve write =>
      (write.request site.scene.world.store).map
        fun (controller, store, hints) =>
          { site with scene := { site.scene with
              world := hints.foldl (·.enqueue controller ·)
                { site.scene.world with store } } }
  | .reconcileInstance id => some (site.begin (thread id
      ((InstanceController.reconcileLocked id).lower carryOut)))
  | .reconcileVPC id => some (site.begin (thread ""
      ((VPCController.reconcileLocked id).lower carryOut)))
  | .sweepVPCs pages => some (site.begin (thread ""
      ((VPCController.sweep pages).lower carryOut)))
  | .plumb request => some (site.begin (thread ""
      ((Nephos.plumb request).lower carryOut)))
  | .console id request =>
      some (site.begin (thread id (openConsole id request)))
  | .advance index turn =>
      match site.threads[index]? with
      | none => none
      | some running =>
          (site.scene.advance running.program turn).map fun outcome =>
            { scene := outcome.2
              threads := site.threads.take index ++
                (outcome.1.map fun program => ⟨running.owner, program⟩).toList
                  ++ site.threads.drop (index + 1) }
  | .crash => some
      { scene := { site.scene with world := site.scene.world.restarted }
        threads := [] }
  | .appear doc =>
      (site.scene.engine.add doc).map fun engine =>
        { site with scene := { site.scene with engine } }
  | .vanish id => some { site with scene := { site.scene with
      engine := site.scene.engine.remove id } }
  | .switch id running => some { site with scene := { site.scene with
      engine := site.scene.engine.setRunning id running } }

end Site

/-- At first the database is empty, and there are any containers. -/
def siteSystem : Transition.System Site SiteLabel where
  Initial site := site.scene.world.store = .empty ∧
    site.scene.engine.Formed ∧ site.threads = []
  Step site label next := site.step label = some next

/-- How the thread refers to the container that it is about to change or to
enter. -/
def Thread.target (running : Thread) : Option String :=
  running.program.outstanding.bind SiteOp.target

theorem Scene.exec_behaves {scene after : Scene} {op : SiteOp}
    {result : op.Result} {turn : SiteTurn}
    (ran : scene.exec op turn = some (result, after)) :
    scene.Behaves op result after := by
  cases op with
  | daemon op =>
      cases turn with
      | daemon choice =>
          obtain ⟨⟨value, world⟩, executed, same⟩ :=
            Option.map_eq_some_iff.mp ran
          cases same
          exact ⟨⟨choice, executed⟩, rfl⟩
      | request => cases ran
  | request sent =>
      cases turn with
      | daemon => cases ran
      | request turn =>
          obtain ⟨⟨value, engine⟩, executed, same⟩ :=
            Option.map_eq_some_iff.mp ran
          cases same
          exact ⟨⟨turn, executed⟩, rfl⟩

def Thread.Safe (running : Thread) (scene : Scene) : Prop :=
  (siteContract running.owner).Keeps running.program scene

section Threads

variable {scene : Scene} {α : Type}

theorem thread_safe {owner : ID} {program : Agent α} (linked : scene.Linked)
    (safe : (siteContract owner).Keeps program scene) :
    (thread owner program).Safe scene :=
  safe.bind linked fun _ _ => trivial

theorem lowered_safe {owner : ID} {program : Call α} (linked : scene.Linked)
    (safe : (runtimeContract owner).Keeps program scene) :
    (thread owner (program.lower carryOut)).Safe scene :=
  thread_safe linked (safe.lower (client_carries owner) linked)

theorem Ordinary.of_vpc {op : Op} (ofVPC : op.OfVPC) : Ordinary op := by
  cases op with
  | recordRuntimeID | retainTerminatingRuntimeID => exact ofVPC.elim
  | answer call => cases call <;> first | exact ofVPC.elim | trivial
  | _ => trivial

theorem Ordinary.of_plumb {op : Op} (ofPlumb : op.OfPlumb) : Ordinary op := by
  cases op with
  | recordRuntimeID | retainTerminatingRuntimeID => exact ofPlumb.elim
  | answer call => cases call <;> first | exact ofPlumb.elim | trivial
  | _ => trivial

theorem safe_look {owner id : ID} {post : α → Scene → Prop}
    {rest : Except Failure Instance → Agent α}
    (continues : ∀ {result} {after : Scene}, after.Linked →
      (∀ inst, result = .ok inst → inst.runtimeID ≠ "" →
        after.engine.Owns inst.runtimeID id) →
      (siteContract owner).Safe post (rest result) after) :
    (siteContract owner).Safe post (ask (.getInstance id) >>= rest)
      scene := by
  intro later linked _
  refine ⟨nofun, ?_⟩
  rintro result after ⟨behaves, engine⟩
  obtain ⟨rfl, sameWorld⟩ := behaves.getInstance
  have kept : after.Linked := by
    refine linked.engine (engine ▸ linked.formed) ?_ sameWorld
    rw [Scene.Grows, engine]
    exact fun _ made => made
  refine ⟨kept, continues kept ?_⟩
  intro inst found
  rw [← sameWorld] at found
  exact (kept.looked found).2

/-- A console enters the container that is recorded for its instance. -/
theorem openConsole_safe (id : ID) (request : Console.ExecRequest) :
    (siteContract id).Keeps (openConsole id request)
      scene := by
  unfold openConsole
  refine safe_look fun {result first} _ _ => ?_
  split
  · trivial
  · split
    · trivial
    · refine safe_look fun {result second} linked owns => ?_
      split
      · trivial
      · rename_i inst
        split
        · trivial
        · rename_i ready
          have named : inst.runtimeID ≠ "" := by
            simp only [Instance.consoleReady, Bool.not_eq_true',
              Bool.not_eq_false, Bool.and_eq_true, bne_iff_ne] at ready
            exact ready.2
          have enters := @exec_safe second second id inst.runtimeID request
            (fun _ made => made) linked (owns inst rfl named)
          exact (texts_safe linked enters).mono linked fun _ _ => trivial

end Threads

structure Site.Safe (site : Site) : Prop where
  linked : site.scene.Linked
  threads : ∀ running ∈ site.threads, running.Safe site.scene

section Steps

variable {site next : Site}

/-- The others go on when no container is forgotten. -/
theorem Site.Safe.others (safe : site.Safe) {scene : Scene}
    (grows : site.scene.Grows scene) :
    ∀ running ∈ site.threads, running.Safe scene :=
  fun running member => (safe.threads running member).persist
    fun _ _ => grows

theorem Site.Safe.begin (safe : site.Safe) {added : Thread}
    (fresh : added.Safe site.scene) : (site.begin added).Safe := by
  refine ⟨safe.linked, ?_⟩
  intro running member
  rcases List.mem_append.mp member with old | new
  · exact safe.threads running old
  · cases List.mem_singleton.mp new
    exact fresh

/-- What happens outside the threads. -/
theorem Site.Safe.aside (safe : site.Safe) {scene : Scene}
    (linked : scene.Linked) (grows : site.scene.Grows scene) :
    Site.Safe { site with scene } :=
  ⟨linked, safe.others grows⟩

theorem Site.Safe.advance (safe : site.Safe) {index : Nat}
    {running : Thread} {turn : SiteTurn} {left : Option (Agent Unit)}
    {scene : Scene} (here : site.threads[index]? = some running)
    (advanced : site.scene.advance running.program turn =
      some (left, scene)) :
    Site.Safe
      { scene
        threads := site.threads.take index ++
          (left.map fun program => Thread.mk running.owner program).toList ++
            site.threads.drop (index + 1) } := by
  have member : running ∈ site.threads := List.mem_of_getElem? here
  have mine := safe.threads running member
  obtain ⟨owner, program⟩ := running
  have after : scene.Linked ∧ site.scene.Grows scene ∧
      ∀ rest ∈ left, Thread.Safe ⟨owner, rest⟩ scene := by
    cases program with
    | done value =>
        cases advanced
        exact ⟨safe.linked, fun _ made => made, nofun⟩
    | call op onward =>
        obtain ⟨⟨result, final⟩, ran, same⟩ :=
          Option.map_eq_some_iff.mp advanced
        cases same
        have behaves := Scene.exec_behaves ran
        obtain ⟨linked, rest⟩ := mine.complete safe.linked behaves
        refine ⟨linked, ?_, ?_⟩
        · cases op with
          | daemon op =>
              rw [Scene.Grows, behaves.2]
              exact fun _ made => made
          | request sent => exact (behaves.1.formed safe.linked.formed).2
        · rintro _ ⟨⟩
          exact rest
  obtain ⟨linked, grows, rest⟩ := after
  refine ⟨linked, ?_⟩
  intro other inside
  rcases List.mem_append.mp inside with front | back
  · rcases List.mem_append.mp front with before | changed
    · exact safe.others grows other (List.mem_of_mem_take before)
    · obtain ⟨program, isRest, rfl⟩ :=
        Option.map_eq_some_iff.mp (Option.mem_toList.mp changed)
      exact rest program isRest
  · exact safe.others grows other (List.mem_of_mem_drop back)

theorem Site.Safe.step (safe : site.Safe) {label : SiteLabel}
    (stepped : site.step label = some next) : next.Safe := by
  have linked := safe.linked
  have same : site.scene.Grows site.scene := fun _ made => made
  cases label with
  | serve write =>
      obtain ⟨⟨controller, store, hints⟩, served, rfl⟩ :=
        Option.map_eq_some_iff.mp stepped
      obtain ⟨rfl, foreign, -⟩ := Write.request_eq served
      refine safe.aside ?_ fun _ made => made
      refine linked.write (.inr ⟨write, foreign, ?_⟩) rfl ?_
      · dsimp only
        rw [World.foldl_enqueue, World.onQueue_store]
      intro write foreign owner id bound
      cases write <;> first | exact foreign.elim | cases bound
  | reconcileInstance id =>
      cases stepped
      exact safe.begin (lowered_safe linked (reconcileLocked_owned id))
  | reconcileVPC id =>
      cases stepped
      exact safe.begin (lowered_safe linked (ordinary_safe
        ((VPCController.reconcileLocked_uses id).mono fun _ pass =>
          Ordinary.of_vpc pass.ofVPC)))
  | sweepVPCs pages =>
      cases stepped
      exact safe.begin (lowered_safe linked (ordinary_safe
        ((VPCController.sweep_uses pages).mono fun _ => Ordinary.of_vpc)))
  | plumb request =>
      cases stepped
      exact safe.begin (lowered_safe linked (ordinary_safe
        ((plumb_uses request).mono fun _ => Ordinary.of_plumb)))
  | console id request =>
      cases stepped
      exact safe.begin (thread_safe linked (openConsole_safe id request))
  | advance index turn =>
      simp only [Site.step] at stepped
      split at stepped
      · cases stepped
      · rename_i running here
        obtain ⟨⟨left, scene⟩, advanced, rfl⟩ :=
          Option.map_eq_some_iff.mp stepped
        exact safe.advance here advanced
  | crash =>
      cases stepped
      exact ⟨⟨linked.sound, linked.formed, linked.recorded⟩, nofun⟩
  | appear doc =>
      obtain ⟨engine, added, rfl⟩ := Option.map_eq_some_iff.mp stepped
      obtain ⟨formed, grows⟩ := Engine.add_formed linked.formed added
      exact safe.aside (linked.engine formed grows rfl) grows
  | vanish id =>
      cases stepped
      exact safe.aside (linked.engine (Engine.remove_formed linked.formed)
        (fun _ made => made) rfl) fun _ made => made
  | switch id running =>
      cases stepped
      exact safe.aside (linked.engine
        (Engine.setRunning_formed linked.formed running)
        (fun _ made => made) rfl) fun _ made => made

theorem site_safe (reachable : siteSystem.Reachable site) : site.Safe := by
  refine reachable.invariant Site.Safe ?_ ?_
  · rintro site ⟨store, formed, none⟩
    refine ⟨⟨?_, formed, ?_⟩, ?_⟩
    · rw [store]
      exact ⟨.empty, .empty⟩
    · rw [store]
      exact nofun
    · rw [none]
      exact nofun
  · exact fun safe stepped => safe.step stepped

end Steps

/-- Whatever others do, a thread that works for an instance refers to a
container that was made for the instance when it starts, removes or enters
one.  What its request reaches is a container of the instance exactly if no
container has the identity for its name.  No two instances have the same
runtime identity. -/
theorem own_containers_only {site : Site}
    (reachable : siteSystem.Reachable site) :
    (∀ running ∈ site.threads, ∀ id, running.target = some id →
      site.scene.engine.Owns id running.owner ∧
        ((∀ doc ∈ site.scene.engine.containers, doc.Answers id →
            doc.BelongsTo running.owner) ↔
          ∀ doc ∈ site.scene.engine.containers, doc.name ≠ id)) ∧
    ∀ row ∈ site.scene.world.store.instances,
      ∀ other ∈ site.scene.world.store.instances, ∀ id,
        row.runtimeID = some id → other.runtimeID = some id →
          row = other := by
  obtain ⟨linked, threads⟩ := site_safe reachable
  refine ⟨?_, ?_⟩
  · rintro ⟨owner, program⟩ member id isTarget
    obtain ⟨op, waits, target⟩ := Option.bind_eq_some_iff.mp isTarget
    have owns : site.scene.engine.Owns id owner := by
      have safe := threads _ member
      cases program with
      | done value => cases waits
      | call other next =>
          cases waits
          exact safe.ready linked id target
    exact ⟨owns, owns.reaches_iff linked.formed⟩
  · intro row member other otherMember id stored otherStored
    have sameID := (linked.recorded row member id stored).unique
      linked.formed (linked.recorded other otherMember id otherStored)
    exact linked.sound.keyed.instances.unique.eq_of_mem member otherMember
      sameID

/-- An engine with a container of somebody else. -/
def foreignEngine : Engine :=
  let doc : ContainerInspect :=
    { id := String.ofList (List.replicate 64 'a'), name := "other"
      labels := [(managedLabel, "true")], annotations := [], running := false }
  ⟨[doc], [doc]⟩

theorem foreignEngine_formed : foreignEngine.Formed := by
  refine ⟨?_, List.nodup_singleton _⟩
  intro doc inside
  cases List.mem_singleton.mp inside
  exact List.mem_singleton_self _

def firstSite : Site where
  scene := ⟨(Daemon.initial []).world, foreignEngine⟩
  threads := []

theorem firstSite_reachable {labels : List SiteLabel} {site : Site}
    (ran : labels.foldlM Site.step firstSite = some site) :
    siteSystem.Reachable site :=
  ⟨firstSite, labels, ⟨rfl, foreignEngine_formed, rfl⟩,
    .of_steps (fun stepped => stepped) ran⟩

def firstContainer : RuntimeID := String.ofList (List.replicate 64 'c')

/-- The first instance is launched, up to the start of its container. -/
def firstLaunch : List SiteLabel :=
  let plain : SiteLabel := .advance 0 (.daemon .plain)
  let reply (turn : Turn) : SiteLabel := .advance 0 (.request turn)
  firstRequests.map .serve ++
    [ .reconcileVPC "vpc-01010101010101010", plain, plain,
      .advance 0 (.daemon (.gateways [.v4 0x0a000101#32])),
      .advance 0 (.daemon .succeeds), plain, .advance 0 (.daemon (.clock 1)),
      plain, plain, .reconcileInstance "i-03030303030303030", plain, plain,
      .advance 0 (.daemon .succeeds), plain, plain, reply .done,
      reply (.fails none ⟨some 404, "no such container"⟩),
      reply (.reached firstContainer), plain, plain,
      reply (.found
        { id := firstContainer, name := "i-03030303030303030"
          labels := [(managedLabel, "true"),
            (instanceLabel, "i-03030303030303030"),
            (workspaceLabel, "default")]
          annotations := [(instanceLabel, "i-03030303030303030")]
          running := false }) ]

theorem firstLaunch_own_container : ∃ site running,
    siteSystem.Reachable site ∧ running ∈ site.threads ∧
      running.target = some firstContainer ∧
      site.scene.engine.containers.length = 2 ∧
      site.scene.engine.Resolves firstContainer firstContainer ∧
      ∀ doc ∈ site.scene.engine.containers, doc.Answers firstContainer →
        doc.BelongsTo running.owner := by
  have runs : (firstLaunch.foldlM Site.step firstSite).any (fun site =>
      decide (site.scene.engine.containers.length = 2 ∧
        site.scene.engine.Resolves firstContainer firstContainer ∧
        ∀ doc ∈ site.scene.engine.containers, doc.name ≠ firstContainer) &&
      site.threads.any fun running =>
        running.target == some firstContainer) = true := by
    decide +kernel
  obtain ⟨site, ran, checked⟩ := (Option.any_eq_true _ _).mp runs
  rw [Bool.and_eq_true, decide_eq_true_iff] at checked
  obtain ⟨⟨both, present, plain⟩, others⟩ := checked
  obtain ⟨running, member, isTarget⟩ := List.any_eq_true.mp others
  rw [beq_iff_eq] at isTarget
  have reachable := firstSite_reachable ran
  exact ⟨site, running, reachable, member, isTarget, both, present,
    ((own_containers_only reachable).1 running member _ isTarget).2.mpr plain⟩

/-- A container of somebody else, with the identity of the first container
for its name. -/
def namesake : ContainerInspect :=
  { id := String.ofList (List.replicate 64 'b'), name := firstContainer
    labels := [], annotations := [], running := false }

/-- Between the check of the first container and its start, the container goes
and another one takes its identity for a name. -/
def renamedLaunch : List SiteLabel :=
  firstLaunch ++ [.vanish firstContainer, .appear namesake]

/-- The start reaches the container of somebody else. -/
theorem namesake_started : ∃ site running next,
    siteSystem.Reachable site ∧ running ∈ site.threads ∧
      running.owner = "i-03030303030303030" ∧
      running.target = some firstContainer ∧
      namesake ∈ site.scene.engine.containers ∧
      namesake.Answers firstContainer ∧
      ¬ namesake.BelongsTo running.owner ∧
      site.step (.advance 0 (.request (.reached namesake.id))) = some next ∧
      ∃ doc ∈ next.scene.engine.containers,
        doc.id = namesake.id ∧ doc.running = true := by
  have runs : (renamedLaunch.foldlM Site.step firstSite).any (fun site =>
        decide (namesake ∈ site.scene.engine.containers) &&
        ((site.threads.any fun running => decide
          (running.owner = "i-03030303030303030" ∧
            running.target = some firstContainer)) &&
        (site.step (.advance 0 (.request (.reached namesake.id)))).any
          fun next => decide (∃ doc ∈ next.scene.engine.containers,
            doc.id = namesake.id ∧ doc.running = true))) = true := by
    decide +kernel
  obtain ⟨site, ran, checked⟩ := (Option.any_eq_true _ _).mp runs
  rw [Bool.and_eq_true, Bool.and_eq_true, decide_eq_true_iff] at checked
  obtain ⟨present, waiting, stepped⟩ := checked
  obtain ⟨running, member, works⟩ := List.any_eq_true.mp waiting
  obtain ⟨next, step, started⟩ := (Option.any_eq_true _ _).mp stepped
  obtain ⟨owner, isTarget⟩ := of_decide_eq_true works
  refine ⟨site, running, next, firstSite_reachable ran, member, owner,
    isTarget, present, .inr rfl, ?_, step, of_decide_eq_true started⟩
  exact fun belongs => absurd belongs.managed (by decide)

end Podman

end Nephos
