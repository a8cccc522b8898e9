import Nephos.Reconcile.Moves

/-!
# Draining the queue of instances

The instance controller reconciles the pending instances until none is left.
A pass that finds its snapshot stale puts the instance back at once, which
ends when the requests end.  The exception is an instance whose recorded
container is gone: each pass makes a new container, cannot record it, deletes
it and puts the instance back.
-/

namespace Nephos

open Effects Transaction

theorem World.Behaves.pending {world after : World} {op : Op}
    {result : op.Result} (behaves : world.Behaves op result after)
    (quiet : ∀ id, op ≠ .enqueue .inst id) :
    after.instanceQueue.pending = world.instanceQueue.pending := by
  cases op with
  | act call => rw [behaves.act_frame.2]
  | answer call => rw [behaves.answer.1]
  | enqueue controller id =>
      cases controller with
      | vpc =>
          rw [behaves.enqueue]
          rfl
      | inst => exact absurd rfl (quiet id)
  | retry controller id =>
      obtain ⟨choice, run⟩ := behaves
      cases choice <;> cases run
      cases controller with
      | vpc => rfl
      | inst => exact Queue.retry_pending
  | clearRetry controller id =>
      obtain ⟨choice, run⟩ := behaves
      cases choice <;> cases run
      cases controller <;> rfl
  | _ =>
      obtain ⟨choice, run⟩ := behaves
      cases choice <;> cases run <;> rfl

/-- An instance has at most one container. -/
structure World.Housed (world : World) : Prop where
  nonempty : ∀ name ∈ world.names, name.1 ≠ ""
  single : ∀ name ∈ world.names, ∀ other ∈ world.names,
    name.2 = other.2 → name.1 = other.1

namespace World.Housed

variable {world after : World}

theorem fewer (housed : world.Housed)
    (names : ∀ name ∈ after.names, name ∈ world.names) : after.Housed where
  nonempty name member := housed.nonempty name (names name member)
  single name member other otherMember :=
    housed.single name (names name member) other (names other otherMember)

theorem addContainer (housed : world.Housed) {instanceID : ID}
    {id : RuntimeID} (added : world.addContainer instanceID id = some after) :
    after.Housed := by
  obtain ⟨nonempty, -, unnamed, rfl⟩ := addContainer_some added
  have gone : ∀ name ∈ world.names, name.2 ≠ instanceID := by
    intro name member
    obtain ⟨container, inside, rfl⟩ := List.mem_map.mp member
    exact unnamed container inside
  have names : World.names { world with
      containers := world.containers ++ [⟨id, instanceID, false⟩]
      created := world.created ++ [(id, instanceID)] } =
        world.names ++ [(id, instanceID)] := by
    simp [World.names]
  constructor
  · rw [names]
    exact forall_append housed.nonempty nonempty
  · rw [names]
    refine forall_append (fun name member => ?_) ?_
    · exact forall_append (housed.single name member)
        fun same => absurd same (gone name member)
    · exact forall_append
        (fun other member same => absurd same.symm (gone other member))
        fun _ => rfl

end World.Housed

theorem World.filter_names (world : World) (id : RuntimeID) :
    ∀ name ∈ World.names { world with
      containers := world.containers.filter (·.id ≠ id) },
        name ∈ world.names := by
  intro name member
  obtain ⟨container, inside, rfl⟩ := List.mem_map.mp member
  exact List.mem_map.mpr ⟨container, (List.mem_filter.mp inside).1, rfl⟩

theorem World.Behaves.housed {world after : World} {op : Op}
    {result : op.Result} (behaves : world.Behaves op result after)
    (housed : world.Housed) : after.Housed := by
  have same (names : after.names = world.names) : after.Housed :=
    housed.fewer fun _ member => names ▸ member
  rcases behaves.store_or_surroundings.2 with ⟨call, rfl⟩ | unchanged
  · cases call with
    | ready | ensureImage | inspect | listVPCNames | openInstance =>
        exact same (by rw [behaves.idle trivial])
    | create =>
        rcases behaves.create with rfl | ⟨id, added⟩
        · exact housed
        · exact housed.addContainer added
    | start id =>
        rcases behaves.start with rfl | rfl
        · exact housed
        · exact same (names_running id true)
    | delete id =>
        rcases behaves.delete with rfl | rfl
        · exact housed
        · exact housed.fewer (world.filter_names id)
    | ensureVPC =>
        rcases behaves.ensureVPC with rfl | ⟨_, _, _, -, -, rfl⟩ <;>
          exact same rfl
    | deleteVPC =>
        obtain ⟨_, _, _, -, -, rfl⟩ := behaves.deleteVPC
        exact same rfl
    | deleteENI =>
        obtain ⟨_, -, rfl⟩ := behaves.deleteENI
        exact same rfl
    | ensureENI =>
        obtain ⟨_, -, rfl⟩ := behaves.ensureENI
        exact same rfl
  · exact same (by rw [names, names, unchanged.containers])

theorem World.Environment.housed {world after : World} {label : Label}
    (changes : world.Environment label after) (housed : world.Housed) :
    after.Housed := by
  by_cases vanishes : ∃ id, label = .vanish id
  · obtain ⟨id, rfl⟩ := vanishes
    cases changes
    exact housed.fewer (world.filter_names id)
  · have spares := changes.sparesInstances fun id same => vanishes ⟨id, same⟩
    exact housed.fewer fun _ member => spares.names ▸ member

theorem Daemon.Moves.housed {daemon next : Daemon} {label : Label}
    (moves : daemon.Moves label next) (housed : daemon.world.Housed) :
    next.world.Housed := by
  cases moves with
  | environment changes => exact changes.housed housed
  | beginInstance change => exact { housed with }
  | beginVPC change => exact { housed with }
  | instanceCall working hooked runs =>
      exact World.Behaves.housed ⟨_, runs⟩ housed
  | vpcCall working runs => exact World.Behaves.housed ⟨_, runs⟩ housed
  | plumbCall working runs => exact World.Behaves.housed ⟨_, runs⟩ housed
  | _ => exact { housed with }

theorem Daemon.formed_and_housed {daemon : Daemon}
    (reachable : system.Reachable daemon) :
    daemon.Formed ∧ daemon.world.Housed := by
  apply reachable.invariant fun daemon => daemon.Formed ∧ daemon.world.Housed
  · rintro daemon ⟨namespaces, -, rfl⟩
    refine ⟨.initial namespaces, fun _ member => ?_, fun _ member => ?_⟩ <;>
      cases member
  · rintro daemon label next ⟨formed, housed⟩ stepped
    have moves := Moves.of_step stepped
    exact ⟨formed.step moves, moves.housed housed⟩

/-- The instances with their interfaces are as they were, and so are the
containers. -/
structure World.Still (world later : World) : Prop where
  instances : later.store.instances = world.store.instances
  enis : later.store.enis = world.store.enis
  names : later.names = world.names

namespace World.Still

variable {world middle later : World}

theorem refl (world : World) : world.Still world :=
  ⟨rfl, rfl, rfl⟩

theorem trans (first : world.Still middle) (second : middle.Still later) :
    world.Still later :=
  ⟨second.instances.trans first.instances, second.enis.trans first.enis,
    second.names.trans first.names⟩

theorem onQueue (world : World) (controller : Controller)
    (change : Queue → Queue) :
    world.Still (world.onQueue controller change) := by
  cases controller <;> exact ⟨rfl, rfl, rfl⟩

theorem getInstance (still : world.Still later) (workspaceID id : ID) :
    later.store.getInstance workspaceID id =
      world.store.getInstance workspaceID id := by
  simp only [Store.getInstance, Store.instanceFromRow, Store.getPrimaryENI,
    still.instances, still.enis]

end World.Still

theorem Edit.Records.still {vpcID : ID} {edit : Edit} (store : Store)
    (records : edit.Records vpcID) :
    (edit.apply store).instances = store.instances ∧
      (edit.apply store).enis = store.enis := by
  cases edit <;> first | exact records.elim | exact ⟨rfl, rfl⟩

theorem edits_run_still {store final : Store} {labels : List Edit}
    {vpcID : ID} (run : edits.Run store labels final)
    (records : ∀ edit ∈ labels, edit.Records vpcID) :
    final.instances = store.instances ∧ final.enis = store.enis := by
  induction run with
  | nil => exact ⟨rfl, rfl⟩
  | @cons state _ _ _ _ step _ induction =>
      rw [List.forall_mem_cons] at records
      obtain ⟨instances, enis⟩ := records.1.still state
      have rest := induction records.2
      rw [step.2, instances, enis] at rest
      exact rest

theorem World.Behaves.still {world after : World} {op : Op}
    {result : op.Result} (behaves : world.Behaves op result after)
    (sound : world.store.Sound) (ofVPC : op.OfVPC) : world.Still after := by
  have names := (behaves.sparesInstances ofVPC).names
  rcases behaves.store_within with same | ⟨write, writes, same⟩
  · exact ⟨by rw [same], by rw [same], names⟩
  · cases op <;> try exact writes.elim
    case recordTopology =>
      obtain ⟨now, rfl⟩ := writes
      obtain ⟨labels, run, -, all⟩ :=
        Write.edited sound.keyed (.recordTopology _ _ _ now)
      obtain ⟨instances, enis⟩ := edits_run_still run all
      exact ⟨same ▸ instances, same ▸ enis, names⟩
    all_goals exact ofVPC.elim

/-- When a pass finds a wanted instance with a recorded container, the
runtime has the container. -/
def World.Retains (world : World) : Op → Prop
  | .getInstance id => ∀ row ∈ world.store.instances, row.id = id →
      row.deletionRequested = false → ∀ runtimeID ∈ row.runtimeID,
        (runtimeID, id) ∈ world.names
  | _ => True

instance (world : World) : (op : Op) → Decidable (world.Retains op)
  | .getInstance _ =>
      inferInstanceAs (Decidable (∀ row ∈ world.store.instances, _))
  | .getSubnet .. | .getVPC .. | .listSubnetsByVPC .. | .listVPCPage ..
  | .listInstancePage .. | .loadPlumbing .. | .recordTopology ..
  | .recordRuntimeID .. | .retainTerminatingRuntimeID .. | .recordInstance ..
  | .finishInstanceTermination .. | .contextErr | .act .. | .answer ..
  | .enqueue .. | .retry .. | .clearRetry .. => inferInstanceAs (Decidable True)

def drainContract : Contract Op Op.Result World where
  invariant world := world.store.Sound ∧ world.Housed
  change _ := World.Still
  behaviour world op result after :=
    world.Behaves op result after ∧ world.Retains op
  outstanding op _ := ∀ id, op ≠ .enqueue .inst id
  refl _ := .refl
  trans := .trans

section Rules

variable {α : Type} {world : World}

/-- The rule for an operation that does not put an instance back. -/
theorem drain_invoke {op : Op} {rest : op.Result → Call α}
    (quiet : ∀ id, op ≠ .enqueue .inst id)
    (continues : ∀ {later result after}, later.store.Sound →
      world.Still later → later.Behaves op result after →
      later.Retains op → after.store.Sound ∧ after.Housed →
        drainContract.Keeps (rest result) after) :
    drainContract.Keeps (invoke op >>= rest) world := by
  refine safe_invoke fun kept still => ⟨quiet, fun {_ _} behaves => ?_⟩
  have keeps := And.intro (behaves.1.store_within.sound kept.1)
    (behaves.1.housed kept.2)
  exact ⟨keeps, continues kept.1 still behaves.1 behaves.2 keeps⟩

/-- The rule for a call, which does not touch the database. -/
theorem drain_external {call : External}
    {rest : Except String call.Value → Call α}
    (continues : ∀ {before acted later result}, world.Still before →
      before.Behaves (.act call) () acted → acted.Still later →
      later.Behaves (.answer call) result later → later.Housed →
        drainContract.Keeps (rest result) later) :
    drainContract.Keeps (external call >>= rest) world := by
  change drainContract.Safe _
    (invoke (.act call) >>= fun _ => invoke (.answer call) >>= rest) world
  refine drain_invoke (fun _ same => by cases same)
    fun {before result acted} _ still acts _ _ => ?_
  refine drain_invoke (fun _ same => by cases same)
    fun {later result after} _ onward answers _ keeps => ?_
  obtain ⟨rfl, -⟩ := answers.answer
  exact continues still acts onward answers keeps.2

end Rules

/-- The instance is in the database as the pass has read it. -/
def World.Reads (world : World) (inst : Instance) : Prop :=
  world.store.getInstance inst.workspaceID inst.id = .ok inst

namespace World.Reads

variable {world later acted : World} {inst : Instance}

theorem still (reads : world.Reads inst) (still : world.Still later) :
    later.Reads inst :=
  (still.getInstance _ _).trans reads

theorem act {call : External} {result : Unit} (reads : world.Reads inst)
    (acts : world.Behaves (.act call) result acted) : acted.Reads inst := by
  rw [Reads, acts.act_store]
  exact reads

/-- A call of the pass. -/
theorem call {before : World} {call : External} (reads : world.Reads inst)
    (first : world.Still before) (acts : before.Behaves (.act call) () acted)
    (second : acted.Still later) : later.Reads inst :=
  ((reads.still first).act acts).still second

end World.Reads

namespace InstanceController

variable {world : World} {inst : Instance}

theorem fail_drainSafe (reads : world.Reads inst) (cause : String) :
    drainContract.Keeps (fail inst cause) world := by
  refine drain_invoke (fun _ same => by cases same)
    fun {later cancelled after} _ still behaves _ _ => ?_
  obtain rfl := behaves.contextErr
  cases cancelled with
  | true => trivial
  | false =>
      refine drain_invoke (fun _ same => by cases same)
        fun {last recorded final} _ onward behaves _ _ => ?_
      split
      · obtain ⟨now, stale, -⟩ := behaves.recordInstance
        have current := (reads.still still).still onward
        exact absurd (commit_error_iff.mp stale.symm)
          (recordInstance_not_stale current)
      · trivial
      · exact drain_invoke (fun _ same => by cases same)
          fun _ _ _ _ _ => trivial

theorem releaseENI_drainSafe (reads : world.Reads inst)
    (requested : inst.deletionRequested = true) :
    drainContract.Keeps (releaseENI inst) world := by
  refine drain_invoke (fun _ same => by cases same)
    fun {later subnet after} _ still behaves _ _ => ?_
  obtain ⟨-, rfl⟩ := behaves.getSubnet
  have reads := reads.still still
  split
  · exact fail_drainSafe reads _
  · refine drain_invoke (fun _ same => by cases same)
      fun {later vpc after} _ still behaves _ _ => ?_
    obtain ⟨-, rfl⟩ := behaves.getVPC
    have reads := reads.still still
    split
    · exact fail_drainSafe reads _
    · refine drain_external fun {before acted later released} first acts
        second _ _ => ?_
      have reads := reads.call first acts second
      split
      · exact fail_drainSafe reads _
      · refine drain_invoke (fun _ same => by cases same)
          fun {last finished final} _ still behaves _ _ => ?_
        split
        · obtain ⟨now, stale, -⟩ := behaves.finishInstanceTermination
          exact absurd (commit_error_iff.mp stale.symm)
            (finishInstanceTermination_not_stale (reads.still still)
              requested)
        · trivial
        · exact drain_invoke (fun _ same => by cases same)
            fun _ _ _ _ _ => trivial

theorem terminate_drainSafe (reads : world.Reads inst)
    (requested : inst.deletionRequested = true) :
    drainContract.Keeps (terminate inst) world := by
  unfold terminate
  split
  · refine drain_external fun {before acted later deleted} first acts second
      _ _ => ?_
    have reads := reads.call first acts second
    split
    · exact fail_drainSafe reads _
    · exact releaseENI_drainSafe reads requested
  · exact releaseENI_drainSafe reads requested

theorem start_drainSafe {id : ID} (runtimeID : RuntimeID)
    (live : world.Live id) :
    drainContract.Keeps (start id runtimeID) world := by
  refine drain_invoke (fun _ same => by cases same)
    fun {later loaded after} _ still behaves _ _ => ?_
  obtain ⟨rfl, rfl⟩ := behaves.getInstance
  split
  · trivial
  · rename_i inst found
    obtain ⟨row, member, eni, -, rfl, workspace, -, -, rfl⟩ :=
      Store.getInstance_ok found
    have wanted := live row (still.instances ▸ member) rfl
    have reads : after.Reads (row.snapshot eni) := by
      rw [World.Reads, ← found, ← workspace]
      rfl
    rw [if_neg (by simp [InstanceRow.snapshot, wanted])]
    refine drain_external fun {before acted later started} first acts second
      _ _ => ?_
    have reads := reads.call first acts second
    split
    · exact fail_drainSafe reads _
    · refine drain_external fun {before acted later inspected} first acts
        second _ _ => ?_
      have reads := reads.call first acts second
      split
      · exact fail_drainSafe reads _
      · exact fail_drainSafe reads _
      · refine drain_invoke (fun _ same => by cases same)
          fun {last recorded final} _ still behaves _ _ => ?_
        split
        · obtain ⟨now, stale, -⟩ := behaves.recordInstance
          exact absurd (commit_error_iff.mp stale.symm)
            (recordInstance_not_stale (reads.still still))
        · trivial
        · exact drain_invoke (fun _ same => by cases same)
            fun _ _ _ _ _ => trivial

theorem launch_drainSafe {row : InstanceRow} {eni : ENI}
    (reads : world.Reads (row.snapshot eni))
    (member : row ∈ world.store.instances)
    (live : row.deletionRequested = false)
    (held : ∀ runtimeID ∈ row.runtimeID,
      (runtimeID, row.id) ∈ world.names) :
    drainContract.Keeps (launch (row.snapshot eni)) world := by
  refine drain_external fun {before acted later image} first acts second _ _ =>
    ?_
  obtain rfl := acts.idle trivial
  have still := first.trans second
  have reads := reads.still still
  split
  · exact fail_drainSafe reads _
  · refine drain_external fun {before acted last made} onward acts third
      answers housed => ?_
    split
    · exact fail_drainSafe (reads.call onward acts third) _
    · rename_i runtimeID
      obtain ⟨container, inside, owner, sameID⟩ := answers.created
      have named : (runtimeID, row.id) ∈ last.names :=
        World.mem_names.mpr ⟨container, inside, sameID, owner⟩
      have grows : ∀ name ∈ world.names, name ∈ last.names := by
        intro name inside
        rw [third.names]
        rw [← still.names, ← onward.names] at inside
        rcases acts.create with rfl | ⟨id, added⟩
        · exact inside
        · rw [(World.addContainer_some added).2.2.2, World.names,
            List.map_append]
          exact List.mem_append_left _ inside
      have rows : last.store.instances = world.store.instances := by
        rw [third.instances, acts.act_store, onward.instances,
          still.instances]
      refine drain_invoke (fun _ same => by cases same)
        fun {before recorded after} sound fourth behaves _ _ => ?_
      have stillMember : row ∈ before.store.instances := by
        rw [fourth.instances, rows]
        exact member
      have accepted := recordRuntimeID_accepts sound.keyed stillMember live
        (housed.nonempty _ named) (by
          cases stored : row.runtimeID with
          | none => exact .inl rfl
          | some known =>
              have single := housed.single _ (grows _ (held known stored)) _
                named rfl
              exact .inr (congrArg some single))
      obtain ⟨same, rfl⟩ := behaves.recordRuntimeID
      have isOk : recorded = .ok () := same.trans accepted
      subst isOk
      refine start_drainSafe runtimeID (World.Live.recordRuntimeID sound ?_)
      intro other inside sameID
      obtain rfl := sound.keyed.instances.unique.eq_of_mem inside stillMember
        sameID
      exact live

/-- The reads of the network leave everything as it is. -/
theorem ready_drainSafe (world : World) (inst : Instance) :
    drainContract.Safe (fun _ later => world.Still later) (ready inst)
      world := by
  have quiet {op : Op} (keeps : ∀ id, op ≠ .enqueue .inst id)
      (same : ∀ {state : World} {result after},
        state.Behaves op result after → after = state) :
      drainContract.Quiet op := by
    refine fun state kept => ⟨keeps, fun result after behaves => ?_⟩
    rw [same behaves.1]
    exact ⟨kept, fun _ => .refl _⟩
  apply Contract.Safe.quiet (fun _ still held => held.trans still) (.refl world)
  refine uses_external (quiet (by simp) fun acts => acts.idle trivial)
    (quiet (by simp) fun answers => answers.answer.1) fun called => ?_
  split
  · trivial
  · refine uses_invoke (quiet (by simp) fun reads => reads.getSubnet.2)
      fun subnet => ?_
    split
    · trivial
    · exact uses_invoke (quiet (by simp) fun reads => reads.getVPC.2)
        fun vpc => by split <;> trivial

theorem converge_drainSafe {id : ID} {row : InstanceRow} {eni : ENI}
    (kept : drainContract.invariant world)
    (reads : world.Reads (row.snapshot eni))
    (member : row ∈ world.store.instances)
    (live : row.deletionRequested = false)
    (held : ∀ runtimeID ∈ row.runtimeID,
      (runtimeID, row.id) ∈ world.names) :
    drainContract.Keeps (converge id (row.snapshot eni)) world := by
  have launches {later : World} (still : world.Still later) :
      drainContract.Keeps (launch (row.snapshot eni)) later := by
    refine launch_drainSafe (reads.still still) ?_ live ?_
    · rw [still.instances]
      exact member
    · rw [still.names]
      exact held
  refine (ready_drainSafe world _).bind kept fun {isReady later} _ still => ?_
  split
  · exact fail_drainSafe (reads.still still) _
  · trivial
  · split
    · refine drain_external fun {before acted last inspected} first acts
        second _ _ => ?_
      obtain rfl := acts.idle trivial
      have onward := (still.trans first).trans second
      split
      · exact drain_invoke (fun _ same => by cases same)
          fun _ _ _ _ _ => trivial
      · exact fail_drainSafe (reads.still onward) _
      · exact launches onward
    · exact launches still

theorem reconcileLocked_drainSafe (id : ID) (world : World) :
    drainContract.Keeps (reconcileLocked id) world := by
  refine drain_invoke (fun _ same => by cases same)
    fun {later loaded after} _ still behaves retains kept => ?_
  obtain ⟨rfl, rfl⟩ := behaves.getInstance
  split
  · exact drain_invoke (fun _ same => by cases same)
      fun _ _ _ _ _ => trivial
  · trivial
  · rename_i inst found
    obtain ⟨row, member, eni, -, rfl, workspace, -, -, rfl⟩ :=
      Store.getInstance_ok found
    have reads : after.Reads (row.snapshot eni) := by
      rw [World.Reads, ← found, ← workspace]
      rfl
    split
    · rename_i requested
      exact terminate_drainSafe reads requested
    · rename_i live
      rw [Bool.not_eq_true] at live
      exact converge_drainSafe kept reads member live
        (retains row member rfl live)

end InstanceController

/-- A step of the daemon while it drains the queue of instances: no request
of the API, no sweep, no retry and no crash, no container goes by itself, and
a wanted instance is found with its recorded container. -/
def Daemon.Drains (daemon : Daemon) : Label → Prop
  | .serve _ | .sweepInstances _ | .dueRetries .inst _ _ | .crash
  | .vanish _ => False
  | .instanceStep _ => ∀ thread ∈ daemon.instanceWork,
      ∀ op, thread.outstanding = some op → daemon.world.Retains op
  | _ => True

instance (daemon : Daemon) : (label : Label) → Decidable (daemon.Drains label)
  | .serve .. | .sweepInstances .. | .dueRetries .inst .. | .crash
  | .vanish .. => inferInstanceAs (Decidable False)
  | .instanceStep _ =>
      inferInstanceAs (Decidable (∀ thread ∈ daemon.instanceWork, _))
  | .reconcileInstance .. | .reconcileVPC .. | .sweepVPCs .. | .plumb ..
  | .vpcStep .. | .plumbStep .. | .dueRetries .vpc .. | .exit .. =>
      inferInstanceAs (Decidable True)

def drainSystem : Transition.System Daemon Label :=
  system.restrict fun daemon label _ => daemon.Drains label

def Daemon.drainStep (daemon : Daemon) (label : Label) : Option Daemon :=
  if daemon.Drains label then daemon.step label else none

theorem Daemon.drainStep_sound {daemon next : Daemon} {label : Label}
    (stepped : daemon.drainStep label = some next) :
    drainSystem.Step daemon label next := by
  rw [drainStep, Option.ite_none_right_eq_some] at stepped
  exact stepped.symm

structure Daemon.Draining (daemon : Daemon) : Prop where
  formed : daemon.Formed
  housed : daemon.world.Housed
  instanceWork : ∀ thread ∈ daemon.instanceWork,
    drainContract.Keeps thread daemon.world

theorem World.Environment.drains {daemon : Daemon} {after : World}
    {label : Label} (changes : daemon.world.Environment label after)
    (drains : daemon.Drains label) : daemon.world.Still after ∧
      after.instanceQueue.pending = daemon.world.instanceQueue.pending := by
  cases changes with
  | serve | vanish => exact drains.elim
  | dueRetries controller now order =>
      cases controller with
      | vpc => exact ⟨.onQueue _ .vpc _, rfl⟩
      | inst => exact drains.elim
  | exit id => exact ⟨⟨rfl, rfl, names_running id false⟩, rfl⟩

namespace Daemon.Draining

variable {daemon next : Daemon} {label : Label}

theorem persist (draining : daemon.Draining) {after : World}
    (still : daemon.world.Still after) : ∀ thread ∈ daemon.instanceWork,
      drainContract.Keeps thread after :=
  fun thread working => (draining.instanceWork thread working).persist
    fun _ _ => still

theorem complete (draining : daemon.Draining) {op : Op}
    {rest : op.Result → Pass} {result : op.Result} {after : World}
    {choice : Choice} (drains : daemon.Drains (.instanceStep choice))
    (working : daemon.instanceWork = some (.call op rest))
    (behaves : daemon.world.Behaves op result after) :
    drainContract.Keeps (rest result) after :=
  ((draining.instanceWork _ working).complete
    ⟨draining.formed.sound, draining.housed⟩
    ⟨behaves, drains _ working _ rfl⟩).2

theorem instanceWork_after (draining : daemon.Draining)
    (drains : daemon.Drains label) (moves : daemon.Moves label next) :
    ∀ thread ∈ next.instanceWork,
      drainContract.Keeps thread next.world := by
  cases moves with
  | environment changes => exact draining.persist (changes.drains drains).1
  | beginInstance change idle isPass =>
      rintro _ ⟨⟩
      cases isPass with
      | reconcile id =>
          exact InstanceController.reconcileLocked_drainSafe id _
      | sweep pages => exact drains.elim
  | beginVPC change idle isPass =>
      exact draining.persist (.onQueue daemon.world .vpc change)
  | plumb | vpcDone | plumbDone => exact draining.instanceWork
  | instanceDone => rintro _ ⟨⟩
  | instanceCall working hooked runs =>
      rintro _ ⟨⟩
      exact draining.complete drains working ⟨_, runs⟩
  | @vpcCall choice op next result after working runs =>
      have behaves : World.Behaves _ op result after := ⟨choice, runs⟩
      exact draining.persist (behaves.still draining.formed.sound
        (draining.formed.vpcWork _ working).1)
  | @plumbCall index choice front back op next result after working runs =>
      have behaves : World.Behaves _ op result after := ⟨choice, runs⟩
      have uses := draining.formed.plumbing (.call op next)
        (by simp [working])
      obtain ⟨links, rfl, -⟩ := behaves.plumbs uses.1
      exact draining.persist ⟨rfl, rfl, rfl⟩
  | crash => rintro _ ⟨⟩

theorem step (draining : daemon.Draining) (drains : daemon.Drains label)
    (moves : daemon.Moves label next) : next.Draining :=
  ⟨draining.formed.step moves, moves.housed draining.housed,
    draining.instanceWork_after drains moves⟩

/-- No thread puts an instance back. -/
theorem quiet (draining : daemon.Draining) (id : ID) :
    ¬ daemon.Awaits (.enqueue .inst id) := by
  intro awaits
  obtain ⟨thread, working, waits⟩ :=
    draining.formed.awaits_instance awaits (fun held => held) fun held => held
  cases thread with
  | done value => cases waits
  | call op rest =>
      cases waits
      exact (draining.instanceWork _ working).ready
        ⟨draining.formed.sound, draining.housed⟩ id rfl

end Daemon.Draining

/-- The label of a new pass. -/
def Label.reconciles : Label → Bool
  | .reconcileInstance _ => true
  | _ => false

namespace Daemon.Draining

variable {daemon next : Daemon} {label : Label}

/-- Only a new pass changes what is pending. -/
theorem pending (draining : daemon.Draining) (drains : daemon.Drains label)
    (moves : daemon.Moves label next) (same : label.reconciles = false) :
    next.world.instanceQueue.pending =
      daemon.world.instanceQueue.pending := by
  have quietly {op : Op} {result : op.Result} {after : World}
      (behaves : daemon.world.Behaves op result after)
      (awaits : daemon.Awaits op) :
      after.instanceQueue.pending = daemon.world.instanceQueue.pending := by
    apply behaves.pending
    rintro id rfl
    exact draining.quiet id awaits
  cases moves with
  | environment changes => exact (changes.drains drains).2
  | beginInstance change idle isPass =>
      cases isPass with
      | reconcile id => cases same
      | sweep pages => exact drains.elim
  | instanceCall working hooked runs =>
      exact quietly ⟨_, runs⟩ (.inl ⟨_, working, rfl⟩)
  | vpcCall working runs =>
      exact quietly ⟨_, runs⟩ (.inr (.inl ⟨_, working, rfl⟩))
  | @plumbCall index choice front back op next result after working runs =>
      have member : .call op next ∈ daemon.plumbing := by simp [working]
      exact quietly ⟨_, runs⟩ (.inr (.inr ⟨_, member, rfl⟩))
  | crash => exact drains.elim
  | _ => rfl

theorem measure (draining : daemon.Draining) (drains : daemon.Drains label)
    (stepped : daemon.step label = some next) :
    next.world.instanceQueue.pending.card +
        (if label.reconciles then 1 else 0) ≤
      daemon.world.instanceQueue.pending.card := by
  cases begins : label.reconciles with
  | false =>
      rw [draining.pending drains (Moves.of_step stepped) begins]
      simp
  | true =>
      cases label with
      | reconcileInstance id =>
          simp only [Daemon.step] at stepped
          split_ifs at stepped with isPending
          obtain ⟨-, rfl⟩ := beginInstance_some stepped
          exact Finset.card_erase_lt_of_mem isPending
      | _ => cases begins

end Daemon.Draining

/-- While the daemon drains the queue of instances, it begins at most as many
passes as instances were pending, and no pass is about to put an instance
back. -/
theorem drainSystem_passes_bounded {daemon next : Daemon}
    {labels : List Label} (reachable : system.Reachable daemon)
    (idle : daemon.instanceWork = none)
    (run : drainSystem.Run daemon labels next) :
    labels.countP Label.reconciles +
        next.world.instanceQueue.pending.card ≤
      daemon.world.instanceQueue.pending.card ∧
    ∀ id, ¬ next.Awaits (.enqueue .inst id) := by
  obtain ⟨formed, housed⟩ := Daemon.formed_and_housed reachable
  have draining : daemon.Draining := by
    refine ⟨formed, housed, fun thread working => ?_⟩
    rw [idle] at working
    cases working
  clear reachable idle formed housed
  induction run with
  | nil => exact ⟨by simp, draining.quiet⟩
  | @cons state middle final label labels step rest induction =>
      obtain ⟨bound, quiet⟩ :=
        induction (draining.step step.2 (Daemon.Moves.of_step step.1))
      refine ⟨?_, quiet⟩
      have shorter := draining.measure step.2 step.1
      rw [List.countP_cons]
      omega

/-- The pass over the instance of the first requests. -/
theorem firstDrain_passes_bounded :
    ∃ daemon next labels, system.Reachable daemon ∧
      daemon.instanceWork = none ∧ drainSystem.Run daemon labels next ∧
      labels.countP Label.reconciles = 1 ∧ next.instanceWork.isNone ∧
      labels.countP Label.reconciles +
          next.world.instanceQueue.pending.card ≤
        daemon.world.instanceQueue.pending.card := by
  let requests := firstNetwork ++ (firstRequests.drop 2).map .serve
  let pass : List Label :=
    firstRecord.drop requests.length ++
      [ .instanceStep .plain, .instanceStep .effect, .instanceStep .succeeds,
        .instanceStep .plain, .instanceStep .succeeds,
        .instanceStep (.clock 3), .instanceStep .plain,
        .instanceStep .plain ]
  have runs : ((Daemon.initial []).run requests).any (fun daemon =>
      daemon.instanceWork.isNone &&
        (pass.foldlM Daemon.drainStep daemon).any fun next =>
          next.instanceWork.isNone) = true := by
    decide +kernel
  obtain ⟨daemon, ran, checked⟩ := (Option.any_eq_true _ _).mp runs
  rw [Bool.and_eq_true, Option.isNone_iff_eq_none] at checked
  obtain ⟨next, drained, done⟩ := (Option.any_eq_true _ _).mp checked.2
  have run := Transition.System.Run.of_steps Daemon.drainStep_sound drained
  have reachable := Daemon.run_reachable ran
  exact ⟨daemon, next, pass, reachable, checked.1, run, by decide, done,
    (drainSystem_passes_bounded reachable checked.1 run).1⟩

/-- The container of an instance does not start, and goes by itself. -/
def lostContainer : List Label :=
  firstRecord ++
    [ .instanceStep .plain, .instanceStep .plain,
      .instanceStep (.fails "boom"), .instanceStep .plain,
      .instanceStep (.clock 3), .instanceStep (.clock 3),
      .instanceStep .plain, .vanish "c1",
      .dueRetries .inst 1000000000 ["i-03030303030303030"] ]

/-- A pass over the instance in which every call succeeds. -/
def hotPass : List Label :=
  [ .reconcileInstance "i-03030303030303030", .instanceStep .plain,
    .instanceStep .plain, .instanceStep .succeeds, .instanceStep .plain,
    .instanceStep .plain, .instanceStep .plain, .instanceStep .succeeds,
    .instanceStep (.created "c2"),
    .instanceStep .succeeds, .instanceStep .plain, .instanceStep .plain,
    .instanceStep .effect, .instanceStep .succeeds, .instanceStep .plain,
    .instanceStep .plain ]

/-- The pass leaves the wanted instance and the queue as it found them, and
the next pass will do the same. -/
theorem hotPass_puts_back :
    ∃ daemon next row, (Daemon.initial []).run lostContainer = some daemon ∧
      system.Reachable daemon ∧ daemon.run hotPass = some next ∧
      daemon.instanceWork = none ∧ next.instanceWork = none ∧
      row ∈ daemon.world.store.instances ∧ row.deletionRequested = false ∧
      row.id ∈ daemon.world.instanceQueue.pending ∧
      next.world.store.instances = daemon.world.store.instances ∧
      next.world.instanceQueue = daemon.world.instanceQueue ∧
      next.world.containers = daemon.world.containers := by
  have runs : ((Daemon.initial []).run lostContainer).any (fun daemon =>
      (daemon.run hotPass).any fun next =>
        daemon.instanceWork.isNone && (next.instanceWork.isNone &&
          daemon.world.store.instances.any fun row =>
            decide (row.deletionRequested = false ∧
              row.id ∈ daemon.world.instanceQueue.pending ∧
              next.world.store.instances = daemon.world.store.instances ∧
              next.world.instanceQueue = daemon.world.instanceQueue ∧
              next.world.containers = daemon.world.containers))) = true := by
    decide +kernel
  obtain ⟨daemon, ran, checked⟩ := (Option.any_eq_true _ _).mp runs
  obtain ⟨next, passed, checked⟩ := (Option.any_eq_true _ _).mp checked
  rw [Bool.and_eq_true, Bool.and_eq_true, Option.isNone_iff_eq_none,
    Option.isNone_iff_eq_none] at checked
  obtain ⟨row, member, holds⟩ := List.any_eq_true.mp checked.2.2
  exact ⟨daemon, next, row, ran, Daemon.run_reachable ran, passed, checked.1,
    checked.2.1, member, of_decide_eq_true holds⟩

end Nephos
