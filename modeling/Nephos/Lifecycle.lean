import Nephos.Evolution

/-!
# Lifecycles

The generation counts desired states: one for the creation and one more for
the deletion request.  A row shows success only for the generation it has
now, and an instance and its interface move together until the instance is
being terminated.  Nothing in the store enforces this; it follows from which
statuses the controllers record.
-/

namespace Nephos

open Transaction Transition.System

/-- What the generation columns say, where `settled` is the state that shows
success. -/
structure Lifecycle (settled : Prop) (generation observed : Int)
    (requested : Bool) (reason : String) : Prop where
  counted : generation = if requested then 2 else 1
  lower : 0 ≤ observed
  upper : observed ≤ generation
  requestedUnsettled : requested = true → ¬ settled
  settledCurrent : settled →
    observed = generation ∧ reason = "" ∧ requested = false

section Rows

variable {settled other : Prop} {generation observed : Int}
  {requested : Bool} {reason message : String}

theorem Lifecycle.created (unsettled : ¬ settled) :
    Lifecycle settled 1 0 false reason where
  counted := rfl
  lower := Int.le_refl 0
  upper := by omega
  requestedUnsettled := fun _ => unsettled
  settledCurrent := fun holds => absurd holds unsettled

theorem Lifecycle.marked
    (row : Lifecycle settled generation observed requested reason)
    (live : requested = false) (unsettled : ¬ other) :
    Lifecycle other (generation + 1) observed true message where
  counted := by rw [row.counted, live]; rfl
  lower := row.lower
  upper := by have := row.upper; omega
  requestedUnsettled := fun _ => unsettled
  settledCurrent := fun holds => absurd holds unsettled

theorem Lifecycle.failed
    (row : Lifecycle settled generation observed requested reason)
    (unsettled : ¬ other) :
    Lifecycle other generation observed requested message where
  counted := row.counted
  lower := row.lower
  upper := row.upper
  requestedUnsettled := fun _ => unsettled
  settledCurrent := fun holds => absurd holds unsettled

theorem Lifecycle.succeeded
    (row : Lifecycle settled generation observed requested reason)
    (live : requested = false) :
    Lifecycle other generation generation requested "" where
  counted := row.counted
  lower := Int.le_trans row.lower row.upper
  upper := Int.le_refl _
  requestedUnsettled := fun isRequested => by
    rw [live] at isRequested
    cases isRequested
  settledCurrent := fun _ => ⟨rfl, rfl, live⟩

end Rows

def VPC.Lifecycle (row : VPC) : Prop :=
  Nephos.Lifecycle (row.state = .available) row.generation
    row.observedGeneration row.deletionRequested row.stateReason

def Subnet.Lifecycle (row : Subnet) : Prop :=
  Nephos.Lifecycle (row.state = .available) row.generation
    row.observedGeneration row.deletionRequested row.stateReason

def InstanceRow.Lifecycle (row : InstanceRow) : Prop :=
  Nephos.Lifecycle (row.state = .running) row.generation
    row.observedGeneration row.deletionRequested row.stateReason

/-- The states a live instance and its interface are in together. -/
def PairedStates : InstanceState → State → Prop
  | .pending, .pending => True
  | .failed, .failed => True
  | .running, .available => True
  | _, _ => False

structure Store.Lifecycle (store : Store) : Prop where
  vpcs : ∀ row ∈ store.vpcs, row.Lifecycle
  subnets : ∀ row ∈ store.subnets, row.Lifecycle
  instances : ∀ row ∈ store.instances, row.Lifecycle
  running : ∀ row ∈ store.instances, row.state = .running →
    ∃ runtimeID, row.runtimeID = some runtimeID ∧ runtimeID ≠ ""
  paired : ∀ row ∈ store.instances, row.deletionRequested = false →
    ∀ eni ∈ store.enis, eni.instanceID = row.id →
      PairedStates row.state eni.state ∧ eni.stateReason = row.stateReason

theorem VPC.Lifecycle.status {row : VPC} (held : row.Lifecycle)
    {state : State} {reason : String} {succeeded : Bool}
    (status : EngineStatus state reason succeeded row.deletionRequested) :
    (row.withStatus state reason succeeded).Lifecycle := by
  rcases status with ⟨rfl, rfl, rfl, live⟩ | ⟨rfl, rfl⟩
  · exact held.succeeded live
  · exact held.failed (by simp [VPC.withStatus])

theorem Subnet.Lifecycle.status {row : Subnet} (held : row.Lifecycle)
    {state : State} {reason : String} {succeeded : Bool}
    (status : EngineStatus state reason succeeded row.deletionRequested) :
    (row.withStatus state reason succeeded).Lifecycle := by
  rcases status with ⟨rfl, rfl, rfl, live⟩ | ⟨rfl, rfl⟩
  · exact held.succeeded live
  · exact held.failed (by simp [Subnet.withStatus])

theorem InstanceRow.Lifecycle.status {row : InstanceRow}
    (held : row.Lifecycle) {status : InstanceState} {reason : String}
    {observed : Bool} (issued : IssuedStatus status reason observed)
    (accepted : RuntimeStatus row status observed) :
    (row.withStatus status reason observed).Lifecycle := by
  rcases issued with ⟨rfl, rfl, rfl⟩ | ⟨rfl, rfl⟩
  · exact held.succeeded (accepted.2 rfl).2.1
  · exact held.failed (by simp [InstanceRow.withStatus])

/-- The interface of a live instance follows a status of the instance. -/
theorem PairedStates.status {row : InstanceRow} {eni : ENI}
    {status : InstanceState} {reason : String} {observed : Bool}
    (issued : IssuedStatus status reason observed)
    (live : row.deletionRequested = false) :
    PairedStates (row.withStatus status reason observed).state
        (eni.withStatus row.deletionRequested reason observed).state ∧
      (eni.withStatus row.deletionRequested reason observed).stateReason =
        (row.withStatus status reason observed).stateReason := by
  rw [ENI.withStatus_live _ _ _ _ live]
  rcases issued with ⟨rfl, rfl, rfl⟩ | ⟨rfl, rfl⟩
  · exact ⟨trivial, rfl⟩
  · exact ⟨trivial, rfl⟩

namespace Store.Lifecycle

variable {store : Store}

theorem empty : Store.empty.Lifecycle := by
  constructor <;> simp [Store.empty]

theorem instance_added (lifecycle : store.Lifecycle) (keyed : store.Keyed)
    {row : InstanceRow} {eni : ENI} (fresh : row.Fresh) (eniFresh : eni.Fresh)
    (owner : eni.instanceID = row.id) (unused : store.Unused row.id)
    (single : ∀ other ∈ store.enis, other.instanceID ≠ row.id) :
    { store with
      instances := store.instances ++ [row]
      enis := store.enis ++ [eni] }.Lifecycle :=
  { lifecycle with
    instances := forall_append lifecycle.instances (by
      unfold InstanceRow.Lifecycle
      rw [fresh.generation, fresh.observed, fresh.live, fresh.state]
      exact .created (by simp))
    running := forall_append lifecycle.running (by
      rw [fresh.state]
      intro running
      cases running)
    paired := by
      apply forall_append
      · intro old member live
        apply forall_append (lifecycle.paired old member live)
        intro same
        exact absurd (owner.symm.trans same).symm
          (keyed.instances.fresh unused old member)
      · intro _live
        apply forall_append
        · intro other member same
          exact absurd same (single other member)
        · intro _same
          rw [fresh.state, eniFresh.state, fresh.reason, eniFresh.reason]
          exact ⟨trivial, rfl⟩ }

/-- An instance row is replaced by one with the same place; its state
changes only when it is being terminated. -/
theorem instance_replaced (lifecycle : store.Lifecycle) {row : InstanceRow}
    (replacement : InstanceRow) (member : row ∈ store.instances)
    (sameID : replacement.id = row.id) (held : replacement.Lifecycle)
    (bound : replacement.state = .running →
      ∃ runtimeID, replacement.runtimeID = some runtimeID ∧ runtimeID ≠ "")
    (kept : replacement.deletionRequested = false →
      row.deletionRequested = false ∧ replacement.state = row.state ∧
        replacement.stateReason = row.stateReason) :
    { store with
      instances := replace InstanceRow.id replacement
        store.instances }.Lifecycle :=
  { lifecycle with
    instances := forall_replace member sameID lifecycle.instances held
    running := forall_replace member sameID lifecycle.running bound
    paired := by
      apply forall_replace member sameID lifecycle.paired
      intro live
      obtain ⟨rowLive, sameState, sameReason⟩ := kept live
      rw [sameID, sameState, sameReason]
      exact lifecycle.paired row member rowLive }

/-- A status of an instance and its interface together. -/
theorem instance_status (lifecycle : store.Lifecycle) (keyed : store.Keyed)
    {row : InstanceRow} {eni : ENI} {status : InstanceState}
    {reason : String} {observed : Bool} (member : row ∈ store.instances)
    (eniMember : eni ∈ store.enis) (owner : eni.instanceID = row.id)
    (accepted : RuntimeStatus row status observed)
    (issued : IssuedStatus status reason observed) :
    { store with
      instances := replace InstanceRow.id
        (row.withStatus status reason observed) store.instances
      enis := replace ENI.id
        (eni.withStatus row.deletionRequested reason observed)
        store.enis }.Lifecycle :=
  have sameID : (row.withStatus status reason observed).id = row.id := rfl
  { lifecycle with
    instances := forall_replace member sameID lifecycle.instances
      ((lifecycle.instances row member).status issued accepted)
    running := by
      apply forall_replace member sameID lifecycle.running
      intro running
      rcases issued with ⟨-, -, isObserved⟩ | ⟨failed, -⟩
      · exact (accepted.2 isObserved).2.2
      · cases failed.symm.trans running
    paired := by
      intro other inside live interface interfaceInside same
      rcases (mem_replace_iff eniMember (by simp)).mp interfaceInside with
        rfl | ⟨kept, different⟩
      · rcases (mem_replace_iff member sameID).mp inside with
          rfl | ⟨old, otherRow⟩
        · exact PairedStates.status issued live
        · rw [ENI.withStatus_instanceID, owner] at same
          exact absurd same.symm otherRow
      · rcases (mem_replace_iff member sameID).mp inside with
          rfl | ⟨old, otherRow⟩
        · have identical := keyed.owners.eq_of_mem kept eniMember
            (same.trans owner.symm)
          exact absurd (congrArg ENI.id identical) different
        · exact lifecycle.paired other old live interface kept same }

/-- Only the resource tables matter. -/
theorem of_tables (lifecycle : store.Lifecycle) {other : Store}
    (vpcs : other.vpcs = store.vpcs) (subnets : other.subnets = store.subnets)
    (instances : other.instances = store.instances)
    (enis : other.enis = store.enis) : other.Lifecycle where
  vpcs := vpcs ▸ lifecycle.vpcs
  subnets := subnets ▸ lifecycle.subnets
  instances := instances ▸ lifecycle.instances
  running := instances ▸ lifecycle.running
  paired := instances ▸ enis ▸ lifecycle.paired

end Store.Lifecycle

/-- Every edit that the controllers and the services make keeps the
lifecycles. -/
theorem Edit.Allowed.lifecycle {store : Store} {edit : Edit}
    (allowed : edit.Allowed store) (issued : edit.Issued)
    (keyed : store.Keyed) (held : store.Lifecycle) :
    (edit.apply store).Lifecycle := by
  cases allowed with
  | @createVPC row time fresh block unused index =>
      exact { held with
        vpcs := forall_append held.vpcs (by
          unfold VPC.Lifecycle
          rw [fresh.generation, fresh.observed, fresh.live, fresh.state]
          exact .created (by simp)) }
  | @markVPC row time member live childless =>
      exact { held with
        vpcs := forall_replace member (by rfl) held.vpcs
          ((held.vpcs row member).marked live (by simp [VPC.marked])) }
  | @vpcStatus row state reason succeeded time member changes status =>
      exact { held with
        vpcs := forall_replace member (by rfl) held.vpcs
          ((held.vpcs row member).status status) }
  | removeVPC member requested childless =>
      exact { held with
        vpcs := fun row inside => held.vpcs row (mem_remove_iff.mp inside).1 }
  | @createSubnet row vpc time parent parentID parentLive fresh block range
      disjoint unused index =>
      exact { held with
        subnets := forall_append held.subnets (by
          unfold Subnet.Lifecycle
          rw [fresh.generation, fresh.observed, fresh.live, fresh.state]
          exact .created (by simp)) }
  | @markSubnet row time member live childless =>
      exact { held with
        subnets := forall_replace member (by rfl) held.subnets
          ((held.subnets row member).marked live (by simp [Subnet.marked])) }
  | @subnetStatus row state reason succeeded time member changes status =>
      exact { held with
        subnets := forall_replace member (by rfl) held.subnets
          ((held.subnets row member).status status) }
  | removeSubnet member requested =>
      exact { held with
        subnets := fun row inside =>
          held.subnets row (mem_remove_iff.mp inside).1 }
  | createInstance parent parentID parentLive fresh eniFresh owner single
      eniSubnet lease is4 mac unused eniUnused distinct index eniIndex =>
      exact (held.instance_added keyed fresh eniFresh owner unused
        single).of_tables rfl rfl rfl rfl
  | @markInstance row time member live =>
      exact (held.instance_replaced row.marked member rfl
        ((held.instances row member).marked live (by simp [InstanceRow.marked]))
        (by simp [InstanceRow.marked])
        (by simp [InstanceRow.marked])).of_tables rfl rfl rfl rfl
  | instanceStatus member eniMember owner changes accepted =>
      exact (held.instance_status keyed member eniMember owner accepted
        issued).of_tables rfl rfl rfl rfl
  | removeInstance member eniMember owner requested =>
      exact { held with
        instances := fun row inside =>
          held.instances row (mem_remove_iff.mp inside).1
        running := fun row inside =>
          held.running row (mem_remove_iff.mp inside).1
        paired := fun row inside live eni eniInside =>
          held.paired row (mem_remove_iff.mp inside).1 live eni
            (mem_remove_iff.mp eniInside).1 }
  | @setRuntimeID row runtimeID member unset nonempty =>
      exact (held.instance_replaced { row with runtimeID := some runtimeID }
        member rfl (held.instances row member)
        (fun _ => ⟨runtimeID, rfl, nonempty⟩)
        (fun live => ⟨live, rfl, rfl⟩)).of_tables rfl rfl rfl rfl
  | saveReplay workspace replaced => exact held.of_tables rfl rfl rfl rfl

/-- The database under the service operations and the writes as the
controllers issue them. -/
def issuedDatabase : Transition.System Store Write :=
  database.restrict fun _ write _ => write.Issued

theorem edits_run_lifecycle {store final : Store} {labels : List Edit}
    (run : edits.Run store labels final)
    (issued : ∀ edit ∈ labels, edit.Issued) (sound : store.Sound)
    (held : store.Lifecycle) : final.Sound ∧ final.Lifecycle := by
  apply (run.restrict_labels issued).invariant
    (fun state => state.Sound ∧ state.Lifecycle) ?_ ⟨sound, held⟩
  rintro state edit next ⟨keeps, lifecycle⟩ ⟨⟨allowed, rfl⟩, isIssued⟩
  exact ⟨allowed.sound keeps,
    allowed.lifecycle isIssued keeps.keyed lifecycle⟩

theorem issuedDatabase_reachable_lifecycle {store : Store}
    (reachable : issuedDatabase.Reachable store) :
    store.Sound ∧ store.Lifecycle := by
  apply reachable.invariant fun state => state.Sound ∧ state.Lifecycle
  · rintro start rfl
    exact ⟨⟨.empty, .empty⟩, .empty⟩
  · rintro state write next ⟨sound, held⟩ ⟨rfl, issued⟩
    obtain ⟨labels, run, -, all⟩ := write.edited sound.keyed
    exact edits_run_lifecycle run
      (fun edit member => (all edit member).issued issued) sound held

/-- In every database that the services and the controllers can produce the
lifecycles hold, and from there on a deletion request is never taken back
and a runtime identity never changes while the row exists. -/
theorem issuedDatabase_lifecycle {store final : Store} {labels : List Write}
    (reachable : issuedDatabase.Reachable store)
    (run : issuedDatabase.Run store labels final) :
    store.Lifecycle ∧
      (∀ row ∈ store.vpcs, ∀ later ∈ final.vpcs, later.id = row.id →
        row.deletionRequested = true → later.deletionRequested = true) ∧
      (∀ row ∈ store.subnets, ∀ later ∈ final.subnets, later.id = row.id →
        row.deletionRequested = true → later.deletionRequested = true) ∧
      (∀ row ∈ store.instances, ∀ later ∈ final.instances,
        later.id = row.id →
          (row.deletionRequested = true → later.deletionRequested = true) ∧
          ∀ runtimeID, row.runtimeID = some runtimeID →
            later.runtimeID = some runtimeID) := by
  obtain ⟨sound, lifecycle⟩ := issuedDatabase_reachable_lifecycle reachable
  obtain ⟨evolves, -⟩ := database_run_evolves run.restrict_forget sound
  refine ⟨lifecycle, ?_, ?_, ?_⟩
  · intro row member later laterMember same
    exact (evolves.vpc sound member laterMember same).requested
  · intro row member later laterMember same
    exact (evolves.subnet sound member laterMember same).requested
  · intro row member later laterMember same
    have descends := evolves.inst sound member laterMember same
    exact ⟨descends.requested, descends.runtimeID⟩

theorem issuedDatabase_run (store : Store) {writes : List Write}
    (issued : ∀ write ∈ writes, write.Issued) :
    issuedDatabase.Run store writes (writes.foldl Write.apply store) :=
  (database_run store writes).restrict_labels issued

theorem firstRequests_issued : ∀ write ∈ firstRequests, write.Issued := by
  simp only [firstRequests, List.forall_mem_cons]
  exact ⟨trivial, trivial, trivial, fun _ member => by cases member⟩

theorem firstStore_issued : issuedDatabase.Reachable firstStore := by
  unfold firstStore
  exact ⟨.empty, firstRequests, rfl,
    issuedDatabase_run _ firstRequests_issued⟩

/-- The instance of the first requests gets a container and is terminated;
after that neither can be taken back. -/
theorem firstStore_lifecycle :
    let id := "i-03030303030303030"
    let store := [.recordRuntimeID id 1 "c1", .terminateSnapshot id 1].foldl
      Write.apply firstStore
    let final := [.recordRuntimeID id 2 "c2", .terminateSnapshot id 2,
      .retainTerminatingRuntimeID id "c2"].foldl Write.apply store
    store.Lifecycle ∧
      (store.instances.map fun row => (row.deletionRequested,
        row.runtimeID)) = [(true, some "c1")] ∧
      final.instances.map InstanceRow.id = [id] ∧
      ∀ later ∈ final.instances, later.deletionRequested = true ∧
        later.runtimeID = some "c1" := by
  intro id store final
  have terminating : (store.instances.map fun row => (row.id,
      row.deletionRequested, row.runtimeID)) = [(id, true, some "c1")] := by
    decide +kernel
  obtain ⟨row, rows, same⟩ := List.map_eq_singleton_iff.mp terminating
  have remains : final.instances.map InstanceRow.id = [id] := by
    decide +kernel
  have prepared : issuedDatabase.Run firstStore
      [.recordRuntimeID id 1 "c1", .terminateSnapshot id 1] store :=
    issuedDatabase_run _ (by simp [Write.Issued])
  have run : issuedDatabase.Run store [.recordRuntimeID id 2 "c2",
      .terminateSnapshot id 2, .retainTerminatingRuntimeID id "c2"] final :=
    issuedDatabase_run _ (by simp [Write.Issued])
  obtain ⟨lifecycle, -, -, instances⟩ :=
    issuedDatabase_lifecycle (firstStore_issued.run prepared) run
  simp only [Prod.mk.injEq] at same
  obtain ⟨isID, requested, stored⟩ := same
  refine ⟨lifecycle, ?_, remains, fun later member => ?_⟩
  · rw [rows, List.map_singleton, requested, stored]
  · have laterID : later.id ∈ final.instances.map InstanceRow.id :=
      List.mem_map_of_mem member
    rw [remains, List.mem_singleton] at laterID
    obtain ⟨latched, fixed⟩ := instances row
      (rows ▸ List.mem_singleton_self row) later member
      (laterID.trans isID.symm)
    exact ⟨latched requested, fixed "c1" stored⟩

end Nephos
