import Nephos.Store.Spec

/-!
# What the reconcilers' writes do

The generation-checked writes of the two reconcilers as edits.  A write that
finds the database other than its snapshot describes is refused and changes
nothing.
-/

namespace Nephos

open Transaction

variable {store final : Store}

section RuntimeIDs

variable (keyed : store.Keyed)

include keyed

/-- `RecordRuntimeID` binds the identity to a live row that has none, accepts
the identity the row has, and refuses anything else. -/
theorem recordRuntimeID_cases (id : ID) (generation : Int)
    (runtimeID : RuntimeID) :
    (∃ failure, store.recordRuntimeID id generation runtimeID =
        (.error failure, store)) ∨
      ∃ row ∈ store.instances, row.id = id ∧ row.generation = generation ∧
        row.deletionRequested = false ∧ runtimeID ≠ "" ∧
        (row.runtimeID = some runtimeID ∧
            store.recordRuntimeID id generation runtimeID = (.ok (), store) ∨
          row.runtimeID = none ∧
            store.recordRuntimeID id generation runtimeID =
              (.ok (), Edit.apply store (.setRuntimeID row runtimeID))) := by
  by_cases empty : runtimeID = ""
  · exact .inl ⟨_, by simp only [Store.recordRuntimeID, if_pos empty]; rfl⟩
  · simp only [Store.recordRuntimeID, if_neg empty]
    rcases update_one_cases keyed.instances.unique
        (fun row : InstanceRow => row.id = id ∧
          row.generation = generation ∧ row.deletionRequested = false ∧
          (row.runtimeID = none ∨ row.runtimeID = some runtimeID))
        (fun row => { row with runtimeID := some runtimeID })
        (fun other _ held => held.1) (fun _ => rfl) with
      ⟨none, unchanged⟩ | ⟨row, member, held, one, replaced⟩
    · left
      rw [none, unchanged]
      exact ⟨.staleSnapshot, rfl⟩
    · obtain ⟨sameID, sameGeneration, live, stored⟩ := held
      refine .inr ⟨row, member, sameID, sameGeneration, live, empty, ?_⟩
      rw [one, replaced]
      rcases stored with absent | present
      · exact .inr ⟨absent, rfl⟩
      · left
        refine ⟨present, ?_⟩
        have same : { row with runtimeID := some runtimeID } = row := by
          rw [← present]
        rw [same, replace_self keyed.instances.unique member]
        rfl

theorem recordRuntimeID_refused {id : ID} {generation : Int}
    {runtimeID : RuntimeID} {failure : Failure}
    (refused : (store.recordRuntimeID id generation runtimeID).1 =
      .error failure) :
    (store.recordRuntimeID id generation runtimeID).2 = store := by
  rcases recordRuntimeID_cases keyed id generation runtimeID with
    ⟨_, same⟩ | ⟨_, _, -, -, -, -, ⟨-, same⟩ | ⟨-, same⟩⟩ <;>
    rw [same] at refused ⊢
  cases refused

/-- `RecordRuntimeID` is not refused for the unchanged, live generation. -/
theorem recordRuntimeID_accepts {row : InstanceRow} {runtimeID : RuntimeID}
    (member : row ∈ store.instances) (live : row.deletionRequested = false)
    (nonempty : runtimeID ≠ "")
    (stored : row.runtimeID = none ∨ row.runtimeID = some runtimeID) :
    (store.recordRuntimeID row.id row.generation runtimeID).1 = .ok () := by
  have one : (store.instances.filter fun other => other.id = row.id ∧
      other.generation = row.generation ∧ other.deletionRequested = false ∧
      (other.runtimeID = none ∨ other.runtimeID = some runtimeID)) =
        [row] := by
    apply keyed.instances.unique.filter_eq_singleton member
    intro other otherMember
    constructor
    · exact fun held => held.1
    · intro sameID
      obtain rfl := keyed.instances.unique.eq_of_mem otherMember member sameID
      exact ⟨rfl, rfl, live, stored⟩
  simp only [Store.recordRuntimeID, if_neg nonempty, one]
  rfl

/-- `RetainTerminatingRuntimeID` binds the identity to a row that is being
terminated and has none. -/
theorem retainTerminatingRuntimeID_cases (id : ID) (runtimeID : RuntimeID) :
    (∃ failure, store.retainTerminatingRuntimeID id runtimeID =
        (.error failure, store)) ∨
      ∃ row ∈ store.instances, row.id = id ∧ row.deletionRequested = true ∧
        runtimeID ≠ "" ∧ row.runtimeID = none ∧
        store.retainTerminatingRuntimeID id runtimeID =
          (.ok (), Edit.apply store (.setRuntimeID row runtimeID)) := by
  by_cases empty : runtimeID = ""
  · exact .inl ⟨_, by
      simp only [Store.retainTerminatingRuntimeID, if_pos empty]
      rfl⟩
  · simp only [Store.retainTerminatingRuntimeID, if_neg empty]
    rcases update_one_cases keyed.instances.unique
        (fun row : InstanceRow => row.id = id ∧
          row.deletionRequested = true ∧ row.runtimeID = none)
        (fun row => { row with runtimeID := some runtimeID })
        (fun other _ held => held.1) (fun _ => rfl) with
      ⟨none, unchanged⟩ | ⟨row, member, held, one, replaced⟩
    · left
      rw [none, unchanged]
      exact ⟨.staleSnapshot, rfl⟩
    · obtain ⟨sameID, requested, absent⟩ := held
      refine .inr ⟨row, member, sameID, requested, empty, absent, ?_⟩
      rw [one, replaced]
      rfl

end RuntimeIDs

theorem currentInstance_ok {snapshot current : Instance}
    (run : currentInstance snapshot store = .ok (current, final)) :
    final = store ∧
      store.getInstance snapshot.workspaceID snapshot.id = .ok current := by
  unfold currentInstance at run
  rw [get_bind_ok_iff] at run
  cases lookup : store.getInstance snapshot.workspaceID snapshot.id with
  | error failure => cases failure <;> simp [lookup] at run
  | ok found =>
      simp only [lookup, pure_ok_iff] at run
      obtain ⟨rfl, rfl⟩ := run
      exact ⟨rfl, rfl⟩

/-- The row and the interface a snapshot still describes. -/
structure Describes (store : Store) (snapshot : Instance)
    (row : InstanceRow) (eni : ENI) : Prop where
  member : row ∈ store.instances
  eniMember : eni ∈ store.enis
  owner : eni.instanceID = row.id
  same : sameInstanceDecision (row.snapshot eni) snapshot

theorem InstanceRow.withStatus_eq_iff {row : InstanceRow}
    {status : InstanceState} {reason : String} {observed : Bool} :
    row.withStatus status reason observed = row ↔
      row.state = status ∧ row.stateReason = reason ∧
        row.observedGeneration =
          if observed then row.generation else row.observedGeneration := by
  constructor
  · intro same
    exact ⟨(congrArg InstanceRow.state same).symm,
      (congrArg InstanceRow.stateReason same).symm,
      (congrArg InstanceRow.observedGeneration same).symm⟩
  · rintro ⟨rfl, rfl, generation⟩
    unfold InstanceRow.withStatus
    rw [← generation]

/-- The checks of `RecordInstance` on its arguments and on the row it
finds. -/
theorem runtimeStatus_of_checks {snapshot : Instance} {row : InstanceRow}
    {eni : ENI} {status : InstanceState} {observed : Bool}
    (same : sameInstanceDecision (row.snapshot eni) snapshot)
    (allowed : ¬ (status ≠ .running ∧ status ≠ .failed))
    (acceptable : ¬ (observed = true ∧ (status ≠ .running ∨
      snapshot.runtimeID = "" ∨ snapshot.deletionRequested = true))) :
    RuntimeStatus row status observed := by
  obtain ⟨-, -, -, sameFlag, -, -, sameRuntime, -⟩ := same
  refine ⟨by tauto, fun isObserved => ?_⟩
  simp only [isObserved, true_and, not_or, not_not,
    Bool.not_eq_true] at acceptable
  obtain ⟨running, bound, live⟩ := acceptable
  refine ⟨running, sameFlag.trans live, ?_⟩
  cases stored : row.runtimeID with
  | none =>
      simp only [InstanceRow.snapshot, stored, Option.getD_none] at sameRuntime
      exact absurd sameRuntime.symm bound
  | some runtimeID =>
      simp only [InstanceRow.snapshot, stored, Option.getD_some] at sameRuntime
      exact ⟨runtimeID, rfl, sameRuntime ▸ bound⟩

section Instances

variable (keyed : store.Keyed)

include keyed

theorem currentInstance_describes {snapshot current : Instance}
    (run : currentInstance snapshot store = .ok (current, final))
    (same : sameInstanceDecision current snapshot) :
    ∃ row eni, Describes store snapshot row eni ∧ final = store ∧
      current = row.snapshot eni ∧ row.workspaceID = defaultWorkspace ∧
      eni.workspaceID = row.workspaceID := by
  obtain ⟨unchanged, lookup⟩ := currentInstance_ok run
  obtain ⟨row, member, eni, eniMember, -, -, owner, workspace, rfl⟩ :=
    Store.getInstance_ok lookup
  exact ⟨row, eni, ⟨member, eniMember, owner, same⟩, unchanged, rfl,
    keyed.instances.workspace row member, workspace⟩

/-- `RecordInstance` writes a status the row accepts, or finds it there. -/
theorem recordInstance_ok {snapshot : Instance} {status : InstanceState}
    {reason : String} {observed : Bool} {now : Time} {result : Unit}
    (run : recordInstance snapshot status reason observed now store =
      .ok (result, final)) :
    ∃ row eni, Describes store snapshot row eni ∧
      RuntimeStatus row status observed ∧
      (row.withStatus status reason observed = row ∧ final = store ∨
        row.withStatus status reason observed ≠ row ∧
          final = Edit.apply store
            (.instanceStatus row eni status reason observed now.unix)) := by
  unfold recordInstance at run
  simp only [ite_ok_iff, bind_ok_iff, throw_ok_iff, false_and, exists_false,
    and_false, false_or, pure_ok_iff, not_not] at run
  obtain ⟨allowed, acceptable, current, _, found, same, rest⟩ := run
  obtain ⟨row, eni, describes, rfl, rfl, workspace, eniWorkspace⟩ :=
    currentInstance_describes keyed found same
  refine ⟨row, eni, describes,
    runtimeStatus_of_checks same allowed acceptable, ?_⟩
  rcases rest with ⟨unchanged, -, rfl⟩ | ⟨changes, _, _, first, rest⟩
  · exact .inl ⟨InstanceRow.withStatus_eq_iff.mpr unchanged, rfl⟩
  · refine .inr ⟨fun equal =>
      changes (InstanceRow.withStatus_eq_iff.mp equal), ?_⟩
    obtain rfl := updateInstanceStatus_ok keyed describes.member first
    have written := keyed.instances_replaced describes.member
      (row.withStatus status reason observed) rfl rfl rfl
    rcases rest with ⟨live, _, _, second, event⟩ | ⟨requested, event⟩
    · obtain rfl := updateInstanceENIStatus_ok written describes.eniMember
        eniWorkspace.symm second
      rw [appendEvent_ok event, Edit.apply, ENI.withStatus_live _ _ _ _
        (by simpa [InstanceRow.snapshot] using live), Store.log, ← workspace]
      rfl
    · have terminating : row.deletionRequested = true := requested
      rw [appendEvent_ok event, Edit.apply,
        ENI.withStatus_terminating _ _ _ _ terminating,
        replace_self keyed.enis.unique describes.eniMember, Store.log,
        ← workspace]
      rfl

theorem finishInstanceTermination_ok {snapshot : Instance} {now : Time}
    {result : Unit}
    (run : finishInstanceTermination snapshot now store =
      .ok (result, final)) :
    ∃ row eni, Describes store snapshot row eni ∧
      row.deletionRequested = true ∧
      final = Edit.apply store (.removeInstance row eni now.unix) := by
  unfold finishInstanceTermination at run
  simp only [ite_ok_iff, bind_ok_iff, throw_ok_iff, false_and, exists_false,
    and_false, false_or, not_or, not_not] at run
  obtain ⟨current, _, found, ⟨same, requested⟩, _, _, first, _, _, second,
    event⟩ := run
  obtain ⟨row, eni, describes, rfl, rfl, workspace, eniWorkspace⟩ :=
    currentInstance_describes keyed found same
  refine ⟨row, eni, describes, requested, ?_⟩
  obtain rfl := deleteInstanceENI_ok keyed describes.eniMember
    eniWorkspace.symm first
  have removed := keyed.eni_removed eni.id
  obtain rfl := deleteInstanceRow_ok removed describes.member second
  rw [appendEvent_ok event]
  simp only [Edit.apply, Store.log, ← workspace]
  rfl

end Instances

theorem appendEvent_not_stale (event : Event) :
    appendEvent event store ≠ .error .staleSnapshot := by
  simp [appendEvent, bind_error_iff]

theorem updateInstanceStatus_not_stale (id workspaceID : ID)
    (state : InstanceState) (reason : String) (observed : Int) :
    updateInstanceStatus id workspaceID state reason observed store ≠
      .error .staleSnapshot := by
  simp [updateInstanceStatus, bind_error_iff]

theorem updateInstanceENIStatus_not_stale (id workspaceID : ID)
    (state : State) (reason : String) (observed : Int) :
    updateInstanceENIStatus id workspaceID state reason observed store ≠
      .error .staleSnapshot := by
  simp [updateInstanceENIStatus, bind_error_iff]

theorem currentInstance_read {snapshot : Instance}
    (read : store.getInstance snapshot.workspaceID snapshot.id =
      .ok snapshot) :
    currentInstance snapshot store = .ok (snapshot, store) := by
  rw [currentInstance, get_bind, read]
  rfl

/-- A snapshot that is read back as it is, is not stale. -/
theorem recordInstance_not_stale {snapshot : Instance}
    {status : InstanceState} {reason : String} {observed : Bool} {now : Time}
    (read : store.getInstance snapshot.workspaceID snapshot.id =
      .ok snapshot) :
    recordInstance snapshot status reason observed now store ≠
      .error .staleSnapshot := by
  intro stale
  have same : sameInstanceDecision snapshot snapshot := by
    simp [sameInstanceDecision]
  unfold recordInstance at stale
  simp only [ite_error_iff, bind_error_iff, throw_error_iff, pure_error_iff,
    throw_ok_iff, false_and, exists_false, and_false, false_or, or_false,
    reduceCtorEq, currentInstance_read read, Except.ok.injEq,
    Prod.mk.injEq] at stale
  obtain ⟨-, -, _, _, ⟨rfl, rfl⟩, ⟨different, -⟩ | ⟨-, -, writes⟩⟩ := stale
  · exact different same
  · rcases writes with updated | ⟨_, _, -, ⟨-, eni | ⟨_, _, -, event⟩⟩ |
      ⟨-, event⟩⟩
    · exact updateInstanceStatus_not_stale _ _ _ _ _ updated
    · exact updateInstanceENIStatus_not_stale _ _ _ _ _ eni
    · exact appendEvent_not_stale _ event
    · exact appendEvent_not_stale _ event

theorem finishInstanceTermination_not_stale {snapshot : Instance}
    {now : Time}
    (read : store.getInstance snapshot.workspaceID snapshot.id =
      .ok snapshot) (requested : snapshot.deletionRequested = true) :
    finishInstanceTermination snapshot now store ≠
      .error .staleSnapshot := by
  intro stale
  have same : sameInstanceDecision snapshot snapshot := by
    simp [sameInstanceDecision]
  unfold finishInstanceTermination at stale
  simp only [ite_error_iff, bind_error_iff, throw_error_iff,
    throw_ok_iff, false_and, exists_false, false_or, or_false,
    reduceCtorEq, currentInstance_read read, Except.ok.injEq,
    Prod.mk.injEq] at stale
  obtain ⟨_, _, ⟨rfl, rfl⟩, ⟨different, -⟩ | ⟨-, writes⟩⟩ := stale
  · simp [same, requested] at different
  · rcases writes with eni | ⟨_, _, -, row | ⟨_, _, -, event⟩⟩
    · simp [deleteInstanceENI] at eni
    · simp [deleteInstanceRow, bind_error_iff] at row
    · exact appendEvent_not_stale _ event

end Nephos
