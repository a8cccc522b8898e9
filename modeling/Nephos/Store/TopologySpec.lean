import Nephos.Store.Spec

/-!
# What a recorded topology does

`RecordTopology` compares the rows with the snapshot its caller acted on and
then visits the VPC and its children once each.  The visits are edits of
different rows, so the order of the visits does not matter to the result.
-/

namespace Nephos

open Transaction Transition.System

variable {store final : Store} {state : State} {reason : String}
  {succeeded : Bool} {now : Time} {result : Unit}

theorem VPC.withStatus_eq_iff {row : VPC} :
    row.withStatus state reason succeeded = row ↔
      row.state = state ∧ row.stateReason = reason ∧
        row.observedGeneration =
          if succeeded then row.generation else row.observedGeneration := by
  constructor
  · intro same
    exact ⟨(congrArg VPC.state same).symm,
      (congrArg VPC.stateReason same).symm,
      (congrArg VPC.observedGeneration same).symm⟩
  · rintro ⟨rfl, rfl, generation⟩
    unfold VPC.withStatus
    rw [← generation]

theorem Subnet.withStatus_eq_iff {row : Subnet} :
    row.withStatus state reason succeeded = row ↔
      row.state = state ∧ row.stateReason = reason ∧
        row.observedGeneration =
          if succeeded then row.generation else row.observedGeneration := by
  constructor
  · intro same
    exact ⟨(congrArg Subnet.state same).symm,
      (congrArg Subnet.stateReason same).symm,
      (congrArg Subnet.observedGeneration same).symm⟩
  · rintro ⟨rfl, rfl, generation⟩
    unfold Subnet.withStatus
    rw [← generation]

/-- The edits of one visit to the VPC. -/
def vpcEdits (state : State) (reason : String) (succeeded : Bool)
    (time : Int) (row : VPC) : List Edit :=
  if row.withStatus state reason succeeded = row then []
  else [.vpcStatus row state reason succeeded time]

/-- The edits of one visit to a child. -/
def childEdits (state : State) (reason : String) (succeeded : Bool)
    (time : Int) (child : Subnet) : List Edit :=
  if child.deletionRequested ∧ succeeded then [.removeSubnet child time]
  else if child.withStatus state reason succeeded = child then []
  else [.subnetStatus child state reason succeeded time]

/-- The states that a success and a failure of the engine lead to. -/
def EngineOutcome (state : State) (reason : String) (succeeded : Bool) :
    Prop :=
  succeeded = true ∧ state = .available ∧ reason = "" ∨
    succeeded = false ∧ state = .failed

section Visits

variable (keyed : store.Keyed)

include keyed

theorem recordVPCStatus_run {vpc : VPC} (member : vpc ∈ store.vpcs)
    (status : EngineStatus state reason succeeded vpc.deletionRequested)
    (run : recordVPCStatus vpc state reason succeeded now store =
      .ok (result, final)) :
    edits.Run store (vpcEdits state reason succeeded now.unix vpc) final := by
  simp only [recordVPCStatus, ite_ok_iff, pure_ok_iff, bind_ok_iff] at run
  unfold vpcEdits
  rcases run with ⟨unchanged, -, rfl⟩ | ⟨changes, _, _, updated, event⟩
  · rw [if_pos (VPC.withStatus_eq_iff.mpr unchanged)]
    exact .nil _
  · have differs := mt VPC.withStatus_eq_iff.mp changes
    rw [if_neg differs]
    refine .single ⟨.vpcStatus member differs status, ?_⟩
    rw [appendEvent_ok event, updateVPCStatus_ok keyed member updated,
      Edit.apply, Store.log, ← keyed.vpcs.workspace vpc member]
    rfl

theorem recordSubnetStatus_run {subnet : Subnet}
    (member : subnet ∈ store.subnets)
    (status : EngineStatus state reason succeeded subnet.deletionRequested)
    (run : recordSubnetStatus subnet state reason succeeded now store =
      .ok (result, final)) :
    edits.Run store
      (if subnet.withStatus state reason succeeded = subnet then []
        else [.subnetStatus subnet state reason succeeded now.unix])
      final := by
  simp only [recordSubnetStatus, ite_ok_iff, pure_ok_iff, bind_ok_iff] at run
  rcases run with ⟨unchanged, -, rfl⟩ | ⟨changes, _, _, updated, event⟩
  · rw [if_pos (Subnet.withStatus_eq_iff.mpr unchanged)]
    exact .nil _
  · have differs := mt Subnet.withStatus_eq_iff.mp changes
    rw [if_neg differs]
    refine .single ⟨.subnetStatus member differs status, ?_⟩
    rw [appendEvent_ok event, updateSubnetStatus_ok keyed member updated,
      Edit.apply, Store.log, ← keyed.subnets.workspace subnet member]
    rfl

theorem recordChild_run {child : Subnet} (member : child ∈ store.subnets)
    (outcome : EngineOutcome state reason succeeded)
    (run : recordChild state reason succeeded now child store =
      .ok (result, final)) :
    edits.Run store (childEdits state reason succeeded now.unix child)
      final := by
  simp only [recordChild, ite_ok_iff, bind_ok_iff] at run
  unfold childEdits
  rcases run with ⟨removable, _, _, deleted, event⟩ | ⟨kept, recorded⟩
  · rw [if_pos removable]
    refine .single ⟨.removeSubnet member removable.1, ?_⟩
    rw [appendEvent_ok event, deleteSubnetRow_ok keyed member deleted,
      Edit.apply, Store.log, ← keyed.subnets.workspace child member]
  · rw [if_neg kept]
    apply recordSubnetStatus_run keyed member _ recorded
    rcases outcome with ⟨success, available, empty⟩ | ⟨failure, failed⟩
    · refine .inl ⟨success, available, empty, ?_⟩
      simpa [success] using kept
    · exact .inr ⟨failure, failed⟩

/-- A visit leaves every other row alone. -/
theorem childEdits_subnets {child : Subnet} (member : child ∈ store.subnets)
    {time : Int}
    (run : edits.Run store (childEdits state reason succeeded time child)
      final) (subnet : Subnet) :
    subnet ∈ final.subnets ↔
      subnet ∈ store.subnets ∧ subnet.id ≠ child.id ∨
        ¬ (child.deletionRequested = true ∧ succeeded = true) ∧
          subnet = child.withStatus state reason succeeded := by
  unfold childEdits at run
  by_cases removable : child.deletionRequested = true ∧ succeeded = true
  · rw [if_pos removable, Run.single_iff] at run
    rw [run.2]
    simp [Edit.apply, mem_remove_iff, removable]
  · rw [if_neg removable] at run
    have replaced : final.subnets = replace Subnet.id
        (child.withStatus state reason succeeded) store.subnets := by
      by_cases same : child.withStatus state reason succeeded = child
      · rw [if_pos same, Run.nil_iff] at run
        rw [run, same, replace_self keyed.subnets.unique member]
      · rw [if_neg same, Run.single_iff] at run
        rw [run.2]
        rfl
    have sameID : (child.withStatus state reason succeeded).id = child.id := rfl
    rw [replaced, mem_replace_iff member sameID]
    simp only [removable, not_false_eq_true, true_and]
    exact or_comm

end Visits

theorem Edit.Allowed.run_keyed {labels : List Edit}
    (run : edits.Run store labels final) (keyed : store.Keyed) :
    final.Keyed :=
  run.invariant Store.Keyed (fun held step => step.2 ▸ step.1.keyed held)
    keyed

/-- The visits of all children, in any order. -/
theorem each_recordChild_run {children : List Subnet} (keyed : store.Keyed)
    (members : ∀ child ∈ children, child ∈ store.subnets)
    (distinct : Unique Subnet.id children)
    (outcome : EngineOutcome state reason succeeded)
    (run : each (recordChild state reason succeeded now) children store =
      .ok (result, final)) :
    edits.Run store
        (children.flatMap (childEdits state reason succeeded now.unix))
        final ∧
      ∀ subnet, subnet ∈ final.subnets ↔
        subnet ∈ store.subnets ∧ (∀ child ∈ children, subnet.id ≠ child.id) ∨
          ∃ child ∈ children,
            ¬ (child.deletionRequested = true ∧ succeeded = true) ∧
              subnet = child.withStatus state reason succeeded := by
  induction children generalizing store with
  | nil =>
      rw [each_nil_ok_iff] at run
      rw [run]
      exact ⟨.nil _, by simp⟩
  | cons child children induction =>
      rw [each_cons_ok_iff] at run
      obtain ⟨middle, first, rest⟩ := run
      have member := members child List.mem_cons_self
      have visit := recordChild_run keyed member outcome first
      have effect := childEdits_subnets keyed member visit
      obtain ⟨apart, restDistinct⟩ := List.nodup_cons.mp distinct
      have others : ∀ other ∈ children, other.id ≠ child.id :=
        fun other inside same => apart (List.mem_map.mpr ⟨other, inside, same⟩)
      have later : ∀ other ∈ children, other ∈ middle.subnets := by
        intro other inside
        exact (effect other).mpr (.inl
          ⟨members other (List.mem_cons_of_mem _ inside),
            others other inside⟩)
      obtain ⟨loop, rows⟩ := induction (Edit.Allowed.run_keyed visit keyed)
        later restDistinct rest
      refine ⟨visit.append loop, ?_⟩
      intro subnet
      rw [rows subnet, effect subnet, List.forall_mem_cons]
      simp only [List.exists_mem_cons_iff]
      constructor
      · rintro (⟨⟨old, different⟩ | new, untouched⟩ | visited)
        · exact .inl ⟨old, different, untouched⟩
        · exact .inr (.inl new)
        · exact .inr (.inr visited)
      · rintro (⟨old, different, untouched⟩ | new | visited)
        · exact .inl ⟨.inl ⟨old, different⟩, untouched⟩
        · refine .inl ⟨.inr new, fun other inside same => ?_⟩
          rw [new.2] at same
          exact others other inside same.symm
        · exact .inr visited

/-- The rows that a snapshot still describes. -/
structure Matches (store : Store) (vpc : VPC) (subnets : List Subnet)
    (current : VPC) (children : List Subnet) : Prop where
  member : current ∈ store.vpcs
  id : current.id = vpc.id
  workspace : current.workspaceID = vpc.workspaceID
  generation : current.generation = vpc.generation
  requested : current.deletionRequested = vpc.deletionRequested
  index : current.shortIndex = vpc.shortIndex
  listed : store.listSubnetsByVPC vpc.id = .ok children
  same : sameDesiredChildren children subnets

/-- The state and the reason an engine result is recorded with. -/
def outcomeState (effectErr : Option String) : State :=
  if effectErr = none then .available else .failed

theorem engineOutcome (effectErr : Option String) :
    EngineOutcome (outcomeState effectErr) (effectErr.getD "")
      effectErr.isNone := by
  cases effectErr with
  | none => exact .inl ⟨rfl, rfl, rfl⟩
  | some reason => exact .inr ⟨rfl, rfl⟩

theorem vpcEdits_subnets {time : Int} {vpc : VPC}
    (run : edits.Run store (vpcEdits state reason succeeded time vpc) final) :
    final.subnets = store.subnets := by
  unfold vpcEdits at run
  split at run
  · rw [Run.nil_iff.mp run]
  · rw [(Run.single_iff.mp run).2]
    rfl

theorem recordTopology_ok (keyed : store.Keyed) {vpc : VPC}
    {subnets : List Subnet} {effectErr : Option String}
    (run : recordTopology vpc subnets effectErr now store =
      .ok (result, final)) :
    ∃ current children, Matches store vpc subnets current children ∧
      (vpc.deletionRequested = true ∧ effectErr = none ∧ children = [] ∧
          final = Edit.apply store (.removeVPC current now.unix) ∨
        ¬ (vpc.deletionRequested = true ∧ effectErr = none) ∧
          ∃ middle,
            edits.Run store (vpcEdits (outcomeState effectErr)
              (effectErr.getD "") effectErr.isNone now.unix current) middle ∧
            each (recordChild (outcomeState effectErr) (effectErr.getD "")
              effectErr.isNone now) children middle = .ok (result, final)) := by
  unfold recordTopology at run
  rw [get_bind_ok_iff] at run
  cases lookup : store.getVPC vpc.workspaceID vpc.id with
  | error failure => cases failure <;> simp [lookup] at run
  | ok current =>
      obtain ⟨member, sameID, workspace⟩ := Store.getVPC_ok lookup
      simp only [lookup, ite_ok_iff, bind_ok_iff, throw_ok_iff, false_and,
        exists_false, and_false, false_or, not_or, ne_eq, not_not] at run
      obtain ⟨⟨generation, requested, index⟩, value, _, ⟨rfl, rfl⟩, run⟩ :=
        run
      cases listed : store.listSubnetsByVPC vpc.id with
      | error failure => simp [listed] at run
      | ok children =>
          simp only [listed, ite_ok_iff, bind_ok_iff, throw_ok_iff, false_and,
            exists_false, and_false, false_or, not_not] at run
          obtain ⟨same, run⟩ := run
          refine ⟨current, children,
            ⟨member, sameID, workspace, generation, requested, index, listed,
              same⟩, ?_⟩
          rcases run with ⟨⟨deleting, success⟩, childless, _, _, removed,
            event⟩ | ⟨kept, _, middle, recorded, rest⟩
          · refine .inl ⟨deleting, success, childless, ?_⟩
            rw [appendEvent_ok event]
            rw [← sameID, ← workspace] at removed
            rw [deleteVPCRow_ok keyed member removed, Edit.apply, Store.log,
              ← keyed.vpcs.workspace current member, ← workspace, ← sameID,
              ← generation]
          · refine .inr ⟨kept, middle, ?_, rest⟩
            apply recordVPCStatus_run keyed member _ recorded
            rw [requested]
            rcases engineOutcome effectErr with
              ⟨success, available, empty⟩ | ⟨failure, failed⟩
            · refine .inl ⟨success, available, empty, ?_⟩
              rw [Option.isNone_iff_eq_none] at success
              simpa [success] using kept
            · exact .inr ⟨failure, failed⟩

theorem childEdits_touched {time : Int} (children : List Subnet) :
    ((children.flatMap (childEdits state reason succeeded time)).filterMap
        Edit.touched).Sublist
      (children.map fun child => ⟨.subnet, child.id⟩) := by
  induction children with
  | nil => exact .slnil
  | cons child children induction =>
      rw [List.flatMap_cons, List.filterMap_append, List.map_cons,
        ← List.singleton_append]
      apply List.Sublist.append _ induction
      unfold childEdits
      split
      · exact .refl _
      · split
        · exact List.nil_sublist _
        · exact .refl _

theorem vpcEdits_records {time : Int} {vpc : VPC} {edit : Edit}
    (member : edit ∈ vpcEdits state reason succeeded time vpc) :
    edit.Records vpc.id := by
  unfold vpcEdits at member
  split at member
  · cases member
  · rw [List.mem_singleton.mp member]
    rfl

theorem childEdits_records {time : Int} {child : Subnet} {edit : Edit}
    (member : edit ∈ childEdits state reason succeeded time child) :
    edit.Records child.vpcID := by
  unfold childEdits at member
  split at member
  · rw [List.mem_singleton.mp member]
    rfl
  · split at member
    · cases member
    · rw [List.mem_singleton.mp member]
      rfl

/-- Every recorded topology is a run of edits of different rows. -/
theorem recordTopology_run (keyed : store.Keyed) {vpc : VPC}
    {subnets : List Subnet} {effectErr : Option String}
    (run : recordTopology vpc subnets effectErr now store =
      .ok (result, final)) :
    ∃ labels, edits.Run store labels final ∧
      (labels.filterMap Edit.touched).Nodup ∧
      ∀ edit ∈ labels, edit.Records vpc.id := by
  obtain ⟨current, children, matched, removed | kept⟩ :=
    recordTopology_ok keyed run
  · obtain ⟨deleting, -, childless, rfl⟩ := removed
    refine ⟨_, .single ⟨.removeVPC matched.member
      (matched.requested.trans deleting) ?_, rfl⟩, List.nodup_singleton _,
      by simpa [Edit.Records] using matched.id⟩
    intro subnet member child
    have inside := (Store.mem_listSubnetsByVPC matched.listed).mpr
      ⟨member, child.trans matched.id⟩
    rw [childless] at inside
    cases inside
  · obtain ⟨-, middle, first, rest⟩ := kept
    have members : ∀ child ∈ children, child ∈ middle.subnets := by
      intro child inside
      rw [vpcEdits_subnets first]
      exact ((Store.mem_listSubnetsByVPC matched.listed).mp inside).1
    have distinct := Store.unique_listSubnetsByVPC keyed matched.listed
    obtain ⟨loop, -⟩ := each_recordChild_run
      (Edit.Allowed.run_keyed first keyed) members distinct
      (engineOutcome effectErr) rest
    have small : ((vpcEdits (outcomeState effectErr) (effectErr.getD "")
        effectErr.isNone now.unix current).filterMap Edit.touched).Sublist
          [⟨.vpc, current.id⟩] := by
      unfold vpcEdits
      split
      · exact List.nil_sublist _
      · exact .refl _
    have resources := List.Nodup.map
      (f := fun id : ID => (⟨.subnet, id⟩ : Resource))
      (fun left right same => congrArg Resource.id same) distinct
    rw [List.map_map] at resources
    refine ⟨_, first.append loop, ?_, ?_⟩
    · rw [List.filterMap_append]
      apply (small.append (childEdits_touched children)).nodup
      rw [List.singleton_append, List.nodup_cons]
      exact ⟨by simp, resources⟩
    · intro edit member
      rcases List.mem_append.mp member with onVPC | onChild
      · exact matched.id ▸ vpcEdits_records onVPC
      · obtain ⟨child, inside, onChild⟩ := List.mem_flatMap.mp onChild
        have parent :=
          ((Store.mem_listSubnetsByVPC matched.listed).mp inside).2
        exact parent ▸ childEdits_records onChild

end Nephos
