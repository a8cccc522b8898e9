import Nephos.Edits

/-!
# Keys

The resource tables share one allocation history.  Every row keeps the kernel
index it was given, an identity is given at most once, and so neither an
identity nor an index ever names two resources, also after one of them is
gone.
-/

namespace Nephos

open Transaction

variable {Row : Type} {kind : ResourceKind} {identity workspace : Row → ID}
  {index : Row → Int} {rows : List Row} {indexes : List KernelIndex}

/-- A resource table: no two rows share an identity, all rows belong to the
default workspace, and each row holds the index allocated to it. -/
structure Indexed (kind : ResourceKind) (identity workspace : Row → ID)
    (index : Row → Int) (rows : List Row) (indexes : List KernelIndex) :
    Prop where
  unique : Unique identity rows
  workspace : ∀ row ∈ rows, workspace row = defaultWorkspace
  allocated : ∀ row ∈ rows,
    { id := index row, kind, resourceID := identity row } ∈ indexes

namespace Indexed

theorem grow
    (table : Indexed kind identity workspace index rows indexes)
    (more : List KernelIndex) :
    Indexed kind identity workspace index rows (indexes ++ more) where
  unique := table.unique
  workspace := table.workspace
  allocated row member :=
    List.mem_append_left _ (table.allocated row member)

theorem fresh
    (table : Indexed kind identity workspace index rows indexes) {id : ID}
    (unused : ∀ index ∈ indexes, index.resourceID ≠ id) :
    ∀ row ∈ rows, identity row ≠ id :=
  fun row member => unused _ (table.allocated row member)

/-- A row with the index allocated to it just now. -/
theorem insert
    (table : Indexed kind identity workspace index rows indexes) {row : Row}
    {more : List KernelIndex}
    (unused : ∀ index ∈ indexes, index.resourceID ≠ identity row)
    (isDefault : workspace row = defaultWorkspace)
    (allocated :
      { id := index row, kind, resourceID := identity row } ∈ more) :
    Indexed kind identity workspace index (rows ++ [row])
      (indexes ++ more) where
  unique := table.unique.append_row (table.fresh unused)
  workspace := by
    intro other member
    rcases List.mem_append.mp member with old | new
    · exact table.workspace other old
    · rw [List.mem_singleton.mp new]
      exact isDefault
  allocated := by
    intro other member
    rcases List.mem_append.mp member with old | new
    · exact List.mem_append_left _ (table.allocated other old)
    · rw [List.mem_singleton.mp new]
      exact List.mem_append_right _ allocated

theorem replace
    (table : Indexed kind identity workspace index rows indexes)
    {row replacement : Row} (member : row ∈ rows)
    (sameIdentity : identity replacement = identity row)
    (sameWorkspace : workspace replacement = workspace row)
    (sameIndex : index replacement = index row) :
    Indexed kind identity workspace index
      (Transaction.replace identity replacement rows) indexes where
  unique := table.unique.replace
  workspace := forall_replace member sameIdentity table.workspace
    (sameWorkspace.trans (table.workspace row member))
  allocated := by
    apply forall_replace member sameIdentity table.allocated
    rw [sameIdentity, sameIndex]
    exact table.allocated row member

theorem remove
    (table : Indexed kind identity workspace index rows indexes) {id : ID} :
    Indexed kind identity workspace index
      (Transaction.remove identity id rows) indexes where
  unique := table.unique.remove
  workspace row member := table.workspace row (mem_remove_iff.mp member).1
  allocated row member := table.allocated row (mem_remove_iff.mp member).1

/-- `UPDATE … WHERE id = … AND workspace_id = …`. -/
theorem update_row
    (table : Indexed kind identity workspace index rows indexes) {row : Row}
    (member : row ∈ rows) {change : Row → Row}
    (same : identity (change row) = identity row) :
    update (fun other => identity other = identity row ∧
        workspace other = workspace row) change rows =
      Transaction.replace identity (change row) rows := by
  apply update_eq_replace table.unique member same
  intro other otherMember
  rw [table.workspace other otherMember, table.workspace row member]
  simp

/-- The same update, kept from a row that is already marked. -/
theorem update_unmarked_row
    (table : Indexed kind identity workspace index rows indexes) {row : Row}
    (member : row ∈ rows) {change : Row → Row} {marked : Row → Bool}
    (same : identity (change row) = identity row)
    (unmarked : marked row = false) :
    update (fun other => identity other = identity row ∧
        workspace other = workspace row ∧ marked other = false) change rows =
      Transaction.replace identity (change row) rows := by
  apply update_eq_replace table.unique member same
  intro other otherMember
  constructor
  · exact And.left
  · intro equal
    rw [table.unique.eq_of_mem otherMember member equal]
    exact ⟨rfl, rfl, unmarked⟩

/-- `DELETE … WHERE id = … AND workspace_id = …`. -/
theorem delete_row
    (table : Indexed kind identity workspace index rows indexes) {row : Row}
    (member : row ∈ rows) :
    delete (fun other => identity other = identity row ∧
        workspace other = workspace row) rows =
      Transaction.remove identity (identity row) rows := by
  apply delete_congr
  intro other otherMember
  rw [table.workspace other otherMember, table.workspace row member]
  simp

end Indexed

/-- What the primary keys, the unique columns and the index sequence
guarantee together. -/
structure Store.Keyed (store : Store) : Prop where
  vpcs : Indexed .vpc VPC.id VPC.workspaceID VPC.shortIndex store.vpcs
    store.kernelIndexes
  subnets : Indexed .subnet Subnet.id Subnet.workspaceID Subnet.shortIndex
    store.subnets store.kernelIndexes
  instances : Indexed .inst InstanceRow.id InstanceRow.workspaceID
    InstanceRow.shortIndex store.instances store.kernelIndexes
  enis : Indexed .eni ENI.id ENI.workspaceID ENI.shortIndex store.enis
    store.kernelIndexes
  owners : Unique ENI.instanceID store.enis
  bounded : ∀ index ∈ store.kernelIndexes,
    0 < index.id ∧ index.id ≤ store.indexSequence
  sequence : 0 ≤ store.indexSequence
  numbered : Unique KernelIndex.id store.kernelIndexes
  assigned : Unique KernelIndex.resourceID store.kernelIndexes
  replays : Unique Idempotency.slot store.idempotency
  replayWorkspace : ∀ record ∈ store.idempotency,
    record.workspaceID = defaultWorkspace

namespace Store.Keyed

variable {store : Store}

/-- Two rows of one kind with one index are one row. -/
theorem eq_of_index
    (keyed : store.Keyed)
    (table : Indexed kind identity workspace index rows store.kernelIndexes)
    {left right : Row} (leftMember : left ∈ rows) (rightMember : right ∈ rows)
    (same : index left = index right) : left = right := by
  have entry := keyed.numbered.eq_of_mem (table.allocated left leftMember)
    (table.allocated right rightMember) same
  exact table.unique.eq_of_mem leftMember rightMember
    (congrArg KernelIndex.resourceID entry)

/-- The allocation of an index keeps the history in order. -/
theorem withIndex_history
    (keyed : store.Keyed) (kind : ResourceKind) {id : ID}
    (unused : store.Unused id) :
    (∀ index ∈ (store.withIndex kind id).kernelIndexes,
        0 < index.id ∧ index.id ≤ (store.withIndex kind id).indexSequence) ∧
      Unique KernelIndex.id (store.withIndex kind id).kernelIndexes ∧
      Unique KernelIndex.resourceID
        (store.withIndex kind id).kernelIndexes := by
  have positive := keyed.sequence
  refine ⟨?_, ?_, ?_⟩
  · intro index member
    rcases List.mem_append.mp member with old | new
    · have bound := keyed.bounded index old
      exact ⟨bound.1, Int.le_trans bound.2 (by simp [withIndex])⟩
    · rw [List.mem_singleton.mp new]
      simp only [withIndex]
      omega
  · apply keyed.numbered.append_row
    intro index member
    have bound := (keyed.bounded index member).2
    simp only
    omega
  · exact keyed.assigned.append_row unused

/-- An allocation on its own. -/
theorem withIndex
    (keyed : store.Keyed) (kind : ResourceKind) {id : ID}
    (unused : store.Unused id) : (store.withIndex kind id).Keyed :=
  have history := keyed.withIndex_history kind unused
  { vpcs := keyed.vpcs.grow _
    subnets := keyed.subnets.grow _
    instances := keyed.instances.grow _
    enis := keyed.enis.grow _
    owners := keyed.owners
    bounded := history.1
    sequence := Int.le_add_one keyed.sequence
    numbered := history.2.1
    assigned := history.2.2
    replays := keyed.replays
    replayWorkspace := keyed.replayWorkspace }

theorem instances_replaced (keyed : store.Keyed) {row : InstanceRow}
    (member : row ∈ store.instances) (replacement : InstanceRow)
    (sameID : replacement.id = row.id)
    (sameWorkspace : replacement.workspaceID = row.workspaceID)
    (sameIndex : replacement.shortIndex = row.shortIndex) :
    { store with
      instances := replace InstanceRow.id replacement
        store.instances }.Keyed :=
  { keyed with
    instances :=
      keyed.instances.replace member sameID sameWorkspace sameIndex }

theorem eni_removed (keyed : store.Keyed) (id : ID) :
    { store with enis := remove ENI.id id store.enis }.Keyed :=
  { keyed with
    enis := keyed.enis.remove
    owners := keyed.owners.delete }

theorem empty : Store.empty.Keyed where
  vpcs := { unique := .nil, workspace := by simp [Store.empty]
            allocated := by simp [Store.empty] }
  subnets := { unique := .nil, workspace := by simp [Store.empty]
               allocated := by simp [Store.empty] }
  instances := { unique := .nil, workspace := by simp [Store.empty]
                 allocated := by simp [Store.empty] }
  enis := { unique := .nil, workspace := by simp [Store.empty]
            allocated := by simp [Store.empty] }
  owners := .nil
  bounded := by simp [Store.empty]
  sequence := Int.le_refl 0
  numbered := .nil
  assigned := .nil
  replays := .nil
  replayWorkspace := by simp [Store.empty]

end Store.Keyed

theorem Store.Unused.withIndex {store : Store} {kind : ResourceKind}
    {id other : ID} (unused : store.Unused id) (distinct : other ≠ id) :
    (store.withIndex kind other).Unused id := by
  intro index member
  rcases List.mem_append.mp member with old | new
  · exact unused index old
  · rw [List.mem_singleton.mp new]
    exact distinct

/-- Every edit keeps the keys. -/
theorem Edit.Allowed.keyed {store : Store} {edit : Edit}
    (allowed : edit.Allowed store) (keyed : store.Keyed) :
    (edit.apply store).Keyed := by
  cases allowed with
  | @createVPC row time fresh block unused index =>
      exact { keyed.withIndex .vpc unused with
        vpcs := keyed.vpcs.insert unused fresh.workspace
          (List.mem_singleton.mpr (by rw [index])) }
  | markVPC member live childless =>
      exact { keyed with vpcs := keyed.vpcs.replace member rfl rfl rfl }
  | vpcStatus member changes status =>
      exact { keyed with vpcs := keyed.vpcs.replace member rfl rfl rfl }
  | removeVPC member requested childless =>
      exact { keyed with vpcs := keyed.vpcs.remove }
  | @createSubnet row vpc time parent parentID parentLive fresh block range
      disjoint unused index =>
      exact { keyed.withIndex .subnet unused with
        subnets := keyed.subnets.insert unused fresh.workspace
          (List.mem_singleton.mpr (by rw [index])) }
  | markSubnet member live childless =>
      exact { keyed with subnets := keyed.subnets.replace member rfl rfl rfl }
  | subnetStatus member changes status =>
      exact { keyed with subnets := keyed.subnets.replace member rfl rfl rfl }
  | removeSubnet member requested =>
      exact { keyed with subnets := keyed.subnets.remove }
  | @createInstance row eni subnet time parent parentID parentLive fresh
      eniFresh owner single eniSubnet lease is4 mac unused eniUnused distinct
      index eniIndex =>
      have later : (store.withIndex .inst row.id).Unused eni.id :=
        eniUnused.withIndex distinct
      have indexed := keyed.withIndex .inst unused
      exact { indexed.withIndex .eni later with
        instances := (keyed.instances.insert unused fresh.workspace
          (List.mem_singleton.mpr (by rw [index]))).grow _
        enis := indexed.enis.insert later eniFresh.workspace
          (List.mem_singleton.mpr
            (by rw [eniIndex]; simp [Store.withIndex]; omega))
        owners := keyed.owners.append_row fun other member =>
          owner ▸ single other member }
  | markInstance member live =>
      exact { keyed with
        instances := keyed.instances.replace member rfl rfl rfl }
  | instanceStatus member eniMember owner changes accepted =>
      exact { keyed with
        instances := keyed.instances.replace member rfl rfl rfl
        enis := keyed.enis.replace eniMember (by simp) (by simp) (by simp)
        owners := keyed.owners.replace_other keyed.enis.unique eniMember
          (by simp) (by simp) }
  | removeInstance member eniMember owner requested =>
      exact { keyed with
        instances := keyed.instances.remove
        enis := keyed.enis.remove
        owners := keyed.owners.delete }
  | setRuntimeID member unset nonempty =>
      exact { keyed with
        instances := keyed.instances.replace member rfl rfl rfl }
  | @saveReplay record workspace replaced =>
      exact { keyed with
        replays := by
          apply keyed.replays.remove.append_row
          intro other member
          exact (mem_remove_iff.mp member).2
        replayWorkspace := by
          intro other member
          rcases List.mem_append.mp member with old | new
          · exact keyed.replayWorkspace other (mem_remove_iff.mp old).1
          · rw [List.mem_singleton.mp new]
            exact workspace }

end Nephos
