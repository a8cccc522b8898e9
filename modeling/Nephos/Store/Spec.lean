import Mathlib.Data.String.Basic
import Nephos.Topology

/-!
# What the statements do

One lemma for each read and write of the store, in the terms of `Edits`: what
a read that succeeds has found, and what the database is after a write that
succeeds.  The transactions are taken apart with these and not unfolded
further.
-/

namespace Nephos

open Transaction

variable {store final : Store}

theorem vpcFromRow_ok {row vpc : VPC} (decoded : vpcFromRow row = .ok vpc) :
    vpc = row := by
  unfold vpcFromRow at decoded
  split at decoded
  · cases decoded
    rfl
  · cases decoded

theorem subnetFromRow_ok {row subnet : Subnet}
    (decoded : subnetFromRow row = .ok subnet) : subnet = row := by
  unfold subnetFromRow at decoded
  split at decoded
  · cases decoded
    rfl
  · cases decoded

/-- What the decoded rows have in common with the rows. -/
theorem mapM_map {Row Out Key : Type} {decode : Row → Except Failure Out}
    {key : Out → Key} {column : Row → Key}
    (faithful : ∀ {row out}, decode row = .ok out → key out = column row)
    {rows : List Row} {outs : List Out}
    (decoded : rows.mapM decode = .ok outs) :
    outs.map key = rows.map column := by
  induction rows generalizing outs with
  | nil =>
      cases decoded
      rfl
  | cons row rows induction =>
      rw [List.mapM_cons] at decoded
      cases first : decode row with
      | error failure =>
          rw [first] at decoded
          cases decoded
      | ok out =>
          rw [first] at decoded
          cases rest : rows.mapM decode with
          | error failure =>
              rw [rest] at decoded
              cases decoded
          | ok others =>
              rw [rest] at decoded
              cases decoded
              rw [List.map_cons, List.map_cons, faithful first,
                induction rest]

theorem mapM_ok {Row Out : Type} {decode : Row → Except Failure Out}
    {view : Row → Out}
    (faithful : ∀ {row out}, decode row = .ok out → out = view row)
    {rows : List Row} {outs : List Out}
    (decoded : rows.mapM decode = .ok outs) : outs = rows.map view := by
  rw [← mapM_map faithful decoded, List.map_id']

theorem orderByID_sorted {Row : Type} {column : Row → ID} {rows : List Row}
    (unique : Unique column rows) :
    (orderByID column rows).Pairwise fun left right =>
      column left < column right := by
  have distinct : Unique column (orderByID column rows) :=
    ((List.perm_insertionSort _ rows).map column).nodup_iff.mpr unique
  have total : Std.Total fun left right : Row => column left ≤ column right :=
    ⟨fun left right => le_total (column left) (column right)⟩
  have trans : IsTrans Row fun left right => column left ≤ column right :=
    ⟨fun _ _ _ => le_trans⟩
  have sorted := List.pairwise_insertionSort
    (fun left right : Row => column left ≤ column right) rows
  exact (sorted.and (List.pairwise_map.mp distinct)).imp
    fun both => lt_of_le_of_ne both.1 both.2

/-- A row is on the first page, or after the last row of the page. -/
theorem mem_page {Row : Type} {column : Row → ID} {rows : List Row}
    (sorted : rows.Pairwise fun left right => column left < column right)
    {limit : Nat} (positive : 0 < limit) {row : Row} (member : row ∈ rows) :
    ∃ last, (rows.take limit).getLast? = some last ∧
      (row ∈ rows.take limit ∨ column last < column row) := by
  have nonempty : rows.take limit ≠ [] := by
    rw [ne_eq, List.take_eq_nil_iff, not_or]
    exact ⟨by omega, List.ne_nil_of_mem member⟩
  refine ⟨_, List.getLast?_eq_some_getLast nonempty, ?_⟩
  rw [← List.take_append_drop limit rows] at sorted member
  refine (List.mem_append.mp member).imp_right fun beyond => ?_
  exact (List.pairwise_append.mp sorted).2.2 _
    (List.getLast_mem nonempty) row beyond

namespace Store

theorem getVPC_ok {workspaceID id : ID} {vpc : VPC}
    (found : store.getVPC workspaceID id = .ok vpc) :
    vpc ∈ store.vpcs ∧ vpc.id = id ∧ vpc.workspaceID = workspaceID := by
  unfold getVPC at found
  split at found
  · cases found
  · rename_i row lookup
    rw [vpcFromRow_ok found]
    have holds := List.find?_some lookup
    rw [decide_eq_true_iff] at holds
    exact ⟨List.mem_of_find?_eq_some lookup, holds⟩

theorem getSubnet_ok {workspaceID id : ID} {subnet : Subnet}
    (found : store.getSubnet workspaceID id = .ok subnet) :
    subnet ∈ store.subnets ∧ subnet.id = id ∧
      subnet.workspaceID = workspaceID := by
  unfold getSubnet at found
  split at found
  · cases found
  · rename_i row lookup
    rw [subnetFromRow_ok found]
    have holds := List.find?_some lookup
    rw [decide_eq_true_iff] at holds
    exact ⟨List.mem_of_find?_eq_some lookup, holds⟩

/-- The children of a VPC are listed completely and in the order of their
identities. -/
theorem listSubnetsByVPC_ok {id : ID} {children : List Subnet}
    (listed : store.listSubnetsByVPC id = .ok children) :
    children = orderByID Subnet.id
      (store.subnets.filter fun row => row.vpcID = id) := by
  rw [mapM_ok subnetFromRow_ok listed, List.map_id']

theorem mem_listSubnetsByVPC {id : ID} {children : List Subnet}
    (listed : store.listSubnetsByVPC id = .ok children) {subnet : Subnet} :
    subnet ∈ children ↔ subnet ∈ store.subnets ∧ subnet.vpcID = id := by
  rw [listSubnetsByVPC_ok listed, mem_orderByID, List.mem_filter,
    decide_eq_true_iff]

theorem unique_listSubnetsByVPC (keyed : store.Keyed) {id : ID}
    {children : List Subnet}
    (listed : store.listSubnetsByVPC id = .ok children) :
    Unique Subnet.id children := by
  rw [listSubnetsByVPC_ok listed]
  have selected : Unique Subnet.id
      (store.subnets.filter fun row => row.vpcID = id) :=
    keyed.subnets.unique.sublist (List.filter_sublist.map _)
  exact ((List.perm_insertionSort _ _).map _).nodup_iff.mpr selected

theorem listVPCPage_ok {workspaceID afterID : ID} {limit : Nat}
    {page : List VPC}
    (listed : store.listVPCPage workspaceID afterID limit = .ok page) :
    page = (orderByID VPC.id (store.vpcs.filter fun row =>
      row.workspaceID = workspaceID ∧ afterID < row.id)).take limit := by
  rw [mapM_ok vpcFromRow_ok listed, List.map_id']

/-- A VPC after the cursor is on the page or after the page. -/
theorem listVPCPage_reaches (keyed : store.Keyed) {afterID : ID}
    {limit : Nat} (positive : 0 < limit) {page : List VPC}
    (listed : store.listVPCPage defaultWorkspace afterID limit = .ok page)
    {vpc : VPC} (member : vpc ∈ store.vpcs) (beyond : afterID < vpc.id) :
    ∃ last, page.getLast? = some last ∧
      (vpc ∈ page ∨ last.id < vpc.id) := by
  rw [listVPCPage_ok listed]
  apply mem_page _ positive
  · rw [mem_orderByID, List.mem_filter, decide_eq_true_iff]
    exact ⟨member, keyed.vpcs.workspace vpc member, beyond⟩
  · exact orderByID_sorted (keyed.vpcs.unique.sublist
      (List.filter_sublist.map _))

theorem getPrimaryENI_some {instanceID workspaceID : ID} {eni : ENI}
    (found : store.getPrimaryENI instanceID workspaceID = some eni) :
    eni ∈ store.enis ∧ eni.instanceID = instanceID ∧
      eni.workspaceID = workspaceID := by
  have holds := List.find?_some found
  rw [decide_eq_true_iff] at holds
  exact ⟨List.mem_of_find?_eq_some found, holds⟩

theorem instanceFromRow_ok {row : InstanceRow} {inst : Instance}
    (decoded : store.instanceFromRow row = .ok inst) :
    ∃ eni ∈ store.enis, eni.instanceID = row.id ∧
      eni.workspaceID = row.workspaceID ∧ inst = row.snapshot eni := by
  unfold instanceFromRow at decoded
  split at decoded
  · cases decoded
  · rename_i eni lookup
    obtain ⟨member, owner, workspace⟩ := getPrimaryENI_some lookup
    split at decoded
    · cases decoded
    · split at decoded
      · cases decoded
      · cases decoded
        exact ⟨eni, member, owner, workspace, rfl⟩

theorem getInstance_ok {workspaceID id : ID} {inst : Instance}
    (found : store.getInstance workspaceID id = .ok inst) :
    ∃ row ∈ store.instances, ∃ eni ∈ store.enis, row.id = id ∧
      row.workspaceID = workspaceID ∧ eni.instanceID = row.id ∧
      eni.workspaceID = row.workspaceID ∧ inst = row.snapshot eni := by
  unfold getInstance at found
  split at found
  · cases found
  · rename_i row lookup
    obtain ⟨eni, eniMember, owner, workspace, shape⟩ :=
      instanceFromRow_ok found
    have holds := List.find?_some lookup
    rw [decide_eq_true_iff] at holds
    exact ⟨row, List.mem_of_find?_eq_some lookup, eni, eniMember, holds.1,
      holds.2, owner, workspace, shape⟩

theorem eniAddress_ok {eni : ENI} {address : Addr}
    (decoded : eniAddress eni = .ok address) : address = eni.privateIP := by
  unfold eniAddress at decoded
  split at decoded
  · cases decoded
    rfl
  · cases decoded

/-- The allocator sees every lease of the subnet. -/
theorem eniAddresses_ok {subnetID : ID} {used : List Addr}
    (listed : store.eniAddresses subnetID = .ok used) :
    ∀ eni ∈ store.enis, eni.subnetID = subnetID → eni.privateIP ∈ used := by
  intro eni member same
  rw [mapM_ok eniAddress_ok listed]
  apply List.mem_map_of_mem
  rw [List.mem_filter, decide_eq_true_iff]
  exact ⟨member, same⟩

theorem getIdempotency_some {workspaceID : ID} {operation : Operation}
    {key : String} {record : Idempotency}
    (found : store.getIdempotency workspaceID operation key = some record) :
    record ∈ store.idempotency ∧
      record.slot = (workspaceID, operation, key) := by
  have holds := List.find?_some found
  rw [decide_eq_true_iff] at holds
  obtain ⟨workspace, sameOperation, sameKey⟩ := holds
  refine ⟨List.mem_of_find?_eq_some found, ?_⟩
  rw [Idempotency.slot, workspace, sameOperation, sameKey]

end Store

theorem allocateIndex_ok {kind : ResourceKind} {id : ID} {index : Int}
    (run : allocateIndex kind id store = .ok (index, final)) :
    store.Unused id ∧ index = store.indexSequence + 1 ∧
      final = store.withIndex kind id := by
  simp [allocateIndex] at run
  obtain ⟨unused, -, shape, number⟩ := run
  exact ⟨unused, number, shape⟩

theorem insertVPC_ok {row : VPC} {result : Unit}
    (run : insertVPC row store = .ok (result, final)) :
    final = { store with vpcs := store.vpcs ++ [{ row with
      state := .pending, stateReason := "", deletionRequested := false
      generation := 1, observedGeneration := 0 }] } := by
  simp [insertVPC] at run
  exact run.2.2.2.2.2

theorem insertSubnet_ok {row : Subnet} {result : Unit}
    (run : insertSubnet row store = .ok (result, final)) :
    final = { store with subnets := store.subnets ++ [{ row with
      state := .pending, stateReason := "", deletionRequested := false
      generation := 1, observedGeneration := 0 }] } := by
  simp [insertSubnet] at run
  exact run.2.2.2.2.2

theorem insertInstance_ok {row : InstanceRow} {result : Unit}
    (run : insertInstance row store = .ok (result, final)) :
    final = { store with instances := store.instances ++ [{ row with
      state := .pending, stateReason := "", deletionRequested := false
      generation := 1, observedGeneration := 0, runtimeID := none }] } := by
  simp [insertInstance] at run
  exact run.2.2.2.2.2

theorem insertENI_ok {row : ENI} {result : Unit}
    (run : insertENI row store = .ok (result, final)) :
    (∀ other ∈ store.enis, other.instanceID ≠ row.instanceID) ∧
      final = { store with enis := store.enis ++ [{ row with
        generation := 1, observedGeneration := 0, state := .pending
        stateReason := "" }] } := by
  simp [insertENI] at run
  obtain ⟨-, unique, -, shape⟩ := run
  exact ⟨fun other member => (unique other member).2.2.1, shape⟩

theorem appendEvent_ok {event : Event} {result : Unit}
    (run : appendEvent event store = .ok (result, final)) :
    final = store.withEvent event := by
  simp [appendEvent] at run
  exact run.2.2

theorem putIdempotency_ok {record : Idempotency} {result : Unit}
    (run : putIdempotency record store = .ok (result, final)) :
    final = Edit.apply store (.saveReplay record) := by
  simp [putIdempotency] at run
  rw [run.2, Edit.apply]
  congr 2
  apply delete_congr
  intro row _member
  simp [Idempotency.slot]

theorem saveReplay_ok {operation : Operation} {key hash : String}
    {resourceID : ID} {response : Response} {now : Time} {result : Unit}
    (run : saveReplay operation key hash resourceID response now store =
      .ok (result, final)) :
    key = "" ∧ final = store ∨
      key ≠ "" ∧ final = Edit.apply store (.saveReplay
        { workspaceID := defaultWorkspace, operation, key
          payloadHash := hash, resourceID, response, createdAt := now.unix
          expiresAt := Time.unix (now + 24 * hour) }) := by
  simp only [saveReplay, ite_ok_iff, pure_ok_iff] at run
  rcases run with ⟨unkeyed, -, same⟩ | ⟨keyedCreate, saved⟩
  · exact .inl ⟨unkeyed, same⟩
  · exact .inr ⟨keyedCreate, putIdempotency_ok saved⟩

/-- A keyed create finds an unexpired record of its key. -/
def Store.Live (store : Store) (operation : Operation) (key : String)
    (now : Time) (record : Idempotency) : Prop :=
  key ≠ "" ∧
    store.getIdempotency defaultWorkspace operation key = some record ∧
    now.unix < record.expiresAt

theorem loadReplay_ok {α : Type} {decode : Response → Option α}
    {operation : Operation} {key hash : String} {now : Time}
    {result : Option α}
    (run : loadReplay decode operation key hash now store =
      .ok (result, final)) :
    final = store ∧
      (result = none ∧ (∀ record, ¬ store.Live operation key now record) ∨
        ∃ record replay, result = some replay ∧
          store.Live operation key now record ∧
          record.payloadHash = hash ∧
          decode record.response = some replay) := by
  unfold loadReplay at run
  rw [ite_ok_iff] at run
  rcases run with ⟨unkeyed, run⟩ | ⟨keyedCreate, run⟩
  · simp only [pure_ok_iff] at run
    exact ⟨run.2, .inl ⟨run.1, fun record live => live.1 unkeyed⟩⟩
  · cases found : store.getIdempotency defaultWorkspace operation key with
    | none =>
        simp only [get_bind_ok_iff, found, pure_ok_iff] at run
        refine ⟨run.2, .inl ⟨run.1, fun record live => ?_⟩⟩
        rw [Store.Live, found] at live
        cases live.2.1
    | some record =>
        simp only [get_bind_ok_iff, found] at run
        simp only [ite_ok_iff, pure_ok_iff, ne_eq, bind_ok_iff, throw_ok_iff,
          false_and, exists_false, and_false, false_or, not_not] at run
        rcases run with ⟨expired, none, same⟩ | ⟨unexpired, sameHash, decoded⟩
        · refine ⟨same, .inl ⟨none, fun other live => ?_⟩⟩
          rw [Store.Live, found, Option.some.injEq] at live
          obtain ⟨-, rfl, alive⟩ := live
          omega
        · cases decoding : decode record.response with
          | none => simp only [decoding, throw_ok_iff] at decoded
          | some replay =>
              simp only [decoding, pure_ok_iff] at decoded
              exact ⟨decoded.2, .inr ⟨record, replay, decoded.1,
                ⟨keyedCreate, found, by omega⟩, sameHash, decoding⟩⟩

section Rows

variable {result : Unit} (keyed : store.Keyed)

include keyed

theorem updateVPCStatus_ok {row : VPC} (member : row ∈ store.vpcs)
    {state : State} {reason : String} {observed : Int}
    (run : updateVPCStatus row.id row.workspaceID state reason observed
      store = .ok (result, final)) :
    final = { store with
      vpcs := replace VPC.id { row with
        state, stateReason := reason, observedGeneration := observed }
        store.vpcs } := by
  simp [updateVPCStatus] at run
  rw [run.2, keyed.vpcs.update_row member rfl]

theorem updateSubnetStatus_ok {row : Subnet} (member : row ∈ store.subnets)
    {state : State} {reason : String} {observed : Int}
    (run : updateSubnetStatus row.id row.workspaceID state reason observed
      store = .ok (result, final)) :
    final = { store with
      subnets := replace Subnet.id { row with
        state, stateReason := reason, observedGeneration := observed }
        store.subnets } := by
  simp [updateSubnetStatus] at run
  rw [run.2, keyed.subnets.update_row member rfl]

theorem updateInstanceStatus_ok {row : InstanceRow} (member : row ∈ store.instances)
    {state : InstanceState} {reason : String} {observed : Int}
    (run : updateInstanceStatus row.id row.workspaceID state reason observed
      store = .ok (result, final)) :
    final = { store with
      instances := replace InstanceRow.id { row with
        state, stateReason := reason, observedGeneration := observed }
        store.instances } := by
  simp [updateInstanceStatus] at run
  rw [run.2, keyed.instances.update_row member rfl]

theorem updateInstanceENIStatus_ok {row : ENI} (member : row ∈ store.enis)
    {workspaceID : ID} (workspace : workspaceID = row.workspaceID)
    {state : State} {reason : String} {observed : Int}
    (run : updateInstanceENIStatus row.id workspaceID state reason observed
      store = .ok (result, final)) :
    final = { store with
      enis := replace ENI.id { row with
        state, stateReason := reason, observedGeneration := observed }
        store.enis } := by
  subst workspace
  simp [updateInstanceENIStatus] at run
  rw [run.2, keyed.enis.update_row member rfl]

theorem markVPCDeleting_ok {row : VPC} (member : row ∈ store.vpcs)
    (live : row.deletionRequested = false)
    (run : markVPCDeleting row.id row.workspaceID store = .ok (result, final)) :
    final = { store with
      vpcs := replace VPC.id row.marked store.vpcs } := by
  simp [markVPCDeleting] at run
  rw [run.2, keyed.vpcs.update_unmarked_row member rfl live]
  rfl

theorem markSubnetDeleting_ok {row : Subnet} (member : row ∈ store.subnets)
    (live : row.deletionRequested = false)
    (run : markSubnetDeleting row.id row.workspaceID store = .ok (result, final)) :
    final = { store with
      subnets := replace Subnet.id row.marked store.subnets } := by
  simp [markSubnetDeleting] at run
  rw [run.2, keyed.subnets.update_unmarked_row member rfl live]
  rfl

theorem markInstanceTerminating_ok {row : InstanceRow} (member : row ∈ store.instances)
    (live : row.deletionRequested = false)
    (run : markInstanceTerminating row.id row.workspaceID store = .ok (result, final)) :
    final = { store with
      instances := replace InstanceRow.id row.marked store.instances } := by
  simp [markInstanceTerminating] at run
  rw [run.2, keyed.instances.update_unmarked_row member rfl live]
  rfl

theorem deleteVPCRow_ok {row : VPC} (member : row ∈ store.vpcs)
    (run : deleteVPCRow row.id row.workspaceID store = .ok (result, final)) :
    final = { store with
      vpcs := remove VPC.id row.id store.vpcs } := by
  simp [deleteVPCRow] at run
  rw [run.2, keyed.vpcs.delete_row member]

theorem deleteSubnetRow_ok {row : Subnet} (member : row ∈ store.subnets)
    (run : deleteSubnetRow row.id row.workspaceID store = .ok (result, final)) :
    final = { store with
      subnets := remove Subnet.id row.id store.subnets } := by
  simp [deleteSubnetRow] at run
  rw [run.2, keyed.subnets.delete_row member]

theorem deleteInstanceENI_ok {row : ENI} (member : row ∈ store.enis)
    {workspaceID : ID} (workspace : workspaceID = row.workspaceID)
    (run : deleteInstanceENI row.id workspaceID store = .ok (result, final)) :
    final = { store with
      enis := remove ENI.id row.id store.enis } := by
  subst workspace
  simp [deleteInstanceENI] at run
  rw [run, keyed.enis.delete_row member]

theorem deleteInstanceRow_ok {row : InstanceRow} (member : row ∈ store.instances)
    (run : deleteInstanceRow row.id row.workspaceID store = .ok (result, final)) :
    final = { store with
      instances := remove InstanceRow.id row.id store.instances } := by
  simp [deleteInstanceRow] at run
  rw [run.2, keyed.instances.delete_row member]

end Rows

end Nephos
