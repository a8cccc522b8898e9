import Nephos.Consistency

/-!
# Reads of a sound database

Every row of a database that the writes can reach is decoded, so a read fails
only when there is no row.
-/

namespace Nephos

open Transaction

theorem mapM_total {Row Out : Type} {decode : Row → Except Failure Out}
    {rows : List Row}
    (total : ∀ row ∈ rows, ∃ out, decode row = .ok out) :
    ∃ outs, rows.mapM decode = .ok outs := by
  induction rows with
  | nil => exact ⟨[], rfl⟩
  | cons row rows induction =>
      rw [List.forall_mem_cons] at total
      obtain ⟨out, decoded⟩ := total.1
      obtain ⟨outs, rest⟩ := induction total.2
      rw [List.mapM_cons, decoded, rest]
      exact ⟨out :: outs, rfl⟩

/-- A list is decoded, or one of its rows is not. -/
theorem mapM_error {Row Out : Type} {decode : Row → Except Failure Out}
    {allowed : Failure → Prop}
    (errors : ∀ {row failure}, decode row = .error failure → allowed failure)
    {rows : List Row} {failure : Failure}
    (failed : rows.mapM decode = .error failure) : allowed failure := by
  induction rows with
  | nil => cases failed
  | cons row rows induction =>
      rw [List.mapM_cons] at failed
      cases first : decode row with
      | error cause =>
          rw [first] at failed
          cases failed
          exact errors first
      | ok out =>
          rw [first] at failed
          cases rest : rows.mapM decode with
          | error cause =>
              rw [rest] at failed
              cases failed
              exact induction rest
          | ok outs =>
              rw [rest] at failed
              cases failed

namespace Store.Sound

variable {store : Store} (sound : store.Sound)

include sound

theorem vpcFromRow {vpc : VPC} (member : vpc ∈ store.vpcs) :
    Nephos.vpcFromRow vpc = .ok vpc := by
  have block := sound.topology.vpcBlock vpc member
  rw [Nephos.vpcFromRow, if_pos ⟨block.valid, block.is4⟩]

theorem subnetFromRow {subnet : Subnet} (member : subnet ∈ store.subnets) :
    Nephos.subnetFromRow subnet = .ok subnet := by
  have block := sound.topology.subnetBlock subnet member
  rw [Nephos.subnetFromRow, if_pos ⟨block.valid, block.is4⟩]

theorem instanceFromRow {row : InstanceRow}
    (member : row ∈ store.instances) :
    ∃ eni ∈ store.enis, eni.instanceID = row.id ∧
      store.instanceFromRow row = .ok (row.snapshot eni) := by
  obtain ⟨eni, eniMember, owner, -⟩ := sound.topology.instanceENI row member
  have workspace : eni.workspaceID = row.workspaceID :=
    (sound.keyed.enis.workspace eni eniMember).trans
      (sound.keyed.instances.workspace row member).symm
  cases found : store.getPrimaryENI row.id row.workspaceID with
  | none =>
      have missing := List.find?_eq_none.mp found eni eniMember
      exact absurd (decide_eq_true (And.intro owner workspace)) missing
  | some primary =>
      obtain ⟨inside, primaryOwner, -⟩ := getPrimaryENI_some found
      obtain ⟨subnet, -, -, assignable⟩ := sound.eni_subnet inside
      obtain ⟨bytes, valid⟩ := sound.topology.wire primary inside
      refine ⟨primary, inside, primaryOwner, ?_⟩
      rw [Store.instanceFromRow, found]
      simp only [assignable.1, not_true_eq_false, if_false, valid]

theorem getVPC_cases (id : ID) :
    (∃ vpc ∈ store.vpcs, vpc.id = id ∧
        store.getVPC defaultWorkspace id = .ok vpc) ∨
      (∀ vpc ∈ store.vpcs, vpc.id ≠ id) ∧
        store.getVPC defaultWorkspace id = .error .noRows := by
  unfold getVPC
  split
  · rename_i missing
    refine .inr ⟨fun vpc member same => ?_, rfl⟩
    exact List.find?_eq_none.mp missing vpc member (decide_eq_true
      ⟨same, sound.keyed.vpcs.workspace vpc member⟩)
  · rename_i vpc found
    have member := List.mem_of_find?_eq_some found
    have holds := List.find?_some found
    rw [decide_eq_true_iff] at holds
    exact .inl ⟨vpc, member, holds.1, sound.vpcFromRow member⟩

theorem getSubnet_cases (id : ID) :
    (∃ subnet ∈ store.subnets, subnet.id = id ∧
        store.getSubnet defaultWorkspace id = .ok subnet) ∨
      (∀ subnet ∈ store.subnets, subnet.id ≠ id) ∧
        store.getSubnet defaultWorkspace id = .error .noRows := by
  unfold getSubnet
  split
  · rename_i missing
    refine .inr ⟨fun subnet member same => ?_, rfl⟩
    exact List.find?_eq_none.mp missing subnet member (decide_eq_true
      ⟨same, sound.keyed.subnets.workspace subnet member⟩)
  · rename_i subnet found
    have member := List.mem_of_find?_eq_some found
    have holds := List.find?_some found
    rw [decide_eq_true_iff] at holds
    exact .inl ⟨subnet, member, holds.1, sound.subnetFromRow member⟩

theorem getInstance_cases (id : ID) :
    (∃ row ∈ store.instances, row.id = id ∧ ∃ eni ∈ store.enis,
        eni.instanceID = row.id ∧
          store.getInstance defaultWorkspace id = .ok (row.snapshot eni)) ∨
      (∀ row ∈ store.instances, row.id ≠ id) ∧
        store.getInstance defaultWorkspace id = .error .noRows := by
  unfold getInstance
  split
  · rename_i missing
    refine .inr ⟨fun row member same => ?_, rfl⟩
    exact List.find?_eq_none.mp missing row member (decide_eq_true
      ⟨same, sound.keyed.instances.workspace row member⟩)
  · rename_i row found
    have member := List.mem_of_find?_eq_some found
    have holds := List.find?_some found
    rw [decide_eq_true_iff] at holds
    exact .inl ⟨row, member, holds.1, sound.instanceFromRow member⟩

theorem listSubnetsByVPC_total (id : ID) :
    ∃ children, store.listSubnetsByVPC id = .ok children := by
  refine mapM_total fun subnet member => ⟨subnet, sound.subnetFromRow ?_⟩
  rw [mem_orderByID] at member
  exact (List.mem_filter.mp member).1

theorem listVPCPage_total (workspaceID afterID : ID) (limit : Nat) :
    ∃ page, store.listVPCPage workspaceID afterID limit = .ok page := by
  refine mapM_total fun vpc member => ⟨vpc, sound.vpcFromRow ?_⟩
  have listed := List.mem_of_mem_take member
  rw [mem_orderByID] at listed
  exact (List.mem_filter.mp listed).1

theorem listInstancePage_total (workspaceID afterID : ID) (limit : Nat) :
    ∃ page, store.listInstancePage workspaceID afterID limit = .ok page := by
  refine mapM_total fun row member => ?_
  have listed := List.mem_of_mem_take member
  rw [mem_orderByID] at listed
  obtain ⟨eni, -, -, decoded⟩ :=
    sound.instanceFromRow (List.mem_filter.mp listed).1
  exact ⟨_, decoded⟩

end Store.Sound

end Nephos
