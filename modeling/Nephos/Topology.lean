import Nephos.Keys

/-!
# The resource tree

Instances hang on subnets and subnets on VPCs, and a resource with a deletion
request has nothing below it.  Each clause holds the next one up: children
are added only below live parents, and a parent is marked only once it has
no children, so a marked parent never has any.
-/

namespace Nephos

open Transaction

/-- The foreign keys with what the service adds to them. -/
structure Store.Topology (store : Store) : Prop where
  vpcIdentified : ∀ vpc ∈ store.vpcs, vpc.id ≠ ""
  vpcBlock : ∀ vpc ∈ store.vpcs, Admissible vpc.cidrBlock
  subnetBlock : ∀ subnet ∈ store.subnets, Admissible subnet.cidrBlock
  subnetParent : ∀ subnet ∈ store.subnets, ∃ vpc ∈ store.vpcs,
    vpc.id = subnet.vpcID ∧ vpc.deletionRequested = false ∧
      validateSubnetRange vpc.cidrBlock subnet.cidrBlock = .ok ()
  siblings : Apart Subnet.id
    (fun left right => left.vpcID = right.vpcID →
      overlaps left.cidrBlock right.cidrBlock = false) store.subnets
  instanceParent : ∀ row ∈ store.instances, ∃ subnet ∈ store.subnets,
    subnet.id = row.subnetID ∧ subnet.deletionRequested = false
  instanceENI : ∀ row ∈ store.instances, ∃ eni ∈ store.enis,
    eni.instanceID = row.id ∧ eni.subnetID = row.subnetID
  eniOwner : ∀ eni ∈ store.enis, ∃ row ∈ store.instances,
    row.id = eni.instanceID ∧ row.subnetID = eni.subnetID
  eniAddress : ∀ eni ∈ store.enis, ∀ subnet ∈ store.subnets,
    subnet.id = eni.subnetID → Assignable subnet.cidrBlock eni.privateIP
  leases : Apart ENI.id
    (fun left right => left.subnetID = right.subnetID →
      left.privateIP ≠ right.privateIP) store.enis
  wire : ∀ eni ∈ store.enis, ∃ bytes, validENIMAC eni.macAddress = .ok bytes

namespace Store.Topology

variable {store : Store}

theorem empty : Store.empty.Topology := by
  constructor <;> simp [Store.empty, Apart]

/-- Only the four resource tables matter. -/
theorem of_tables (topology : store.Topology) {other : Store}
    (vpcs : other.vpcs = store.vpcs) (subnets : other.subnets = store.subnets)
    (instances : other.instances = store.instances)
    (enis : other.enis = store.enis) : other.Topology where
  vpcIdentified := vpcs ▸ topology.vpcIdentified
  vpcBlock := vpcs ▸ topology.vpcBlock
  subnetBlock := subnets ▸ topology.subnetBlock
  subnetParent := vpcs ▸ subnets ▸ topology.subnetParent
  siblings := subnets ▸ topology.siblings
  instanceParent := subnets ▸ instances ▸ topology.instanceParent
  instanceENI := instances ▸ enis ▸ topology.instanceENI
  eniOwner := instances ▸ enis ▸ topology.eniOwner
  eniAddress := subnets ▸ enis ▸ topology.eniAddress
  leases := enis ▸ topology.leases
  wire := enis ▸ topology.wire

theorem vpc_added (topology : store.Topology) {row : VPC}
    (identified : row.id ≠ "") (block : Admissible row.cidrBlock) :
    { store with vpcs := store.vpcs ++ [row] }.Topology :=
  { topology with
    vpcIdentified := forall_append topology.vpcIdentified identified
    vpcBlock := forall_append topology.vpcBlock block
    subnetParent := fun subnet member =>
      exists_append (topology.subnetParent subnet member) _ }

/-- A VPC row is replaced by one with the same block, and marked only if it
has no subnets. -/
theorem vpc_replaced (topology : store.Topology) (keyed : store.Keyed)
    {row : VPC} (replacement : VPC) (member : row ∈ store.vpcs)
    (sameID : replacement.id = row.id)
    (sameBlock : replacement.cidrBlock = row.cidrBlock)
    (marked : replacement.deletionRequested = row.deletionRequested ∨
      ∀ subnet ∈ store.subnets, subnet.vpcID ≠ row.id) :
    { store with vpcs := replace VPC.id replacement store.vpcs }.Topology :=
  { topology with
    vpcIdentified := forall_replace member sameID topology.vpcIdentified
      (sameID ▸ topology.vpcIdentified row member)
    vpcBlock := forall_replace member sameID topology.vpcBlock
      (sameBlock ▸ topology.vpcBlock row member)
    subnetParent := by
      intro subnet subnetMember
      apply exists_replace keyed.vpcs.unique member sameID
        (topology.subnetParent subnet subnetMember)
      rintro ⟨parent, live, range⟩
      rcases marked with sameFlag | childless
      · exact ⟨sameID.trans parent, sameFlag.trans live, sameBlock ▸ range⟩
      · exact absurd parent.symm (childless subnet subnetMember) }

theorem vpc_removed (topology : store.Topology) {id : ID}
    (childless : ∀ subnet ∈ store.subnets, subnet.vpcID ≠ id) :
    { store with vpcs := remove VPC.id id store.vpcs }.Topology :=
  { topology with
    vpcIdentified := fun vpc member =>
      topology.vpcIdentified vpc (mem_remove_iff.mp member).1
    vpcBlock := fun vpc member =>
      topology.vpcBlock vpc (mem_remove_iff.mp member).1
    subnetParent := by
      intro subnet member
      obtain ⟨vpc, vpcMember, parent, rest⟩ :=
        topology.subnetParent subnet member
      refine ⟨vpc, mem_remove_iff.mpr ⟨vpcMember, ?_⟩, parent, rest⟩
      exact parent ▸ childless subnet member }

theorem subnet_added (topology : store.Topology) (keyed : store.Keyed)
    {row : Subnet} {vpc : VPC} (parent : vpc ∈ store.vpcs)
    (parentID : row.vpcID = vpc.id)
    (parentLive : vpc.deletionRequested = false)
    (block : Admissible row.cidrBlock)
    (range : validateSubnetRange vpc.cidrBlock row.cidrBlock = .ok ())
    (disjoint : ∀ sibling ∈ store.subnets, sibling.vpcID = row.vpcID →
      overlaps row.cidrBlock sibling.cidrBlock = false)
    (unused : store.Unused row.id) :
    { store with subnets := store.subnets ++ [row] }.Topology :=
  { topology with
    subnetBlock := forall_append topology.subnetBlock block
    subnetParent := forall_append topology.subnetParent
      ⟨vpc, parent, parentID.symm, parentLive, range⟩
    siblings := topology.siblings.append
      (fun other member same => disjoint other member same.symm)
      (fun other member same => by
        rw [overlaps_comm]
        exact disjoint other member same)
    instanceParent := fun inst member =>
      exists_append (topology.instanceParent inst member) _
    eniAddress := by
      intro eni member
      apply forall_append (topology.eniAddress eni member)
      intro same
      obtain ⟨owner, ownerMember, -, ownerSubnet⟩ :=
        topology.eniOwner eni member
      obtain ⟨subnet, subnetMember, subnetID, -⟩ :=
        topology.instanceParent owner ownerMember
      exact absurd (subnetID.trans (ownerSubnet.trans same.symm))
        (keyed.subnets.fresh unused subnet subnetMember) }

/-- A subnet row is replaced by one with the same place, and marked only if
it has no instances. -/
theorem subnet_replaced (topology : store.Topology) (keyed : store.Keyed)
    {row : Subnet} (replacement : Subnet) (member : row ∈ store.subnets)
    (sameID : replacement.id = row.id)
    (sameVPC : replacement.vpcID = row.vpcID)
    (sameBlock : replacement.cidrBlock = row.cidrBlock)
    (marked : replacement.deletionRequested = row.deletionRequested ∨
      ∀ inst ∈ store.instances, inst.subnetID ≠ row.id) :
    { store with
      subnets := replace Subnet.id replacement store.subnets }.Topology :=
  { topology with
    subnetBlock := forall_replace member sameID topology.subnetBlock
      (sameBlock ▸ topology.subnetBlock row member)
    subnetParent := by
      apply forall_replace member sameID topology.subnetParent
      rw [sameVPC, sameBlock]
      exact topology.subnetParent row member
    siblings := by
      apply topology.siblings.replace member sameID
      · intro other
        rw [sameVPC, sameBlock]
        exact id
      · intro other
        rw [sameVPC, sameBlock]
        exact id
    instanceParent := by
      intro inst instMember
      apply exists_replace keyed.subnets.unique member sameID
        (topology.instanceParent inst instMember)
      rintro ⟨parent, live⟩
      rcases marked with sameFlag | childless
      · exact ⟨sameID.trans parent, sameFlag.trans live⟩
      · exact absurd parent.symm (childless inst instMember)
    eniAddress := by
      intro eni eniMember
      apply forall_replace member sameID (topology.eniAddress eni eniMember)
      rw [sameID, sameBlock]
      exact topology.eniAddress eni eniMember row member }

theorem subnet_removed (topology : store.Topology) (keyed : store.Keyed)
    {row : Subnet} (member : row ∈ store.subnets)
    (requested : row.deletionRequested = true) :
    { store with
      subnets := remove Subnet.id row.id store.subnets }.Topology :=
  { topology with
    subnetBlock := fun subnet inside =>
      topology.subnetBlock subnet (mem_remove_iff.mp inside).1
    subnetParent := fun subnet inside =>
      topology.subnetParent subnet (mem_remove_iff.mp inside).1
    siblings := topology.siblings.remove
    instanceParent := by
      intro inst instMember
      obtain ⟨subnet, subnetMember, parent, live⟩ :=
        topology.instanceParent inst instMember
      refine ⟨subnet, mem_remove_iff.mpr ⟨subnetMember, ?_⟩, parent, live⟩
      intro same
      rw [keyed.subnets.unique.eq_of_mem subnetMember member same,
        requested] at live
      cases live
    eniAddress := fun eni eniMember subnet inside =>
      topology.eniAddress eni eniMember subnet (mem_remove_iff.mp inside).1 }

theorem instance_added (topology : store.Topology) (keyed : store.Keyed)
    {row : InstanceRow} {eni : ENI} {subnet : Subnet}
    (parent : subnet ∈ store.subnets) (parentID : row.subnetID = subnet.id)
    (parentLive : subnet.deletionRequested = false)
    (owner : eni.instanceID = row.id)
    (eniSubnet : eni.subnetID = row.subnetID)
    (lease : Leases store subnet eni.privateIP)
    (mac : ∃ bytes, validENIMAC eni.macAddress = .ok bytes) :
    { store with
      instances := store.instances ++ [row]
      enis := store.enis ++ [eni] }.Topology := by
  obtain ⟨used, allocated, leased⟩ := lease
  obtain ⟨assignable, free⟩ := nextPrivateIP_spec allocated
  have subnetID : eni.subnetID = subnet.id := eniSubnet.trans parentID
  have different : ∀ other ∈ store.enis, eni.subnetID = other.subnetID →
      eni.privateIP ≠ other.privateIP := by
    intro other member same sameIP
    have inside := leased other member (same.symm.trans subnetID)
    exact free (sameIP ▸ inside)
  exact { topology with
    instanceParent := forall_append topology.instanceParent
      ⟨subnet, parent, parentID.symm, parentLive⟩
    instanceENI := forall_append
      (fun inst member => exists_append (topology.instanceENI inst member) _)
      ⟨eni, List.mem_append_right _ (List.mem_singleton.mpr rfl), owner,
        eniSubnet⟩
    eniOwner := forall_append
      (fun other member => exists_append (topology.eniOwner other member) _)
      ⟨row, List.mem_append_right _ (List.mem_singleton.mpr rfl),
        owner.symm, eniSubnet.symm⟩
    eniAddress := by
      apply forall_append topology.eniAddress
      intro other member same
      have identical := keyed.subnets.unique.eq_of_mem member parent
        (same.trans subnetID)
      rw [identical]
      exact assignable
    leases := topology.leases.append different
      fun other member same sameIP =>
        different other member same.symm sameIP.symm
    wire := forall_append topology.wire mac }

theorem instance_replaced (topology : store.Topology) (keyed : store.Keyed)
    {row : InstanceRow} (replacement : InstanceRow)
    (member : row ∈ store.instances)
    (sameID : replacement.id = row.id)
    (sameSubnet : replacement.subnetID = row.subnetID) :
    { store with
      instances := replace InstanceRow.id replacement
        store.instances }.Topology :=
  { topology with
    instanceParent := by
      apply forall_replace member sameID topology.instanceParent
      rw [sameSubnet]
      exact topology.instanceParent row member
    instanceENI := by
      apply forall_replace member sameID topology.instanceENI
      rw [sameID, sameSubnet]
      exact topology.instanceENI row member
    eniOwner := by
      intro eni eniMember
      apply exists_replace keyed.instances.unique member sameID
        (topology.eniOwner eni eniMember)
      rw [sameID, sameSubnet]
      exact id }

theorem eni_replaced (topology : store.Topology) (keyed : store.Keyed)
    {row : ENI} (replacement : ENI) (member : row ∈ store.enis)
    (sameID : replacement.id = row.id)
    (sameOwner : replacement.instanceID = row.instanceID)
    (sameSubnet : replacement.subnetID = row.subnetID)
    (sameIP : replacement.privateIP = row.privateIP)
    (sameMAC : replacement.macAddress = row.macAddress) :
    { store with
      enis := replace ENI.id replacement store.enis }.Topology :=
  { topology with
    instanceENI := by
      intro inst instMember
      apply exists_replace keyed.enis.unique member sameID
        (topology.instanceENI inst instMember)
      rw [sameOwner, sameSubnet]
      exact id
    eniOwner := by
      apply forall_replace member sameID topology.eniOwner
      rw [sameOwner, sameSubnet]
      exact topology.eniOwner row member
    eniAddress := by
      apply forall_replace member sameID topology.eniAddress
      rw [sameSubnet, sameIP]
      exact topology.eniAddress row member
    leases := by
      apply topology.leases.replace member sameID
      · intro other
        rw [sameSubnet, sameIP]
        exact id
      · intro other
        rw [sameSubnet, sameIP]
        exact id
    wire := by
      apply forall_replace member sameID topology.wire
      rw [sameMAC]
      exact topology.wire row member }

theorem instance_removed (topology : store.Topology) (keyed : store.Keyed)
    {row : InstanceRow} {eni : ENI} (eniMember : eni ∈ store.enis)
    (owner : eni.instanceID = row.id) :
    { store with
      instances := remove InstanceRow.id row.id store.instances
      enis := remove ENI.id eni.id store.enis }.Topology :=
  { topology with
    instanceParent := fun inst inside =>
      topology.instanceParent inst (mem_remove_iff.mp inside).1
    instanceENI := by
      intro inst inside
      obtain ⟨instMember, different⟩ := mem_remove_iff.mp inside
      obtain ⟨other, otherMember, otherOwner, rest⟩ :=
        topology.instanceENI inst instMember
      refine ⟨other, mem_remove_iff.mpr ⟨otherMember, ?_⟩, otherOwner, rest⟩
      intro same
      have identical := keyed.enis.unique.eq_of_mem otherMember eniMember same
      rw [identical] at otherOwner
      exact different (otherOwner.symm.trans owner)
    eniOwner := by
      intro other inside
      obtain ⟨otherMember, different⟩ := mem_remove_iff.mp inside
      obtain ⟨inst, instMember, instID, rest⟩ :=
        topology.eniOwner other otherMember
      refine ⟨inst, mem_remove_iff.mpr ⟨instMember, ?_⟩, instID, rest⟩
      intro same
      have identical := keyed.owners.eq_of_mem otherMember eniMember
        (instID.symm.trans (same.trans owner.symm))
      exact different (congrArg ENI.id identical)
    eniAddress := fun other inside =>
      topology.eniAddress other (mem_remove_iff.mp inside).1
    leases := topology.leases.remove
    wire := fun other inside =>
      topology.wire other (mem_remove_iff.mp inside).1 }

end Store.Topology

/-- Every edit keeps the tree. -/
theorem Edit.Allowed.topology {store : Store} {edit : Edit}
    (allowed : edit.Allowed store) (keyed : store.Keyed)
    (topology : store.Topology) : (edit.apply store).Topology := by
  cases allowed with
  | createVPC fresh block unused index =>
      exact (topology.vpc_added fresh.identified block).of_tables rfl rfl rfl rfl
  | @markVPC row time member live childless =>
      exact (topology.vpc_replaced keyed row.marked member rfl rfl
        (.inr childless)).of_tables rfl rfl rfl rfl
  | @vpcStatus row state reason succeeded time member changes status =>
      exact (topology.vpc_replaced keyed
        (row.withStatus state reason succeeded) member rfl rfl
        (.inl rfl)).of_tables rfl rfl rfl rfl
  | removeVPC member requested childless =>
      exact (topology.vpc_removed childless).of_tables rfl rfl rfl rfl
  | createSubnet parent parentID parentLive fresh block range disjoint unused
      index =>
      exact (topology.subnet_added keyed parent parentID parentLive block
        range disjoint unused).of_tables rfl rfl rfl rfl
  | @markSubnet row time member live childless =>
      exact (topology.subnet_replaced keyed row.marked member rfl rfl rfl
        (.inr childless)).of_tables rfl rfl rfl rfl
  | @subnetStatus row state reason succeeded time member changes status =>
      exact (topology.subnet_replaced keyed
        (row.withStatus state reason succeeded) member rfl rfl rfl
        (.inl rfl)).of_tables rfl rfl rfl rfl
  | removeSubnet member requested =>
      exact (topology.subnet_removed keyed member requested).of_tables
        rfl rfl rfl rfl
  | createInstance parent parentID parentLive fresh eniFresh owner single
      eniSubnet lease is4 mac unused eniUnused distinct index eniIndex =>
      exact (topology.instance_added keyed parent parentID parentLive owner
        eniSubnet lease mac).of_tables rfl rfl rfl rfl
  | @markInstance row time member live =>
      exact (topology.instance_replaced keyed row.marked member rfl
        rfl).of_tables rfl rfl rfl rfl
  | @instanceStatus row eni status reason observed time member eniMember owner
      changes accepted =>
      have first := topology.instance_replaced keyed
        (row.withStatus status reason observed) member rfl rfl
      have eniKeys := keyed.instances_replaced member
        (row.withStatus status reason observed) rfl rfl rfl
      exact (first.eni_replaced eniKeys
        (eni.withStatus row.deletionRequested reason observed) eniMember
        (by simp) (by simp) (by simp) (by simp) (by simp)).of_tables
        rfl rfl rfl rfl
  | removeInstance member eniMember owner requested =>
      exact (topology.instance_removed keyed eniMember owner).of_tables
        rfl rfl rfl rfl
  | @setRuntimeID row runtimeID member unset nonempty =>
      exact (topology.instance_replaced keyed
        { row with runtimeID := some runtimeID } member rfl rfl).of_tables
        rfl rfl rfl rfl
  | saveReplay workspace replaced =>
      exact topology.of_tables rfl rfl rfl rfl

end Nephos
