import Nephos.Writes

/-!
# Consistency of the stored network

The foreign keys of the schema only tie rows to rows.  What users rely on is
a statement about addresses: subnets partition a part of their VPC, every
instance has one interface with an assignable address of its subnet, and no
address of a VPC is leased twice.  It holds in every database that the
services and the reconcilers can produce, because a resource that is being
deleted never has anything below it.
-/

namespace Nephos

open Transaction

/-- The rows describe one consistent network. -/
structure Store.Consistent (store : Store) : Prop where
  subnetInVPC : ∀ subnet ∈ store.subnets, ∃ vpc ∈ store.vpcs,
    vpc.id = subnet.vpcID ∧ Admissible subnet.cidrBlock ∧
      ∀ address, subnet.cidrBlock.contains address = true →
        vpc.cidrBlock.contains address = true
  subnetsDisjoint : store.subnets.Pairwise fun left right =>
    left.vpcID = right.vpcID → ∀ address,
      ¬ (left.cidrBlock.contains address = true ∧
        right.cidrBlock.contains address = true)
  deletingVPCEmpty : ∀ vpc ∈ store.vpcs, vpc.deletionRequested = true →
    ∀ subnet ∈ store.subnets, subnet.vpcID ≠ vpc.id
  deletingSubnetEmpty : ∀ subnet ∈ store.subnets,
    subnet.deletionRequested = true →
      ∀ row ∈ store.instances, row.subnetID ≠ subnet.id
  instanceInSubnet : ∀ row ∈ store.instances, ∃ subnet ∈ store.subnets,
    subnet.id = row.subnetID
  oneENI : ∀ row ∈ store.instances, ∃ eni,
    (store.enis.filter fun eni => eni.instanceID = row.id) = [eni] ∧
      eni.subnetID = row.subnetID ∧ eni.workspaceID = row.workspaceID
  eniAddress : ∀ eni ∈ store.enis, ∃ subnet ∈ store.subnets,
    subnet.id = eni.subnetID ∧ Assignable subnet.cidrBlock eni.privateIP
  addressesDistinct : store.enis.Pairwise fun left right =>
    ∀ leftSubnet ∈ store.subnets, ∀ rightSubnet ∈ store.subnets,
      leftSubnet.id = left.subnetID → rightSubnet.id = right.subnetID →
        leftSubnet.vpcID = rightSubnet.vpcID →
          left.privateIP ≠ right.privateIP

namespace Store.Sound

variable {store : Store}

theorem subnets_disjoint (sound : store.Sound) {left right : Subnet}
    (leftMember : left ∈ store.subnets) (rightMember : right ∈ store.subnets)
    (different : left.id ≠ right.id) (siblings : left.vpcID = right.vpcID)
    (address : Addr) :
    ¬ (left.cidrBlock.contains address = true ∧
      right.cidrBlock.contains address = true) :=
  overlaps_false_disjoint (sound.topology.subnetBlock left leftMember)
    (sound.topology.subnetBlock right rightMember)
    (sound.topology.siblings left leftMember right rightMember different
      siblings) address

theorem eni_subnet (sound : store.Sound) {eni : ENI}
    (member : eni ∈ store.enis) :
    ∃ subnet ∈ store.subnets, subnet.id = eni.subnetID ∧
      Assignable subnet.cidrBlock eni.privateIP := by
  obtain ⟨row, rowMember, -, rowSubnet⟩ :=
    sound.topology.eniOwner eni member
  obtain ⟨subnet, subnetMember, parent, -⟩ :=
    sound.topology.instanceParent row rowMember
  have sameID := parent.trans rowSubnet
  exact ⟨subnet, subnetMember, sameID,
    sound.topology.eniAddress eni member subnet subnetMember sameID⟩

/-- Two interfaces in one VPC never hold one address: in one subnet the
allocator keeps them apart, in different subnets the blocks do. -/
theorem addresses_distinct (sound : store.Sound) {left right : ENI}
    {leftSubnet rightSubnet : Subnet}
    (leftMember : left ∈ store.enis) (rightMember : right ∈ store.enis)
    (different : left.id ≠ right.id)
    (leftSubnetMember : leftSubnet ∈ store.subnets)
    (rightSubnetMember : rightSubnet ∈ store.subnets)
    (leftID : leftSubnet.id = left.subnetID)
    (rightID : rightSubnet.id = right.subnetID)
    (sameVPC : leftSubnet.vpcID = rightSubnet.vpcID) :
    left.privateIP ≠ right.privateIP := by
  by_cases sameSubnet : leftSubnet.id = rightSubnet.id
  · exact sound.topology.leases left leftMember right rightMember different
      (leftID.symm.trans (sameSubnet.trans rightID))
  · intro sameIP
    have inLeft := (sound.topology.eniAddress left leftMember leftSubnet
      leftSubnetMember leftID).2.1
    have inRight := (sound.topology.eniAddress right rightMember rightSubnet
      rightSubnetMember rightID).2.1
    exact sound.subnets_disjoint leftSubnetMember rightSubnetMember sameSubnet
      sameVPC left.privateIP ⟨inLeft, sameIP ▸ inRight⟩

theorem one_eni (sound : store.Sound) {row : InstanceRow}
    (member : row ∈ store.instances) :
    ∃ eni, (store.enis.filter fun eni => eni.instanceID = row.id) = [eni] ∧
      eni.subnetID = row.subnetID ∧ eni.workspaceID = row.workspaceID := by
  obtain ⟨eni, eniMember, owner, subnet⟩ :=
    sound.topology.instanceENI row member
  refine ⟨eni, ?_, subnet, ?_⟩
  · apply sound.keyed.owners.filter_eq_singleton eniMember
    intro other _otherMember
    rw [owner]
  · rw [sound.keyed.enis.workspace eni eniMember,
      sound.keyed.instances.workspace row member]

theorem consistent (sound : store.Sound) : store.Consistent where
  subnetInVPC := by
    intro subnet member
    obtain ⟨vpc, vpcMember, parent, -, range⟩ :=
      sound.topology.subnetParent subnet member
    exact ⟨vpc, vpcMember, parent, sound.topology.subnetBlock subnet member,
      fun _ inside => validateSubnetRange_subset range inside⟩
  subnetsDisjoint := sound.keyed.subnets.unique.pairwise
    fun _ leftMember _ rightMember different siblings address =>
      sound.subnets_disjoint leftMember rightMember different siblings address
  deletingVPCEmpty := by
    intro vpc member requested subnet subnetMember child
    obtain ⟨parent, parentMember, parentID, live, -⟩ :=
      sound.topology.subnetParent subnet subnetMember
    have same := sound.keyed.vpcs.unique.eq_of_mem parentMember member
      (parentID.trans child)
    rw [same, requested] at live
    cases live
  deletingSubnetEmpty := by
    intro subnet member requested row rowMember child
    obtain ⟨parent, parentMember, parentID, live⟩ :=
      sound.topology.instanceParent row rowMember
    have same := sound.keyed.subnets.unique.eq_of_mem parentMember member
      (parentID.trans child)
    rw [same, requested] at live
    cases live
  instanceInSubnet := by
    intro row member
    obtain ⟨subnet, subnetMember, parent, -⟩ :=
      sound.topology.instanceParent row member
    exact ⟨subnet, subnetMember, parent⟩
  oneENI := fun _ member => sound.one_eni member
  eniAddress := fun _ member => sound.eni_subnet member
  addressesDistinct := sound.keyed.enis.unique.pairwise
    fun _ leftMember _ rightMember different _ leftSubnetMember _
      rightSubnetMember leftID rightID sameVPC =>
      sound.addresses_distinct leftMember rightMember different
        leftSubnetMember rightSubnetMember leftID rightID sameVPC

end Store.Sound

/-- Every database that the services and the reconcilers can produce, in any
interleaving of their transactions, is consistent. -/
theorem database_reachable_consistent {store : Store}
    (reachable : database.Reachable store) : store.Consistent :=
  (database_reachable_sound reachable).consistent

theorem firstStore_consistent :
    firstStore.instances.length = 1 ∧ firstStore.Consistent :=
  ⟨by decide +kernel, database_reachable_consistent firstStore_reachable⟩

end Nephos
