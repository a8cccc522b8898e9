import Nephos.Consistency
import Nephos.Network.Reservations

/-!
# The engine accepts what the service admits

The service checks blocks when they are requested, the engine checks the
rows again before it changes the kernel, and the two do it with different
code.  On the rows of a database that the writes can reach the engine's
checks never fail, so that no accepted resource is stuck.
-/

namespace Nephos

open Transaction

/-- The gateway of the service is the address the engine gives its router. -/
theorem Admissible.gateway_eq {cidr : Prefix} (block : Admissible cidr) :
    gateway cidr = cidr.addr.next := by
  rw [gateway, if_neg (by simp [block.valid, block.is4]), block.masked]

theorem Admissible.gateway_v4 {cidr : Prefix} (block : Admissible cidr) :
    ∃ ip : BitVec 32, gateway cidr = .v4 ip ∧ ip.toNat = cidr.first + 1 ∧
      cidr.contains (.v4 ip) = true := by
  rw [block.gateway_eq]
  exact block.next

theorem validateSubnetRange_contains {vpc subnet : Prefix}
    (vpcBlock : Admissible vpc) (block : Admissible subnet)
    (accepted : validateSubnetRange vpc subnet = .ok ()) :
    vpc.bits ≤ subnet.bits ∧ vpc.contains subnet.addr = true := by
  unfold validateSubnetRange at accepted
  split at accepted
  · cases accepted
  · rename_i checks
    simp only [not_or, not_not, Int.not_lt, vpcBlock.masked,
      block.masked] at checks
    exact ⟨checks.2.2.2.2.1, checks.2.2.2.2.2⟩

namespace Store.Sound

variable {store : Store} {vpc : VPC} {subnet left right : Subnet} {eni : ENI}

theorem subnetFits (sound : store.Sound) (vpcMember : vpc ∈ store.vpcs)
    (member : subnet ∈ store.subnets) (child : subnet.vpcID = vpc.id) :
    subnetFits vpc subnet := by
  have block := sound.topology.subnetBlock subnet member
  obtain ⟨parent, parentMember, parentID, -, range⟩ :=
    sound.topology.subnetParent subnet member
  obtain rfl := sound.keyed.vpcs.unique.eq_of_mem parentMember vpcMember
    (parentID.trans child)
  obtain ⟨longer, inside⟩ := validateSubnetRange_contains
    (sound.topology.vpcBlock parent parentMember) block range
  exact ⟨child, block.valid, block.is4, block.masked, longer, block.upper,
    inside⟩

theorem not_overlaps (sound : store.Sound) (leftMember : left ∈ store.subnets)
    (rightMember : right ∈ store.subnets) (different : left.id ≠ right.id)
    (siblings : left.vpcID = right.vpcID) :
    right.cidrBlock.overlaps left.cidrBlock = false := by
  by_contra holds
  rw [Bool.not_eq_false] at holds
  obtain ⟨address, inRight, inLeft⟩ := Prefix.overlaps_meet
    (sound.topology.subnetBlock right rightMember)
    (sound.topology.subnetBlock left leftMember) holds
  exact sound.subnets_disjoint leftMember rightMember different siblings
    address ⟨inLeft, inRight⟩

/-- The gateways of two subnets of a VPC lie in different blocks. -/
theorem gateways_ne (sound : store.Sound) (leftMember : left ∈ store.subnets)
    (rightMember : right ∈ store.subnets) (different : left.id ≠ right.id)
    (siblings : left.vpcID = right.vpcID) :
    gateway left.cidrBlock ≠ gateway right.cidrBlock := by
  intro same
  obtain ⟨ip, leftGateway, -, inLeft⟩ :=
    (sound.topology.subnetBlock left leftMember).gateway_v4
  obtain ⟨other, rightGateway, -, inRight⟩ :=
    (sound.topology.subnetBlock right rightMember).gateway_v4
  rw [leftGateway, rightGateway] at same
  rw [← same] at inRight
  exact sound.subnets_disjoint leftMember rightMember different siblings _
    ⟨inLeft, inRight⟩

/-- No interface of the VPC has the address of a gateway: in its own subnet
the first addresses are reserved, and the other blocks are disjoint. -/
theorem privateIP_ne_gateway (sound : store.Sound) (eniMember : eni ∈ store.enis)
    (leftMember : left ∈ store.subnets) (owner : left.id = eni.subnetID)
    (rightMember : right ∈ store.subnets) (siblings : left.vpcID = right.vpcID) :
    eni.privateIP ≠ gateway right.cidrBlock := by
  intro same
  obtain ⟨-, inLeft, lower, -⟩ :=
    sound.topology.eniAddress eni eniMember left leftMember owner
  obtain ⟨ip, isGateway, number, inRight⟩ :=
    (sound.topology.subnetBlock right rightMember).gateway_v4
  rw [same, isGateway] at inLeft lower
  by_cases sameSubnet : left.id = right.id
  · obtain rfl := sound.keyed.subnets.unique.eq_of_mem leftMember rightMember
      sameSubnet
    change left.cidrBlock.first + 4 ≤ ip.toNat at lower
    omega
  · exact sound.subnets_disjoint leftMember rightMember sameSubnet siblings _
      ⟨inLeft, inRight⟩

theorem desiredGateways_ok (sound : store.Sound) (vpcMember : vpc ∈ store.vpcs)
    {subnets : List Subnet} (unique : Unique Subnet.id subnets)
    (children : ∀ subnet ∈ subnets, subnet ∈ store.subnets ∧
      subnet.vpcID = vpc.id) :
    desiredGateways vpc subnets = .ok (List.insertionSort Addr.Le
      (subnets.map fun subnet => gateway subnet.cidrBlock)) := by
  have same : (subnets.map fun subnet => subnet.cidrBlock.addr.next) =
      subnets.map fun subnet => gateway subnet.cidrBlock := by
    refine List.map_congr_left fun subnet member => ?_
    have block := sound.topology.subnetBlock subnet (children subnet member).1
    exact block.gateway_eq.symm
  rw [← same]
  refine Nephos.desiredGateways_ok (sound.topology.vpcBlock vpc vpcMember)
    (fun subnet member => ?_) (unique.pairwise ?_)
  · obtain ⟨inside, child⟩ := children subnet member
    exact sound.subnetFits vpcMember inside child
  · intro left leftMember right rightMember different
    obtain ⟨leftInside, leftChild⟩ := children left leftMember
    obtain ⟨rightInside, rightChild⟩ := children right rightMember
    exact sound.not_overlaps leftInside rightInside different
      (leftChild.trans rightChild.symm)

/-- The sorted gateways are strictly increasing. -/
theorem gateways_increase (sound : store.Sound) {subnets : List Subnet}
    (unique : Unique Subnet.id subnets)
    (children : ∀ subnet ∈ subnets, subnet ∈ store.subnets ∧
      subnet.vpcID = vpc.id) :
    (List.insertionSort Addr.Le
      (subnets.map fun subnet => gateway subnet.cidrBlock)).Pairwise
        fun left right => left.compare right = .lt := by
  have permutes := List.perm_insertionSort Addr.Le
    (subnets.map fun subnet => gateway subnet.cidrBlock)
  have distinct : (subnets.map fun subnet =>
      gateway subnet.cidrBlock).Nodup := by
    refine List.pairwise_map.mpr (unique.pairwise ?_)
    intro left leftMember right rightMember different
    obtain ⟨leftInside, leftChild⟩ := children left leftMember
    obtain ⟨rightInside, rightChild⟩ := children right rightMember
    exact sound.gateways_ne leftInside rightInside different
      (leftChild.trans rightChild.symm)
  have v4 : ∀ address ∈ List.insertionSort Addr.Le
      (subnets.map fun subnet => gateway subnet.cidrBlock),
      ∃ ip, address = .v4 ip := by
    intro address member
    obtain ⟨subnet, subnetMember, rfl⟩ :=
      List.mem_map.mp (permutes.mem_iff.mp member)
    obtain ⟨ip, isGateway, -⟩ := (sound.topology.subnetBlock subnet
      (children subnet subnetMember).1).gateway_v4
    exact ⟨ip, isGateway⟩
  have sorted := List.pairwise_insertionSort Addr.Le
    (subnets.map fun subnet => gateway subnet.cidrBlock)
  refine (sorted.and (permutes.nodup_iff.mpr distinct)).imp_of_mem ?_
  rintro left right leftMember rightMember ⟨le, different⟩
  obtain ⟨leftIP, rfl⟩ := v4 left leftMember
  obtain ⟨rightIP, rfl⟩ := v4 right rightMember
  rw [Addr.le_v4] at le
  rw [Addr.compare_v4_eq_lt]
  refine Nat.lt_of_le_of_ne le fun same => different ?_
  rw [BitVec.eq_of_toNat_eq same]

theorem checkENI_ok (sound : store.Sound) (vpcMember : vpc ∈ store.vpcs)
    (member : subnet ∈ store.subnets) (child : subnet.vpcID = vpc.id)
    (eniMember : eni ∈ store.enis) (owner : subnet.id = eni.subnetID) :
    checkENI vpc subnet eni = .ok () := by
  have block := sound.topology.subnetBlock subnet member
  have assignable :=
    sound.topology.eniAddress eni eniMember subnet member owner
  have unreserved := (engineReserves_iff block).mpr assignable
  have alone : ∀ other ∈ [subnet], other ∈ store.subnets ∧
      other.vpcID = vpc.id := by
    intro other inside
    obtain rfl := List.mem_singleton.mp inside
    exact ⟨member, child⟩
  have single : Transaction.Unique Subnet.id [subnet] :=
    List.nodup_singleton _
  have eniWorkspace : eni.workspaceID = subnet.workspaceID :=
    (sound.keyed.enis.workspace eni eniMember).trans
      (sound.keyed.subnets.workspace subnet member).symm
  have subnetWorkspace : subnet.workspaceID = vpc.workspaceID :=
    (sound.keyed.subnets.workspace subnet member).trans
      (sound.keyed.vpcs.workspace vpc vpcMember).symm
  rw [checkENI, sound.desiredGateways_ok vpcMember single alone]
  simp [owner, eniWorkspace, subnetWorkspace, assignable.2.1, unreserved,
    bind, Except.bind, pure, Except.pure]

end Store.Sound

/-- In a database that the writes can reach, the engine accepts every VPC with
its subnets in any order and gives each subnet the gateway of the service,
which no interface of the VPC has, and it accepts the address of every
interface. -/
theorem topology_accepted {store : Store}
    (reachable : database.Reachable store) :
    (∀ vpc ∈ store.vpcs, vpc.deletionRequested = false →
      ∀ subnets : List Subnet,
        subnets.Perm (store.subnets.filter fun subnet =>
          subnet.vpcID = vpc.id ∧ subnet.deletionRequested = false) →
        ∃ gateways, desiredGateways vpc subnets = .ok gateways ∧
          gateways.length = subnets.length ∧
          (gateways.Pairwise fun left right => left.compare right = .lt) ∧
          gateways.Perm (subnets.map fun subnet =>
            gateway subnet.cidrBlock) ∧
          (∀ subnet ∈ subnets, ∃ ip, gateway subnet.cidrBlock = .v4 ip ∧
            ip.toNat = subnet.cidrBlock.first + 1) ∧
          ∀ eni ∈ store.enis, ∀ subnet ∈ store.subnets,
            subnet.id = eni.subnetID → subnet.vpcID = vpc.id →
              eni.privateIP ∉ gateways) ∧
    ∀ eni ∈ store.enis, ∃ subnet ∈ store.subnets, ∃ vpc ∈ store.vpcs,
      subnet.id = eni.subnetID ∧ vpc.id = subnet.vpcID ∧
        checkENI vpc subnet eni = .ok () := by
  have sound := database_reachable_sound reachable
  refine ⟨fun vpc vpcMember _ subnets permutes => ?_,
    fun eni eniMember => ?_⟩
  · have children : ∀ subnet ∈ subnets, subnet ∈ store.subnets ∧
        subnet.vpcID = vpc.id := by
      intro subnet member
      obtain ⟨inside, selected⟩ :=
        List.mem_filter.mp (permutes.mem_iff.mp member)
      rw [decide_eq_true_iff] at selected
      exact ⟨inside, selected.1⟩
    have unique : Unique Subnet.id subnets :=
      (permutes.map _).nodup_iff.mpr
        (sound.keyed.subnets.unique.sublist (List.filter_sublist.map _))
    have sorts := List.perm_insertionSort Addr.Le
      (subnets.map fun subnet => gateway subnet.cidrBlock)
    refine ⟨_, sound.desiredGateways_ok vpcMember unique children, ?_,
      sound.gateways_increase unique children, sorts, fun subnet member => ?_,
      fun eni eniMember subnet member owner child isGateway => ?_⟩
    · rw [sorts.length_eq, List.length_map]
    · obtain ⟨ip, isGateway, number, -⟩ := (sound.topology.subnetBlock subnet
        (children subnet member).1).gateway_v4
      exact ⟨ip, isGateway, number⟩
    · obtain ⟨other, otherMember, same⟩ :=
        List.mem_map.mp (sorts.mem_iff.mp isGateway)
      obtain ⟨otherInside, otherChild⟩ := children other otherMember
      exact sound.privateIP_ne_gateway eniMember member owner otherInside
        (child.trans otherChild.symm) same.symm
  · obtain ⟨subnet, member, owner, -⟩ := sound.eni_subnet eniMember
    obtain ⟨vpc, vpcMember, parentID, -⟩ :=
      sound.topology.subnetParent subnet member
    exact ⟨subnet, member, vpc, vpcMember, owner, parentID,
      sound.checkENI_ok vpcMember member parentID.symm eniMember owner⟩

/-- A second subnet below the first. -/
theorem firstStore_accepted :
    let store := Write.apply firstStore (.createSubnet
      { name := "low", vpcID := "vpc-01010101010101010"
        cidrBlock := "10.0.0.0/24", availabilityZone := "local-1a" } ""
      (List.replicate 9 5) 0)
    (store.subnets.map fun subnet => subnet.cidrBlock.text) =
        ["10.0.1.0/24", "10.0.0.0/24"] ∧
      ∀ vpc ∈ store.vpcs, ∃ gateways,
        desiredGateways vpc store.subnets = .ok gateways ∧
        (gateways.Pairwise fun left right => left.compare right = .lt) ∧
        (∀ subnet ∈ store.subnets, gateway subnet.cidrBlock ∈ gateways) ∧
        ∀ eni ∈ store.enis, ∃ subnet ∈ store.subnets,
          checkENI vpc subnet eni = .ok () := by
  intro store
  have rows : (store.subnets.map fun subnet => subnet.cidrBlock.text) =
        ["10.0.1.0/24", "10.0.0.0/24"] ∧
      ∀ vpc ∈ store.vpcs, vpc.deletionRequested = false ∧
        (∀ other ∈ store.vpcs, other = vpc) ∧
        ∀ subnet ∈ store.subnets, subnet.vpcID = vpc.id ∧
          subnet.deletionRequested = false := by
    decide +kernel
  have reachable : database.Reachable store := firstStore_reachable.step rfl
  clear_value store
  refine ⟨rows.1, fun vpc member => ?_⟩
  obtain ⟨live, only, children⟩ := rows.2 vpc member
  have permutes : store.subnets.Perm (store.subnets.filter fun subnet =>
      subnet.vpcID = vpc.id ∧ subnet.deletionRequested = false) := by
    rw [List.filter_eq_self.mpr fun subnet inside =>
      decide_eq_true (children subnet inside)]
  obtain ⟨accepts, checks⟩ := topology_accepted reachable
  obtain ⟨gateways, isOk, -, sorted, all, -⟩ :=
    accepts vpc member live _ permutes
  refine ⟨gateways, isOk, sorted, fun subnet inside =>
    all.mem_iff.mpr (List.mem_map_of_mem inside), fun eni eniMember => ?_⟩
  obtain ⟨subnet, inside, parent, parentMember, -, -, fine⟩ :=
    checks eni eniMember
  rw [only parent parentMember] at fine
  exact ⟨subnet, inside, fine⟩

end Nephos
