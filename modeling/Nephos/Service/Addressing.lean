import Nephos.Service.Validate

/-!
# Blocks as sets of addresses

What the request checks guarantee about the addresses of the blocks they
accept: an admitted block is an aligned interval, an accepted subnet lies
inside its VPC, accepted siblings share no address, and a leased address is
one of the assignable addresses of its subnet.
-/

namespace Nephos

/-- The blocks the service admits. -/
structure Admissible (cidr : Prefix) : Prop where
  valid : cidr.isValid = true
  is4 : cidr.addr.is4 = true
  lower : 16 ≤ cidr.bits
  upper : cidr.bits ≤ 28
  masked : cidr.masked = cidr

/-- The number of an IPv4 block's first address. -/
def Prefix.first (cidr : Prefix) : Nat := cidr.addr.toNat

/-- The number of an IPv4 block's last address. -/
def Prefix.last (cidr : Prefix) : Nat :=
  cidr.addr.toNat + 2 ^ (32 - cidr.length) - 1

/-- The addresses that instances can lease: not the first four, and not the
last one. -/
def Assignable (cidr : Prefix) (address : Addr) : Prop :=
  address.is4 = true ∧ cidr.contains address = true ∧
    cidr.first + 4 ≤ address.toNat ∧ address.toNat + 1 ≤ cidr.last

section Blocks

variable {cidr vpc subnet left right : Prefix} {base : BitVec 32}

theorem Prefix.canonical_aligned (addr : cidr.addr = .v4 base)
    (valid : cidr.isValid = true) (masked : cidr.masked = cidr) :
    Block.start (32 - cidr.length) base.toNat = base.toNat := by
  have maskedAddr := (Prefix.masked_valid addr valid).1
  rw [masked, addr, Addr.v4.injEq] at maskedAddr
  calc
    Block.start (32 - cidr.length) base.toNat
        = (Addr.maskLow base cidr.length).toNat := by
          rw [Addr.maskLow, Block.toNat_shift]
    _ = base.toNat := by rw [← maskedAddr]

theorem Prefix.masked_masked (addr : cidr.addr = .v4 base)
    (valid : cidr.isValid = true) : cidr.masked.masked = cidr.masked := by
  obtain ⟨maskedAddr, maskedValid, maskedLength⟩ :=
    Prefix.masked_valid addr valid
  have idempotent : Addr.maskLow (Addr.maskLow base cidr.length) cidr.length =
      Addr.maskLow base cidr.length := by
    apply BitVec.eq_of_toNat_eq
    unfold Addr.maskLow
    rw [Block.toNat_shift, Block.toNat_shift]
    exact Block.start_eq_of_same (Block.same_start _ _)
  rw [Prefix.masked_v4 maskedAddr maskedValid, maskedLength, idempotent,
    Prefix.masked_v4 addr valid]

theorem parseCIDR_admissible {raw : String}
    (parsed : parseCIDR raw = .ok cidr) : Admissible cidr := by
  unfold parseCIDR at parsed
  cases found : Netip.parsePrefix raw with
  | none => simp [found] at parsed
  | some original =>
      simp only [found] at parsed
      split at parsed
      · cases parsed
      · rename_i accepted
        simp only [not_or, not_not, Int.not_lt] at accepted
        obtain ⟨is4, lower, upper⟩ := accepted
        cases parsed
        obtain ⟨base, addr⟩ := Addr.is4_iff.mp is4
        have valid : original.isValid = true := by
          simp only [Prefix.bits] at lower
          simp only [Prefix.isValid, bne_iff_ne]
          omega
        obtain ⟨maskedAddr, maskedValid, maskedLength⟩ :=
          Prefix.masked_valid addr valid
        have sameBits : original.masked.bits = original.bits := by
          rw [Prefix.bits_eq_length maskedValid, maskedLength,
            Prefix.bits_eq_length valid]
        exact
          { valid := maskedValid
            is4 := by rw [maskedAddr]; rfl
            lower := sameBits ▸ lower
            upper := sameBits ▸ upper
            masked := Prefix.masked_masked addr valid }

/-- An accepted subnet lies inside its VPC. -/
theorem validateSubnetRange_subset
    (accepted : validateSubnetRange vpc subnet = .ok ()) {address : Addr}
    (inside : subnet.contains address = true) :
    vpc.contains address = true := by
  unfold validateSubnetRange at accepted
  split at accepted
  · cases accepted
  · rename_i checks
    simp only [not_or, not_not, Int.not_lt] at checks
    obtain ⟨vpcValid, subnetValid, vpcIs4, subnetIs4, shorter, holds⟩ := checks
    obtain ⟨vpcBase, vpcAddr⟩ := Addr.is4_iff.mp vpcIs4
    obtain ⟨subnetBase, subnetAddr⟩ := Addr.is4_iff.mp subnetIs4
    have nested : vpc.length ≤ subnet.length := by
      rw [Prefix.bits_eq_length vpcValid,
        Prefix.bits_eq_length subnetValid] at shorter
      omega
    obtain ⟨maskedVPC, maskedVPCValid, maskedVPCLength⟩ :=
      Prefix.masked_valid vpcAddr vpcValid
    obtain ⟨maskedSubnet, maskedSubnetValid, maskedSubnetLength⟩ :=
      Prefix.masked_valid subnetAddr subnetValid
    rw [maskedSubnet] at holds
    rw [← Prefix.masked_contains vpcAddr vpcValid]
    rw [← Prefix.masked_contains subnetAddr subnetValid] at inside
    exact Prefix.contains_of_nested maskedVPC maskedSubnet maskedVPCValid
      maskedSubnetValid (by omega) holds inside

/-- Accepted siblings share no address. -/
theorem overlaps_false_disjoint (leftBlock : Admissible left)
    (rightBlock : Admissible right) (apart : overlaps left right = false)
    (address : Addr) :
    ¬ (left.contains address = true ∧ right.contains address = true) := by
  rintro ⟨inLeft, inRight⟩
  obtain ⟨leftBase, leftAddr⟩ := Addr.is4_iff.mp leftBlock.is4
  obtain ⟨rightBase, rightAddr⟩ := Addr.is4_iff.mp rightBlock.is4
  have meet := Prefix.contains_base_of_meet leftAddr rightAddr leftBlock.valid
    rightBlock.valid inLeft inRight
  simp [overlaps, leftBlock.valid, rightBlock.valid, leftBlock.is4,
    rightBlock.is4, leftBlock.masked, rightBlock.masked] at apart
  rw [leftAddr, rightAddr] at apart
  rcases meet with holds | holds
  · rw [apart.1] at holds
    cases holds
  · rw [apart.2] at holds
    cases holds

theorem overlaps_comm (left right : Prefix) :
    overlaps left right = overlaps right left := by
  unfold overlaps
  by_cases invalid : ¬ left.isValid ∨ ¬ right.isValid ∨ ¬ left.addr.is4 ∨
      ¬ right.addr.is4
  · rw [if_pos invalid, if_pos (by tauto)]
  · rw [if_neg invalid, if_neg (by tauto), Bool.or_comm]

end Blocks

section Allocator

variable {cidr : Prefix} {base : BitVec 32} {used : List Addr}

theorem Addr.next_v4 (ip : BitVec 32) (below : ip.toNat + 1 < 2 ^ 32) :
    ∃ following : BitVec 32, (Addr.v4 ip).next = .v4 following ∧
      following.toNat = ip.toNat + 1 := by
  have successor : (ip + 1).toNat = ip.toNat + 1 := by
    rw [BitVec.toNat_add]
    exact Nat.mod_eq_of_lt (by simpa using below)
  refine ⟨ip + 1, ?_, successor⟩
  rw [Addr.next, if_neg]
  intro zero
  have numbers := congrArg BitVec.toNat zero
  rw [successor] at numbers
  simp at numbers

theorem Addr.toNat_of_next {ip following : BitVec 32}
    (isNext : (Addr.v4 ip).next = .v4 following) :
    following.toNat = ip.toNat + 1 := by
  rw [Addr.next] at isNext
  split at isNext
  · cases isNext
  · rename_i positive
    cases isNext
    bv_omega

/-- The loop stops at an address that is free, and before the broadcast
address. -/
theorem firstFree_spec {broadcast : BitVec 32} {fuel : Nat}
    {current : BitVec 32} {address : Addr}
    (below : current.toNat ≤ broadcast.toNat)
    (found : firstFree (.v4 broadcast) used fuel (.v4 current) =
      some address) :
    address ∉ used ∧ address.is4 = true ∧
      current.toNat ≤ address.toNat ∧ address.toNat < broadcast.toNat := by
  induction fuel generalizing current with
  | zero => cases found
  | succ fuel induction =>
      rw [firstFree] at found
      split at found
      · cases found
      · rename_i different
        have strict : current.toNat < broadcast.toNat := by
          rcases Nat.lt_or_eq_of_le below with strict | equal
          · exact strict
          · exact absurd (congrArg Addr.v4 (BitVec.eq_of_toNat_eq equal))
              different
        split at found
        · obtain ⟨following, next, number⟩ :=
            Addr.next_v4 current (by have := broadcast.isLt; omega)
          rw [next] at found
          obtain ⟨free, is4, lower, upper⟩ := induction (by omega) found
          exact ⟨free, is4, by omega, upper⟩
        · rename_i free
          cases found
          exact ⟨free, rfl, Nat.le_refl _, strict⟩

/-- An admitted block is a whole interval of at least sixteen addresses. -/
theorem Admissible.interval (block : Admissible cidr)
    (addr : cidr.addr = .v4 base) :
    cidr.first = base.toNat ∧
      Block.start (32 - cidr.length) base.toNat = base.toNat ∧
      16 ≤ 2 ^ (32 - cidr.length) ∧
      base.toNat + 2 ^ (32 - cidr.length) ≤ 2 ^ 32 := by
  have aligned := Prefix.canonical_aligned addr block.valid block.masked
  have upper := block.upper
  have lower := block.lower
  rw [Prefix.bits_eq_length block.valid] at upper lower
  refine ⟨by rw [Prefix.first, addr]; rfl, aligned, ?_, ?_⟩
  · have exponent : 4 ≤ 32 - cidr.length := by omega
    exact Nat.pow_le_pow_right (n := 2) (by decide) exponent
  · exact Block.start_add_le (by omega) base.isLt aligned

theorem Admissible.contains_iff (block : Admissible cidr)
    (addr : cidr.addr = .v4 base) {ip : BitVec 32} :
    cidr.contains (.v4 ip) = true ↔ base.toNat ≤ ip.toNat ∧
      ip.toNat < base.toNat + 2 ^ (32 - cidr.length) := by
  rw [Prefix.contains_v4_iff addr block.valid, Block.same_iff_interval,
    (block.interval addr).2.1]

/-- The address after the first one belongs to the block. -/
theorem Admissible.next (block : Admissible cidr) :
    ∃ ip : BitVec 32, cidr.addr.next = .v4 ip ∧
      ip.toNat = cidr.first + 1 ∧ cidr.contains (.v4 ip) = true := by
  obtain ⟨base, addr⟩ := Addr.is4_iff.mp block.is4
  obtain ⟨first, -, size, fits⟩ := block.interval addr
  obtain ⟨ip, next, number⟩ := Addr.next_v4 base (by omega)
  refine ⟨ip, by rw [addr, next], by rw [number, first], ?_⟩
  rw [block.contains_iff addr]
  omega

/-- So does the fourth address after it. -/
theorem Admissible.fourth (block : Admissible cidr) :
    ∃ ip : BitVec 32, cidr.addr.next.next.next.next = .v4 ip ∧
      ip.toNat = cidr.first + 4 := by
  obtain ⟨base, addr⟩ := Addr.is4_iff.mp block.is4
  obtain ⟨first, -, size, fits⟩ := block.interval addr
  obtain ⟨one, nextOne, oneNumber⟩ := Addr.next_v4 base (by omega)
  obtain ⟨two, nextTwo, twoNumber⟩ := Addr.next_v4 one (by omega)
  obtain ⟨three, nextThree, threeNumber⟩ := Addr.next_v4 two (by omega)
  obtain ⟨four, nextFour, fourNumber⟩ := Addr.next_v4 three (by omega)
  refine ⟨four, by rw [addr, nextOne, nextTwo, nextThree, nextFour], ?_⟩
  omega

theorem Admissible.last_eq (block : Admissible cidr) :
    cidr.last + 1 = cidr.first + 2 ^ (32 - cidr.length) ∧
      cidr.last < 2 ^ 32 ∧ cidr.first + 15 ≤ cidr.last := by
  obtain ⟨base, addr⟩ := Addr.is4_iff.mp block.is4
  obtain ⟨first, -, size, fits⟩ := block.interval addr
  have last : cidr.last = cidr.first + 2 ^ (32 - cidr.length) - 1 := rfl
  omega

/-- The addresses of an admitted block by their numbers. -/
theorem Admissible.contains_v4 (block : Admissible cidr) {ip : BitVec 32} :
    cidr.contains (.v4 ip) = true ↔
      cidr.first ≤ ip.toNat ∧ ip.toNat ≤ cidr.last := by
  obtain ⟨base, addr⟩ := Addr.is4_iff.mp block.is4
  obtain ⟨first, -⟩ := block.interval addr
  have last := block.last_eq
  rw [block.contains_iff addr, ← first]
  omega

theorem Admissible.assignable_v4 (block : Admissible cidr)
    {ip : BitVec 32} :
    Assignable cidr (.v4 ip) ↔
      cidr.first + 4 ≤ ip.toNat ∧ ip.toNat + 1 ≤ cidr.last := by
  constructor
  · rintro ⟨-, -, lower, upper⟩
    exact ⟨lower, upper⟩
  · rintro ⟨lower, upper⟩
    exact ⟨rfl, block.contains_v4.mpr (by omega), lower, upper⟩

theorem broadcastOf_v4 (block : Admissible cidr)
    (addr : cidr.addr = .v4 base) :
    ∃ broadcast : BitVec 32, broadcastOf cidr = .v4 broadcast ∧
      broadcast.toNat = cidr.last := by
  obtain ⟨-, aligned, -, -⟩ := block.interval addr
  have lower := block.lower
  rw [Prefix.bits_eq_length block.valid] at lower
  refine ⟨_, by rw [broadcastOf, addr], ?_⟩
  rw [Block.toNat_or_ones base (by omega) aligned, Prefix.last, addr]
  rfl

/-- A successful allocation leases an assignable address that was free. -/
theorem nextPrivateIP_spec {address : Addr}
    (leased : nextPrivateIP cidr used = .ok address) :
    Assignable cidr address ∧ address ∉ used := by
  unfold nextPrivateIP at leased
  split at leased
  · cases leased
  · rename_i checks
    simp only [not_or, not_not, Int.not_lt] at checks
    obtain ⟨valid, is4, lower, upper, masked⟩ := checks
    have block : Admissible cidr := ⟨valid, is4, lower, upper, masked.symm⟩
    obtain ⟨base, addr⟩ := Addr.is4_iff.mp is4
    obtain ⟨broadcast, shape, last⟩ := broadcastOf_v4 block addr
    obtain ⟨four, fourth, number⟩ := block.fourth
    have bounds := block.last_eq
    rw [fourth, shape] at leased
    split at leased
    · rename_i found
      cases leased
      obtain ⟨free, addressIs4, from4, toLast⟩ :=
        firstFree_spec (by omega) found
      obtain ⟨ip, rfl⟩ := Addr.is4_iff.mp addressIs4
      change four.toNat ≤ ip.toNat at from4
      change ip.toNat < broadcast.toNat at toLast
      exact ⟨block.assignable_v4.mpr (by omega), free⟩
    · cases leased

end Allocator

end Nephos
