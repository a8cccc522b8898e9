import Mathlib.Data.Set.BooleanAlgebra
import Mathlib.Order.CompletePartialOrder
import Nephos.Service.Addressing

/-!
# The prefix checks as statements about sets

The checks of `validate.go` compare base addresses and lengths.  Read over
sets of addresses they say what their names say, for prefixes of every length
and with or without host bits.
-/

namespace Nephos

/-- The addresses of an IPv4 prefix: those that agree with its base in its
leading bits. -/
def Prefix.addresses (cidr : Prefix) : Set (BitVec 32) :=
  {ip | cidr.isValid = true ∧ ∃ base, cidr.addr = .v4 base ∧
    ∀ bit < cidr.length, ip.getMsbD bit = base.getMsbD bit}

/-- A list that grew by prefixes that passed the check against it. -/
inductive Accepted : List Prefix → Prop
  | nil : Accepted []
  | snoc {siblings : List Prefix} {subnet : Prefix}
      (earlier : Accepted siblings) (valid : subnet.isValid = true)
      (is4 : subnet.addr.is4 = true)
      (passes : validateSubnetDisjoint subnet siblings = .ok ()) :
      Accepted (siblings ++ [subnet])

section Sets

variable {cidr a b : Prefix} {base ip : BitVec 32}

theorem mem_addresses_iff (addr : cidr.addr = .v4 base)
    (valid : cidr.isValid = true) :
    ip ∈ cidr.addresses ↔ cidr.contains (.v4 ip) = true := by
  have le := Prefix.length_le_of_v4 addr valid
  rw [Prefix.contains_v4_iff addr valid, Block.same_iff_getMsbD _ _ le]
  constructor
  · rintro ⟨-, other, same, agree⟩
    cases addr.symm.trans same
    exact agree
  · intro agree
    exact ⟨valid, base, addr, agree⟩

/-- A prefix of another kind has no IPv4 addresses. -/
theorem addresses_eq_empty (other : ¬ (cidr.isValid = true ∧
    cidr.addr.is4 = true)) : cidr.addresses = ∅ := by
  ext ip
  refine iff_of_false ?_ (Set.notMem_empty ip)
  rintro ⟨valid, base, addr, -⟩
  apply other
  exact ⟨valid, Addr.is4_iff.mpr ⟨base, addr⟩⟩

theorem base_mem_addresses (addr : cidr.addr = .v4 base)
    (valid : cidr.isValid = true) : base ∈ cidr.addresses :=
  ⟨valid, base, addr, fun _ _ => rfl⟩

/-- Clearing the host bits does not change the addresses. -/
theorem addresses_masked (cidr : Prefix) (valid : cidr.isValid = true)
    (is4 : cidr.addr.is4 = true) : cidr.masked.addresses = cidr.addresses := by
  obtain ⟨base, addr⟩ := Addr.is4_iff.mp is4
  obtain ⟨maskedAddr, maskedValid, -⟩ := Prefix.masked_valid addr valid
  ext ip
  rw [mem_addresses_iff maskedAddr maskedValid, mem_addresses_iff addr valid,
    Prefix.masked_contains addr valid]

/-- Overlapping prefixes are those with a common address. -/
theorem overlaps_iff (a b : Prefix) :
    overlaps a b = true ↔ (a.addresses ∩ b.addresses).Nonempty := by
  unfold overlaps
  split
  · rename_i other
    refine iff_of_false Bool.false_ne_true ?_
    rintro ⟨ip, inLeft, inRight⟩
    by_cases left : a.isValid = true ∧ a.addr.is4 = true
    · by_cases right : b.isValid = true ∧ b.addr.is4 = true
      · simp [left, right] at other
      · rw [addresses_eq_empty right] at inRight
        exact inRight
    · rw [addresses_eq_empty left] at inLeft
      exact inLeft
  · rename_i both
    simp only [not_or, not_not] at both
    obtain ⟨leftValid, rightValid, leftIs4, rightIs4⟩ := both
    rw [← addresses_masked a leftValid leftIs4,
      ← addresses_masked b rightValid rightIs4]
    obtain ⟨leftBase, leftAddr⟩ := Addr.is4_iff.mp leftIs4
    obtain ⟨rightBase, rightAddr⟩ := Addr.is4_iff.mp rightIs4
    obtain ⟨left, leftMasked, -⟩ := Prefix.masked_valid leftAddr leftValid
    obtain ⟨right, rightMasked, -⟩ := Prefix.masked_valid rightAddr rightValid
    rw [Bool.or_eq_true]
    constructor
    · rintro (holds | holds)
      · rw [right, ← mem_addresses_iff left leftMasked] at holds
        exact ⟨_, holds, base_mem_addresses right rightMasked⟩
      · rw [left, ← mem_addresses_iff right rightMasked] at holds
        exact ⟨_, base_mem_addresses left leftMasked, holds⟩
    · rintro ⟨ip, inLeft, inRight⟩
      rw [mem_addresses_iff left leftMasked] at inLeft
      rw [mem_addresses_iff right rightMasked] at inRight
      rw [left, right]
      exact Prefix.contains_base_of_meet left right leftMasked rightMasked
        inLeft inRight

theorem not_overlaps_iff (a b : Prefix) :
    overlaps a b = false ↔ Disjoint a.addresses b.addresses := by
  rw [Set.disjoint_iff_inter_eq_empty, ← Set.not_nonempty_iff_eq_empty,
    ← overlaps_iff, Bool.not_eq_true]

/-- A prefix inside another one is no shorter: two of its addresses differ in
the first bit after its own leading ones. -/
theorem length_le_of_subset (aAddr : a.addr = .v4 base)
    (aValid : a.isValid = true) {inner : BitVec 32} (bAddr : b.addr = .v4 inner)
    (bValid : b.isValid = true) (inside : b.addresses ⊆ a.addresses) :
    a.length ≤ b.length := by
  by_contra longer
  rw [Nat.not_le] at longer
  have aLe := Prefix.length_le_of_v4 aAddr aValid
  let flipped := inner ^^^ BitVec.twoPow 32 (31 - b.length)
  have flips (bit : Nat) (below : bit < 32) : flipped.getMsbD bit =
      (inner.getMsbD bit ^^ decide (bit = b.length)) := by
    have place : (31 - b.length < 32 ∧ 31 - b.length = 32 - 1 - bit) ↔
        bit = b.length := by
      omega
    simp [flipped, BitVec.getMsbD, below, BitVec.getLsbD_twoPow, ← place]
  have member : flipped ∈ b.addresses := by
    refine ⟨bValid, inner, bAddr, fun bit below => ?_⟩
    rw [flips bit (by omega)]
    simp [Nat.ne_of_lt below]
  obtain ⟨-, other, same, agree⟩ := inside member
  obtain ⟨-, other', same', agree'⟩ := inside (base_mem_addresses bAddr bValid)
  cases same.symm.trans same'
  have equal := (agree b.length longer).trans (agree' b.length longer).symm
  rw [flips b.length (by omega)] at equal
  simp at equal

/-- An accepted range is a subset. -/
theorem validateSubnetRange_iff (aValid : a.isValid = true)
    (aIs4 : a.addr.is4 = true) (bValid : b.isValid = true)
    (bIs4 : b.addr.is4 = true) :
    validateSubnetRange a b = .ok () ↔ b.addresses ⊆ a.addresses := by
  obtain ⟨outer, aAddr⟩ := Addr.is4_iff.mp aIs4
  obtain ⟨inner, bAddr⟩ := Addr.is4_iff.mp bIs4
  constructor
  · intro accepted ip member
    rw [mem_addresses_iff bAddr bValid] at member
    rw [mem_addresses_iff aAddr aValid]
    exact validateSubnetRange_subset accepted member
  · intro inside
    have shorter := length_le_of_subset aAddr aValid bAddr bValid inside
    obtain ⟨maskedAddr, maskedValid, -⟩ := Prefix.masked_valid bAddr bValid
    have holds : a.masked.contains b.masked.addr = true := by
      rw [Prefix.masked_contains aAddr aValid, maskedAddr,
        ← mem_addresses_iff aAddr aValid]
      apply inside
      rw [← addresses_masked b bValid bIs4]
      exact base_mem_addresses maskedAddr maskedValid
    have bits : ¬ b.bits < a.bits := by
      rw [Prefix.bits_eq_length aValid, Prefix.bits_eq_length bValid]
      omega
    simp [validateSubnetRange, aValid, bValid, aIs4, bIs4, bits, holds]

/-- An accepted subnet shares no address with a sibling. -/
theorem validateSubnetDisjoint_iff (subnet : Prefix)
    (siblings : List Prefix) :
    validateSubnetDisjoint subnet siblings = .ok () ↔
      ∀ sibling ∈ siblings,
        Disjoint subnet.addresses sibling.addresses := by
  induction siblings with
  | nil => simp [validateSubnetDisjoint]
  | cons sibling siblings induction =>
      rw [List.forall_mem_cons, ← induction, ← not_overlaps_iff,
        validateSubnetDisjoint]
      cases overlaps subnet sibling <;> simp

/-- The siblings of one VPC are pairwise disjoint. -/
theorem Accepted.pairwise {siblings : List Prefix}
    (accepted : Accepted siblings) :
    siblings.Pairwise fun left right =>
      Disjoint left.addresses right.addresses := by
  induction accepted with
  | nil => exact List.Pairwise.nil
  | @snoc siblings subnet _ _ _ passes induction =>
      rw [validateSubnetDisjoint_iff] at passes
      refine List.pairwise_append.mpr ⟨induction, List.pairwise_singleton _ _,
        fun left member right last => ?_⟩
      rw [List.mem_singleton.mp last]
      exact (passes left member).symm

end Sets

/-- The prefix predicates have the meaning of sets of addresses. -/
theorem prefix_predicates_on_sets (a b : Prefix) (aValid : a.isValid = true)
    (aIs4 : a.addr.is4 = true) (bValid : b.isValid = true)
    (bIs4 : b.addr.is4 = true) :
    (overlaps a b = true ↔ (a.addresses ∩ b.addresses).Nonempty) ∧
      (validateSubnetRange a b = .ok () ↔ b.addresses ⊆ a.addresses) ∧
      (∀ siblings, validateSubnetDisjoint b siblings = .ok () ↔
        ∀ sibling ∈ siblings, Disjoint b.addresses sibling.addresses) ∧
      overlaps a b = overlaps b a ∧
      overlaps a.masked b = overlaps a b ∧
      overlaps a b.masked = overlaps a b ∧
      ∀ siblings, Accepted siblings →
        siblings.Pairwise fun left right =>
          Disjoint left.addresses right.addresses := by
  refine ⟨overlaps_iff a b, validateSubnetRange_iff aValid aIs4 bValid bIs4,
    validateSubnetDisjoint_iff b, overlaps_comm a b, ?_, ?_,
    fun _ accepted => accepted.pairwise⟩
  · rw [Bool.eq_iff_iff, overlaps_iff, overlaps_iff,
      addresses_masked a aValid aIs4]
  · rw [Bool.eq_iff_iff, overlaps_iff, overlaps_iff,
      addresses_masked b bValid bIs4]

/-- A block with host bits inside a larger one. -/
theorem nestedBlocks_on_sets :
    let vpc := Prefix.ofAddr (.v4 0x0a000000#32) 16
    let subnet := Prefix.ofAddr (.v4 0x0a000107#32) 24
    (vpc.addresses ∩ subnet.addresses).Nonempty ∧
      subnet.addresses ⊆ vpc.addresses := by
  intro vpc subnet
  have sets := prefix_predicates_on_sets vpc subnet rfl rfl rfl rfl
  exact ⟨sets.1.mp (by decide), sets.2.1.mp (if_neg (by decide))⟩

end Nephos
