import Mathlib.Data.Set.Card
import Mathlib.Order.Interval.Finset.Nat
import Nephos.Network.Engine

/-!
# Reserved addresses

Four pieces of code decide which addresses of a subnet an instance can have:
the allocator by the ends of its loop, `reservedAddress` by the offset in the
block, `firstAssignable` by counting up from the base, and the engine by the
successor of the address.  They describe one set of addresses, and the
allocator takes the least free one of it.
-/

namespace Nephos

variable {cidr : Prefix} {used : List Addr}

/-- The loop of `nextPrivateIP` as the source has it, which has no bound: it
ends at the broadcast address or at an address that is not used. -/
inductive Scans (broadcast : Addr) (used : List Addr) :
    Addr → Except IPAMError Addr → Prop where
  | stop : Scans broadcast used broadcast (.error .exhausted)
  | free {ip : Addr} : ip ≠ broadcast → ip ∉ used →
      Scans broadcast used ip (.ok ip)
  | skip {ip : Addr} {result : Except IPAMError Addr} : ip ≠ broadcast →
      ip ∈ used → Scans broadcast used ip.next result →
      Scans broadcast used ip result

/-- With enough fuel the bounded loop is the loop of the source. -/
theorem firstFree_scans {broadcast current : BitVec 32} {fuel : Nat}
    (below : current.toNat ≤ broadcast.toNat)
    (enough : broadcast.toNat - current.toNat < fuel) :
    Scans (.v4 broadcast) used (.v4 current)
      (match firstFree (.v4 broadcast) used fuel (.v4 current) with
        | some ip => .ok ip
        | none => .error .exhausted) := by
  induction fuel generalizing current with
  | zero => omega
  | succ fuel induction =>
      rw [firstFree]
      by_cases last : Addr.v4 current = .v4 broadcast
      · rw [if_pos last, last]
        exact .stop
      · have strict : current.toNat < broadcast.toNat := by
          refine Nat.lt_of_le_of_ne below fun same => last ?_
          rw [BitVec.eq_of_toNat_eq same]
        rw [if_neg last]
        by_cases taken : Addr.v4 current ∈ used
        · obtain ⟨following, next, number⟩ :=
            Addr.next_v4 current (by have := broadcast.isLt; omega)
          rw [if_pos taken, next]
          exact .skip last taken (next ▸ induction (by omega) (by omega))
        · rw [if_neg taken]
          exact .free last taken

/-- The addresses from the first number up to the second are all used. -/
def Filled (used : List Addr) (lower upper : Nat) : Prop :=
  ∀ ip : BitVec 32, lower ≤ ip.toNat → ip.toNat < upper → .v4 ip ∈ used

/-- What the loop has seen when it ends: the addresses before the result are
all used. -/
def FirstFree (used : List Addr) (lower upper : Nat) :
    Except IPAMError Addr → Prop
  | .ok address => ∃ ip : BitVec 32, address = .v4 ip ∧ .v4 ip ∉ used ∧
      lower ≤ ip.toNat ∧ ip.toNat < upper ∧ Filled used lower ip.toNat
  | .error failure => failure = .exhausted ∧ Filled used lower upper

theorem Scans.firstFree {broadcast current : BitVec 32}
    {result : Except IPAMError Addr}
    (scans : Scans (.v4 broadcast) used (.v4 current) result)
    (below : current.toNat ≤ broadcast.toNat) :
    FirstFree used current.toNat broadcast.toNat result := by
  generalize start : Addr.v4 current = ip at scans
  induction scans generalizing current with
  | stop =>
      cases start
      exact ⟨rfl, fun ip lower upper => absurd upper (Nat.not_lt.mpr lower)⟩
  | free different unused =>
      cases start
      have strict : current.toNat < broadcast.toNat := by
        refine Nat.lt_of_le_of_ne below fun same => different ?_
        rw [BitVec.eq_of_toNat_eq same]
      exact ⟨current, rfl, unused, Nat.le_refl _, strict,
        fun ip lower upper => absurd upper (Nat.not_lt.mpr lower)⟩
  | @skip ip result different taken _ induction =>
      cases start
      have strict : current.toNat < broadcast.toNat := by
        refine Nat.lt_of_le_of_ne below fun same => different ?_
        rw [BitVec.eq_of_toNat_eq same]
      obtain ⟨following, next, number⟩ :=
        Addr.next_v4 current (by have := broadcast.isLt; omega)
      have onward := induction (by omega) next.symm
      -- the address that was passed over is used as well
      have filled {upper : Nat}
          (rest : Filled used following.toNat upper) :
          Filled used current.toNat upper := by
        intro ip lower above
        by_cases same : ip.toNat = current.toNat
        · rw [BitVec.eq_of_toNat_eq same]
          exact taken
        · exact rest ip (by omega) above
      cases result with
      | error failure => exact ⟨onward.1, filled onward.2⟩
      | ok address =>
          obtain ⟨ip, rfl, unused, lower, upper, before⟩ := onward
          exact ⟨ip, rfl, unused, by omega, upper, filled before⟩

/-- The allocator ends, with the result of its loop. -/
theorem nextPrivateIP_scans (block : Admissible cidr) (used : List Addr) :
    Scans (broadcastOf cidr) used cidr.addr.next.next.next.next
      (nextPrivateIP cidr used) := by
  obtain ⟨base, addr⟩ := Addr.is4_iff.mp block.is4
  obtain ⟨broadcast, shape, last⟩ := broadcastOf_v4 block addr
  obtain ⟨four, fourth, number⟩ := block.fourth
  have bounds := block.last_eq
  have lower := block.lower
  have upper := block.upper
  have accepted : ¬ (¬ cidr.isValid ∨ ¬ cidr.addr.is4 ∨ cidr.bits < 16 ∨
      28 < cidr.bits ∨ cidr ≠ cidr.masked) := by
    simp only [block.valid, block.is4, block.masked]
    simp only [not_true_eq_false, ne_eq, false_or, or_false]
    omega
  rw [nextPrivateIP, if_neg accepted, shape, fourth]
  exact firstFree_scans (by omega) (by omega)

theorem nextPrivateIP_firstFree (block : Admissible cidr)
    (used : List Addr) :
    FirstFree used (cidr.first + 4) cidr.last (nextPrivateIP cidr used) := by
  obtain ⟨base, addr⟩ := Addr.is4_iff.mp block.is4
  obtain ⟨broadcast, shape, last⟩ := broadcastOf_v4 block addr
  obtain ⟨four, fourth, number⟩ := block.fourth
  have bounds := block.last_eq
  have scans := nextPrivateIP_scans block used
  rw [shape, fourth] at scans
  rw [← number, ← last]
  exact scans.firstFree (by omega)

theorem FirstFree.least (block : Admissible cidr) {address : Addr}
    (found : FirstFree used (cidr.first + 4) cidr.last (.ok address)) :
    Assignable cidr address ∧ address ∉ used ∧
      ∀ other, Assignable cidr other → other ∉ used →
        address.toNat ≤ other.toNat := by
  obtain ⟨ip, rfl, unused, lower, upper, filled⟩ := found
  refine ⟨block.assignable_v4.mpr ⟨lower, upper⟩, unused, ?_⟩
  intro other assignable free
  obtain ⟨otherIP, rfl⟩ := Addr.is4_iff.mp assignable.1
  by_contra smaller
  have above := (block.assignable_v4.mp assignable).1
  exact free (filled otherIP above (not_le.mp smaller))

theorem FirstFree.full (block : Admissible cidr) {failure : IPAMError}
    (found : FirstFree used (cidr.first + 4) cidr.last (.error failure)) :
    ∀ address, Assignable cidr address → address ∈ used := by
  intro address assignable
  obtain ⟨ip, rfl⟩ := Addr.is4_iff.mp assignable.1
  obtain ⟨lower, upper⟩ := block.assignable_v4.mp assignable
  exact found.2 ip lower upper

/-- The allocator takes the least free address. -/
theorem nextPrivateIP_ok_iff (block : Admissible cidr) {address : Addr} :
    nextPrivateIP cidr used = .ok address ↔
      Assignable cidr address ∧ address ∉ used ∧
        ∀ other, Assignable cidr other → other ∉ used →
          address.toNat ≤ other.toNat := by
  have found := nextPrivateIP_firstFree block used
  constructor
  · intro leased
    rw [leased] at found
    exact found.least block
  · rintro ⟨assignable, unused, least⟩
    cases outcome : nextPrivateIP cidr used with
    | error failure =>
        rw [outcome] at found
        exact absurd (found.full block address assignable) unused
    | ok other =>
        rw [outcome] at found
        obtain ⟨otherAssignable, otherUnused, otherLeast⟩ := found.least block
        have same := Nat.le_antisymm (otherLeast address assignable unused)
          (least other otherAssignable otherUnused)
        obtain ⟨ip, rfl⟩ := Addr.is4_iff.mp assignable.1
        obtain ⟨otherIP, rfl⟩ := Addr.is4_iff.mp otherAssignable.1
        rw [BitVec.eq_of_toNat_eq same]

/-- The allocator fails only when every address is used. -/
theorem nextPrivateIP_exhausted_iff (block : Admissible cidr) :
    nextPrivateIP cidr used = .error .exhausted ↔
      ∀ address, Assignable cidr address → address ∈ used := by
  have found := nextPrivateIP_firstFree block used
  constructor
  · intro failed
    rw [failed] at found
    exact found.full block
  · intro full
    cases outcome : nextPrivateIP cidr used with
    | error failure =>
        rw [outcome] at found
        rw [found.1]
    | ok address =>
        rw [outcome] at found
        obtain ⟨assignable, unused, -⟩ := found.least block
        exact absurd (full address assignable) unused

/-- All the other addresses can be used already. -/
theorem nextPrivateIP_reaches_iff (block : Admissible cidr)
    {address : Addr} :
    (∃ used, nextPrivateIP cidr used = .ok address) ↔
      Assignable cidr address := by
  constructor
  · rintro ⟨used, leased⟩
    exact ((nextPrivateIP_ok_iff block).mp leased).1
  · intro assignable
    obtain ⟨ip, rfl⟩ := Addr.is4_iff.mp assignable.1
    have bound := ip.isLt
    refine ⟨(List.range ip.toNat).map fun number =>
      .v4 (BitVec.ofNat 32 number), (nextPrivateIP_ok_iff block).mpr
        ⟨assignable, ?_, fun other otherAssignable unused => ?_⟩⟩
    · intro member
      obtain ⟨number, inside, same⟩ := List.mem_map.mp member
      have numbers := congrArg BitVec.toNat (Addr.v4.inj same)
      rw [List.mem_range] at inside
      rw [BitVec.toNat_ofNat, Nat.mod_eq_of_lt (by omega)] at numbers
      omega
    · obtain ⟨otherIP, rfl⟩ := Addr.is4_iff.mp otherAssignable.1
      by_contra smaller
      refine unused (List.mem_map.mpr ⟨otherIP.toNat,
        List.mem_range.mpr (not_le.mp smaller), ?_⟩)
      rw [BitVec.ofNat_toNat, BitVec.setWidth_eq]

theorem assignable_ncard (block : Admissible cidr) :
    {address | Assignable cidr address}.ncard =
      2 ^ (32 - cidr.length) - 5 := by
  have bounds := block.last_eq
  have numbers : {address | Assignable cidr address} =
      (fun number => Addr.v4 (BitVec.ofNat 32 number)) ''
        (Finset.Ico (cidr.first + 4) cidr.last : Set Nat) := by
    ext address
    rw [Set.mem_image]
    constructor
    · intro assignable
      obtain ⟨ip, rfl⟩ := Addr.is4_iff.mp assignable.1
      refine ⟨ip.toNat, ?_, by rw [BitVec.ofNat_toNat, BitVec.setWidth_eq]⟩
      exact Finset.mem_coe.mpr
        (Finset.mem_Ico.mpr (block.assignable_v4.mp assignable))
    · rintro ⟨number, inside, rfl⟩
      have range := Finset.mem_Ico.mp (Finset.mem_coe.mp inside)
      refine block.assignable_v4.mpr ?_
      rw [BitVec.toNat_ofNat, Nat.mod_eq_of_lt (by omega)]
      exact range
  have injective : Set.InjOn
      (fun number => Addr.v4 (BitVec.ofNat 32 number))
      (Finset.Ico (cidr.first + 4) cidr.last : Set Nat) := by
    intro left leftInside right rightInside same
    have leftRange := Finset.mem_Ico.mp (Finset.mem_coe.mp leftInside)
    have rightRange := Finset.mem_Ico.mp (Finset.mem_coe.mp rightInside)
    have numbers := congrArg BitVec.toNat (Addr.v4.inj same)
    rw [BitVec.toNat_ofNat, BitVec.toNat_ofNat, Nat.mod_eq_of_lt (by omega),
      Nat.mod_eq_of_lt (by omega)] at numbers
    exact numbers
  rw [numbers, injective.ncard_image, Set.ncard_coe_finset,
    Nat.card_Ico]
  omega

theorem reservedAddress_v4 (block : Admissible cidr) {ip : BitVec 32}
    (inside : cidr.contains (.v4 ip) = true) :
    reservedAddress cidr (.v4 ip) = true ↔
      ip.toNat < cidr.first + 4 ∨ ip.toNat = cidr.last := by
  obtain ⟨base, addr⟩ := Addr.is4_iff.mp block.is4
  obtain ⟨first, -, -, fits⟩ := block.interval addr
  obtain ⟨above, below⟩ := block.contains_v4.mp inside
  have bounds := block.last_eq
  have lower := block.lower
  have upper := block.upper
  have accepted : ¬ (¬ cidr.isValid ∨ ¬ cidr.addr.is4 ∨ cidr.bits < 16 ∨
      28 < cidr.bits ∨ ¬ (Addr.v4 ip).is4 ∨ ¬ cidr.contains (.v4 ip)) := by
    simp only [block.valid, block.is4, inside, Addr.is4_v4]
    simp only [not_true_eq_false, false_or, or_false]
    omega
  have offset : (ip - base).toNat = ip.toNat - cidr.first := by
    rw [BitVec.toNat_sub_of_le (by rw [BitVec.le_def]; omega), first]
  have last : ((1 : BitVec 32) <<< (32 - cidr.length) - 1).toNat =
      cidr.last - cidr.first := by
    rw [Prefix.bits_eq_length block.valid] at lower
    rw [Block.toNat_ones (by omega)]
    omega
  rw [reservedAddress, if_neg accepted, block.masked, addr]
  change (decide (ip - base ≤ 3) || decide (ip - base = _)) = true ↔ _
  rw [Bool.or_eq_true, decide_eq_true_iff, decide_eq_true_iff, BitVec.le_def,
    ← BitVec.toNat_inj, offset, last]
  change ip.toNat - cidr.first ≤ 3 ∨ _ ↔ _
  omega

theorem reservedAddress_iff (block : Admissible cidr) {address : Addr} :
    cidr.contains address = true ∧ reservedAddress cidr address = false ↔
      Assignable cidr address := by
  obtain ⟨base, addr⟩ := Addr.is4_iff.mp block.is4
  constructor
  · rintro ⟨inside, free⟩
    obtain ⟨ip, rfl⟩ := Prefix.contains_only_v4 addr inside
    have bounds := block.contains_v4.mp inside
    rw [← Bool.not_eq_true, reservedAddress_v4 block inside] at free
    exact block.assignable_v4.mpr (by omega)
  · intro assignable
    obtain ⟨ip, rfl⟩ := Addr.is4_iff.mp assignable.1
    have inside := assignable.2.1
    have bounds := block.assignable_v4.mp assignable
    refine ⟨inside, ?_⟩
    rw [← Bool.not_eq_true, reservedAddress_v4 block inside]
    omega

theorem engineReserves_iff (block : Admissible cidr) {address : Addr} :
    ¬ engineReserves cidr address ↔ Assignable cidr address := by
  obtain ⟨base, addr⟩ := Addr.is4_iff.mp block.is4
  obtain ⟨four, fourth, number⟩ := block.fourth
  have bounds := block.last_eq
  rw [engineReserves, fourth]
  constructor
  · intro free
    rw [not_or, not_not] at free
    obtain ⟨after, inside⟩ := free
    -- only an IPv4 address has a successor in the block
    obtain ⟨next, isNext⟩ := Prefix.contains_only_v4 addr inside
    cases address with
    | zero => cases isNext
    | v6 ip zone =>
        rw [Addr.next] at isNext
        split at isNext <;> cases isNext
    | v4 ip =>
        rw [Addr.compare_v4_eq_lt] at after
        rw [isNext, block.contains_v4] at inside
        have successor := Addr.toNat_of_next isNext
        exact block.assignable_v4.mpr (by omega)
  · intro assignable
    obtain ⟨ip, rfl⟩ := Addr.is4_iff.mp assignable.1
    have range := block.assignable_v4.mp assignable
    obtain ⟨next, isNext, successor⟩ := Addr.next_v4 ip (by omega)
    rw [isNext, Addr.compare_v4_eq_lt, block.contains_v4]
    omega

theorem firstAssignable_least (block : Admissible cidr) :
    Assignable cidr (firstAssignable cidr) ∧
      ∀ address, Assignable cidr address →
        (firstAssignable cidr).toNat ≤ address.toNat := by
  obtain ⟨four, fourth, number⟩ := block.fourth
  have bounds := block.last_eq
  have shape : firstAssignable cidr = .v4 four := by
    rw [firstAssignable, if_neg (by simp [block.valid, block.is4]),
      block.masked, fourth]
  rw [shape]
  refine ⟨block.assignable_v4.mpr (by omega), fun address assignable => ?_⟩
  have lower := assignable.2.2.1
  change four.toNat ≤ address.toNat
  omega

theorem gateway_reserved (block : Admissible cidr) :
    reservedAddress cidr (gateway cidr) = true := by
  obtain ⟨ip, next, number, inside⟩ := block.next
  have shape : gateway cidr = .v4 ip := by
    rw [gateway, if_neg (by simp [block.valid, block.is4]), block.masked,
      next]
  rw [shape, reservedAddress_v4 block inside]
  omega

/-- The allocator of an admitted block takes the first free address after the
four reserved ones and before the last one, and its loop ends.  All the rules
for reserved addresses agree with it. -/
theorem reservations_agree (cidr : Prefix) (block : Admissible cidr) :
    (∀ used : List Addr,
      Scans (broadcastOf cidr) used cidr.addr.next.next.next.next
        (nextPrivateIP cidr used) ∧
      (∀ address, nextPrivateIP cidr used = .ok address ↔
        Assignable cidr address ∧ address ∉ used ∧
          ∀ other, Assignable cidr other → other ∉ used →
            address.toNat ≤ other.toNat) ∧
      (nextPrivateIP cidr used = .error .exhausted ↔
        ∀ address, Assignable cidr address → address ∈ used)) ∧
    {address | Assignable cidr address}.ncard = 2 ^ (32 - cidr.length) - 5 ∧
    (∀ address,
      ((∃ used, nextPrivateIP cidr used = .ok address) ↔
        cidr.contains address = true ∧
          reservedAddress cidr address = false) ∧
      ((∃ used, nextPrivateIP cidr used = .ok address) ↔
        ¬ engineReserves cidr address)) ∧
    (∃ used, nextPrivateIP cidr used = .ok (firstAssignable cidr)) ∧
    (∀ used address, nextPrivateIP cidr used = .ok address →
      (firstAssignable cidr).toNat ≤ address.toNat) ∧
    reservedAddress cidr (gateway cidr) = true := by
  obtain ⟨assignable, least⟩ := firstAssignable_least block
  refine ⟨fun used => ⟨nextPrivateIP_scans block used,
      fun _ => nextPrivateIP_ok_iff block,
      nextPrivateIP_exhausted_iff block⟩,
    assignable_ncard block, fun address => ⟨?_, ?_⟩,
    (nextPrivateIP_reaches_iff block).mpr assignable,
    fun used address leased => ?_, gateway_reserved block⟩
  · rw [nextPrivateIP_reaches_iff block, reservedAddress_iff block]
  · rw [nextPrivateIP_reaches_iff block, engineReserves_iff block]
  · exact least address ((nextPrivateIP_ok_iff block).mp leased).1

/-- The last block of the IPv4 addresses has eleven assignable ones. -/
theorem lastBlock_reservations :
    ∃ cidr, parseCIDR "255.255.255.240/28" = .ok cidr ∧
      {address | Assignable cidr address}.ncard = 11 := by
  have parses : (parseCIDR "255.255.255.240/28").toOption.any
      (fun cidr => cidr.length = 28) = true := by decide +kernel
  cases parsed : parseCIDR "255.255.255.240/28" with
  | error failure =>
      rw [parsed] at parses
      cases parses
  | ok cidr =>
      rw [parsed] at parses
      have length : cidr.length = 28 := of_decide_eq_true parses
      obtain ⟨-, count, -⟩ :=
        reservations_agree cidr (parseCIDR_admissible parsed)
      rw [length] at count
      exact ⟨cidr, rfl, count⟩

end Nephos
