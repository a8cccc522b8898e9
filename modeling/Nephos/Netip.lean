import Nephos.Library.Block

/-!
# Addresses and prefixes

The part of Go's `net/netip` that the control plane uses.  An address is the
zero `Addr`, an IPv4 address or an IPv6 address with a zone; a prefix keeps
`bitsPlusOne` as `netip.Prefix` does, so that the zero prefix is invalid.

The second half gives IPv4 prefixes their meaning as sets of addresses: a
prefix contains the addresses that share its block of `2 ^ hostBits` numbers.
-/

namespace Nephos

inductive Addr where
  | zero
  | v4 (ip : BitVec 32)
  | v6 (ip : BitVec 128) (zone : String)
deriving DecidableEq, Repr

namespace Addr

def is4 : Addr → Bool
  | .v4 _ => true
  | _ => false

def bitLen : Addr → Nat
  | .zero => 0
  | .v4 _ => 32
  | .v6 _ _ => 128

def hasZone : Addr → Bool
  | .v6 _ zone => zone != ""
  | _ => false

/-- The address after this one, or the zero address after the last one. -/
def next : Addr → Addr
  | .zero => .zero
  | .v4 ip => if ip + 1 = 0 then .zero else .v4 (ip + 1)
  | .v6 ip zone => if ip + 1 = 0 then .zero else .v6 (ip + 1) zone

def maskLow {width : Nat} (ip : BitVec width) (bits : Nat) : BitVec width :=
  (ip >>> (width - bits)) <<< (width - bits)

/-- Clear the host bits and drop the zone, as `Addr.Prefix` does. -/
def mask : Addr → Nat → Addr
  | .zero, _ => .zero
  | .v4 ip, bits => .v4 (maskLow ip bits)
  | .v6 ip _, bits => .v6 (maskLow ip bits) ""

/-- The numeric value of an IPv4 address. -/
def toNat : Addr → Nat
  | .v4 ip => ip.toNat
  | _ => 0

@[simp] theorem is4_v4 (ip : BitVec 32) : (Addr.v4 ip).is4 = true := rfl

theorem is4_iff {addr : Addr} : addr.is4 = true ↔ ∃ ip, addr = .v4 ip := by
  cases addr <;> simp [is4]

end Addr

/-- `netip.Prefix`.  Every way to build one bounds the length by the address
family and drops zones. -/
structure Prefix where
  addr : Addr
  bitsPlusOne : Nat
  bounded : bitsPlusOne ≠ 0 →
    addr.bitLen ≠ 0 ∧ bitsPlusOne ≤ addr.bitLen + 1 ∧ addr.hasZone = false
deriving DecidableEq, Repr

namespace Prefix

def invalid (addr : Addr) : Prefix :=
  { addr
    bitsPlusOne := 0
    bounded := fun positive => absurd rfl positive }

/-- `netip.PrefixFrom`. -/
def ofAddr (addr : Addr) (bits : Nat) : Prefix :=
  if fits : addr.bitLen ≠ 0 ∧ bits ≤ addr.bitLen ∧ addr.hasZone = false then
    { addr
      bitsPlusOne := bits + 1
      bounded := fun _ => ⟨fits.1, Nat.succ_le_succ fits.2.1, fits.2.2⟩ }
  else invalid addr

def isValid (cidr : Prefix) : Bool := cidr.bitsPlusOne != 0

/-- `Prefix.Bits`, which is `-1` for an invalid prefix. -/
def bits (cidr : Prefix) : Int := (cidr.bitsPlusOne : Int) - 1

/-- The prefix length of a valid prefix. -/
def length (cidr : Prefix) : Nat := cidr.bitsPlusOne - 1

def masked (cidr : Prefix) : Prefix :=
  if cidr.isValid then ofAddr (cidr.addr.mask cidr.length) cidr.length
  else invalid .zero

/-- `Prefix.Contains`: the same family, and no difference above the host
bits. -/
def contains (cidr : Prefix) (addr : Addr) : Bool :=
  cidr.isValid &&
    match cidr.addr, addr with
    | .v4 base, .v4 ip => (ip ^^^ base) >>> (32 - cidr.length) == 0
    | .v6 base _, .v6 ip zone =>
        zone == "" && (ip ^^^ base) >>> (128 - cidr.length) == 0
    | _, _ => false

variable {cidr other : Prefix} {base ip : BitVec 32}

theorem length_le_of_v4 (addr : cidr.addr = .v4 base)
    (valid : cidr.isValid = true) : cidr.length ≤ 32 := by
  have positive : cidr.bitsPlusOne ≠ 0 := by simpa [isValid] using valid
  have bound := (cidr.bounded positive).2.1
  simp only [addr, Addr.bitLen] at bound
  unfold length
  omega

theorem bits_eq_length (valid : cidr.isValid = true) :
    cidr.bits = cidr.length := by
  have positive : cidr.bitsPlusOne ≠ 0 := by simpa [isValid] using valid
  unfold bits length
  omega

theorem contains_v4_iff (addr : cidr.addr = .v4 base)
    (valid : cidr.isValid = true) :
    cidr.contains (.v4 ip) = true ↔
      Block.Same (32 - cidr.length) ip.toNat base.toNat := by
  rw [← Block.shift_xor_eq_zero_iff]
  simp [contains, valid, addr]

theorem contains_only_v4 (addr : cidr.addr = .v4 base) {point : Addr}
    (inside : cidr.contains point = true) : ∃ ip, point = .v4 ip := by
  cases point with
  | v4 ip => exact ⟨ip, rfl⟩
  | zero => simp [contains, addr] at inside
  | v6 ip zone => simp [contains, addr] at inside

theorem masked_v4 (addr : cidr.addr = .v4 base)
    (valid : cidr.isValid = true) :
    cidr.masked = ofAddr (.v4 (Addr.maskLow base cidr.length)) cidr.length := by
  simp [masked, valid, addr, Addr.mask]

@[simp] theorem ofAddr_addr (addr : Addr) (bits : Nat) :
    (ofAddr addr bits).addr = addr := by
  unfold ofAddr invalid
  split <;> rfl

theorem ofAddr_v4_valid (ip : BitVec 32) {bits : Nat} (le : bits ≤ 32) :
    (ofAddr (.v4 ip) bits).isValid = true ∧
      (ofAddr (.v4 ip) bits).length = bits := by
  have fits : (Addr.v4 ip).bitLen ≠ 0 ∧ bits ≤ (Addr.v4 ip).bitLen ∧
      (Addr.v4 ip).hasZone = false := by
    simpa [Addr.bitLen, Addr.hasZone] using le
  simp [ofAddr, fits, isValid, length]

theorem masked_valid (addr : cidr.addr = .v4 base)
    (valid : cidr.isValid = true) :
    cidr.masked.addr = .v4 (Addr.maskLow base cidr.length) ∧
      cidr.masked.isValid = true ∧ cidr.masked.length = cidr.length := by
  have le := length_le_of_v4 addr valid
  rw [masked_v4 addr valid]
  have parts := ofAddr_v4_valid (Addr.maskLow base cidr.length) le
  exact ⟨ofAddr_addr _ _, parts.1, parts.2⟩

theorem maskLow_same (base : BitVec 32) (bits : Nat) :
    Block.Same (32 - bits) (Addr.maskLow base bits).toNat base.toNat := by
  unfold Addr.maskLow
  rw [Block.toNat_shift]
  exact Block.same_start _ _

/-- Masking does not change which addresses a prefix contains. -/
theorem masked_contains (addr : cidr.addr = .v4 base)
    (valid : cidr.isValid = true) (point : Addr) :
    cidr.masked.contains point = cidr.contains point := by
  obtain ⟨maskedAddr, maskedIsValid, maskedLength⟩ := masked_valid addr valid
  cases point with
  | zero => simp [contains, addr, maskedAddr]
  | v6 ip zone => simp [contains, addr, maskedAddr]
  | v4 ip =>
      rw [Bool.eq_iff_iff, contains_v4_iff maskedAddr maskedIsValid,
        contains_v4_iff addr valid, maskedLength]
      have same := maskLow_same base cidr.length
      exact ⟨fun inside => inside.trans same,
        fun inside => inside.trans same.symm⟩

/-- A shorter prefix that contains the masked base of a longer one contains
every address of it. -/
theorem contains_of_nested {outer inner : Prefix} {outerBase : BitVec 32}
    (outerAddr : outer.addr = .v4 outerBase) (innerAddr : inner.addr = .v4 base)
    (outerValid : outer.isValid = true) (innerValid : inner.isValid = true)
    (shorter : outer.length ≤ inner.length)
    (containsBase : outer.contains (.v4 base) = true) {point : Addr}
    (inside : inner.contains point = true) :
    outer.contains point = true := by
  obtain ⟨ip, rfl⟩ := contains_only_v4 innerAddr inside
  rw [contains_v4_iff innerAddr innerValid] at inside
  rw [contains_v4_iff outerAddr outerValid] at containsBase ⊢
  have innerLe := length_le_of_v4 innerAddr innerValid
  exact (inside.grow (by omega)).trans containsBase

/-- Of two prefixes with a common address, one contains the base of the
other. -/
theorem contains_base_of_meet {left right : Prefix}
    {leftBase rightBase : BitVec 32}
    (leftAddr : left.addr = .v4 leftBase)
    (rightAddr : right.addr = .v4 rightBase)
    (leftValid : left.isValid = true) (rightValid : right.isValid = true)
    {point : Addr} (inLeft : left.contains point = true)
    (inRight : right.contains point = true) :
    left.contains (.v4 rightBase) = true ∨
      right.contains (.v4 leftBase) = true := by
  obtain ⟨ip, rfl⟩ := contains_only_v4 leftAddr inLeft
  rw [contains_v4_iff leftAddr leftValid] at inLeft ⊢
  rw [contains_v4_iff rightAddr rightValid] at inRight ⊢
  rcases Nat.le_total left.length right.length with le | le
  · left
    exact Block.same_of_meet (by omega) inRight inLeft
  · right
    exact Block.same_of_meet (by omega) inLeft inRight

end Prefix

end Nephos
