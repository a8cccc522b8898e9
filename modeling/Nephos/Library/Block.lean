import Mathlib.Data.BitVec
import Mathlib.Tactic.Ring

/-!
# Aligned blocks of numbers

The numbers that agree above their `size` low bits form a block of
`2 ^ size` consecutive numbers.  Blocks of different sizes are nested or
disjoint; this is all the arithmetic that address prefixes need.
-/

namespace Block

/-- The two numbers lie in one aligned block of `2 ^ size` numbers. -/
def Same (size left right : Nat) : Prop :=
  left / 2 ^ size = right / 2 ^ size

/-- The least number of the block that `point` lies in. -/
def start (size point : Nat) : Nat := point / 2 ^ size * 2 ^ size

variable {size larger left middle right point : Nat}

theorem Same.refl (size point : Nat) : Same size point point := rfl

theorem Same.symm (same : Same size left right) : Same size right left :=
  Eq.symm same

theorem Same.trans (first : Same size left middle)
    (second : Same size middle right) : Same size left right :=
  Eq.trans first second

/-- A block lies inside every larger block that it meets. -/
theorem Same.grow (same : Same size left right) (le : size ≤ larger) :
    Same larger left right := by
  have split : 2 ^ larger = 2 ^ size * 2 ^ (larger - size) := by
    rw [← pow_add, Nat.add_sub_cancel' le]
  unfold Same at same ⊢
  rw [split, ← Nat.div_div_eq_div_mul, ← Nat.div_div_eq_div_mul, same]

theorem start_le (size point : Nat) : start size point ≤ point :=
  Nat.div_mul_le_self point (2 ^ size)

theorem lt_start_add (size point : Nat) :
    point < start size point + 2 ^ size := by
  have positive : 0 < 2 ^ size := Nat.two_pow_pos size
  have division := Nat.div_add_mod point (2 ^ size)
  have remainder := Nat.mod_lt point positive
  unfold start
  rw [Nat.mul_comm] at division
  omega

theorem same_start (size point : Nat) :
    Same size (start size point) point := by
  unfold Same start
  exact Nat.mul_div_cancel _ (Nat.two_pow_pos size)

theorem start_eq_of_same (same : Same size left right) :
    start size left = start size right := by
  unfold Same at same
  unfold start
  rw [same]

/-- A block is exactly the `2 ^ size` numbers from its start on. -/
theorem same_iff_interval :
    Same size left right ↔
      start size right ≤ left ∧ left < start size right + 2 ^ size := by
  constructor
  · intro same
    have equality := start_eq_of_same same
    exact ⟨equality ▸ start_le size left, equality ▸ lt_start_add size left⟩
  · rintro ⟨lower, upper⟩
    have positive : 0 < 2 ^ size := Nat.two_pow_pos size
    unfold Same
    apply Nat.div_eq_of_lt_le
    · exact lower
    · rw [Nat.succ_mul]
      exact upper

/-- Two blocks that meet are nested: the start of the smaller one lies in the
larger one. -/
theorem same_of_meet (le : size ≤ larger)
    (inSmall : Same size point left) (inLarge : Same larger point right) :
    Same larger left right :=
  (inSmall.grow le).symm.trans inLarge

/-- An aligned block of a word ends inside the range of the word. -/
theorem start_add_le {width : Nat} (bounded : size ≤ width)
    (small : point < 2 ^ width) (aligned : start size point = point) :
    point + 2 ^ size ≤ 2 ^ width := by
  have split : 2 ^ width = 2 ^ (width - size) * 2 ^ size := by
    rw [← pow_add, Nat.sub_add_cancel bounded]
  have quotient : point / 2 ^ size < 2 ^ (width - size) := by
    apply Nat.div_lt_of_lt_mul
    rw [Nat.mul_comm, ← split]
    exact small
  calc
    point + 2 ^ size = (point / 2 ^ size + 1) * 2 ^ size := by
      rw [Nat.succ_mul]
      unfold start at aligned
      rw [aligned]
    _ ≤ 2 ^ (width - size) * 2 ^ size := Nat.mul_le_mul_right _ quotient
    _ = 2 ^ width := split.symm

theorem toNat_ones {width : Nat} (bounded : size < width) :
    ((1 : BitVec width) <<< size - 1).toNat = 2 ^ size - 1 := by
  have positive : 0 < 2 ^ size := Nat.two_pow_pos size
  have wide : 2 ^ size < 2 ^ width := Nat.pow_lt_pow_right (by omega) bounded
  have unit : (1 : BitVec width).toNat = 1 :=
    Nat.mod_eq_of_lt (by omega : 1 < 2 ^ width)
  have one : ((1 : BitVec width) <<< size).toNat = 2 ^ size := by
    rw [BitVec.toNat_shiftLeft, Nat.shiftLeft_eq, unit, Nat.one_mul]
    exact Nat.mod_eq_of_lt wide
  have le : (1 : BitVec width) ≤ (1 : BitVec width) <<< size := by
    rw [BitVec.le_def, one, unit]
    exact positive
  rw [BitVec.toNat_sub_of_le le, one, unit]

/-- Setting the low bits gives the last number of an aligned block. -/
theorem toNat_or_ones {width : Nat} (word : BitVec width)
    (bounded : size < width) (aligned : start size word.toNat = word.toNat) :
    (word ||| ((1 : BitVec width) <<< size - 1)).toNat =
      word.toNat + 2 ^ size - 1 := by
  have positive : 0 < 2 ^ size := Nat.two_pow_pos size
  have shape : word.toNat = 2 ^ size * (word.toNat / 2 ^ size) := by
    unfold start at aligned
    rw [Nat.mul_comm, aligned]
  rw [BitVec.toNat_or, toNat_ones bounded, shape,
    ← Nat.two_pow_add_eq_or_of_lt (by omega), ← shape]
  omega

/-- Masking the low bits gives the start of the block. -/
theorem toNat_shift {width : Nat} (word : BitVec width) (size : Nat) :
    ((word >>> size) <<< size).toNat = start size word.toNat := by
  have bound : start size word.toNat < 2 ^ width :=
    Nat.lt_of_le_of_lt (start_le size word.toNat) word.isLt
  rw [BitVec.toNat_shiftLeft, BitVec.toNat_ushiftRight,
    Nat.shiftRight_eq_div_pow, Nat.shiftLeft_eq]
  exact Nat.mod_eq_of_lt bound

/-- Two words have no difference above the low bits exactly when they lie in
one block. -/
theorem shift_xor_eq_zero_iff {width : Nat} (left right : BitVec width)
    (size : Nat) :
    (left ^^^ right) >>> size = 0 ↔ Same size left.toNat right.toNat := by
  rw [BitVec.ushiftRight_xor_distrib]
  constructor
  · intro equal
    have words : left >>> size = right >>> size := by
      simpa using equal
    have numbers := congrArg BitVec.toNat words
    simpa [Same, Nat.shiftRight_eq_div_pow] using numbers
  · intro same
    have words : left >>> size = right >>> size := by
      apply BitVec.eq_of_toNat_eq
      simpa [Same, Nat.shiftRight_eq_div_pow] using same
    simp [words]

/-- Words lie in one block exactly when they agree in their leading bits. -/
theorem same_iff_getMsbD {width bits : Nat} (left right : BitVec width)
    (le : bits ≤ width) :
    Same (width - bits) left.toNat right.toNat ↔
      ∀ bit < bits, left.getMsbD bit = right.getMsbD bit := by
  rw [← shift_xor_eq_zero_iff]
  constructor
  · intro equal bit below
    have cleared := congrArg (fun word : BitVec width =>
      word.getLsbD (bits - 1 - bit)) equal
    have place : width - bits + (bits - 1 - bit) = width - 1 - bit := by
      omega
    have same : left.getLsbD (width - 1 - bit) =
        right.getLsbD (width - 1 - bit) := by
      simpa [place] using cleared
    have inside : bit < width := by omega
    simp [BitVec.getMsbD, inside, same]
  · intro agree
    apply BitVec.eq_of_getLsbD_eq
    intro low _
    have same : left.getLsbD (width - bits + low) =
        right.getLsbD (width - bits + low) := by
      by_cases inside : width - bits + low < width
      · have leading := agree (bits - 1 - low) (by omega)
        have high : bits - 1 - low < width := by omega
        have place : width - 1 - (bits - 1 - low) = width - bits + low := by
          omega
        simpa [BitVec.getMsbD, high, place] using leading
      · rw [BitVec.getLsbD_of_ge _ _ (by omega),
          BitVec.getLsbD_of_ge _ _ (by omega)]
    simp [same]

end Block
