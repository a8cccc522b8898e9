import Mathlib.Data.Nat.Notation

/-!
# Base64 without padding

The alphabet for URLs, without padding.  The decoder skips line breaks and
does not look at the unused bits of the last character, so that it is not
injective; it inverts the encoder.
-/

namespace Base64

/-- The character of a number below 64. -/
def digit (value : Nat) : Char :=
  if value < 26 then Char.ofNat (65 + value)
  else if value < 52 then Char.ofNat (71 + value)
  else if value < 62 then Char.ofNat (value - 4)
  else if value = 62 then '-'
  else '_'

def value? (char : Char) : Option Nat :=
  let code := char.toNat
  if 65 ≤ code ∧ code ≤ 90 then some (code - 65)
  else if 97 ≤ code ∧ code ≤ 122 then some (code - 71)
  else if 48 ≤ code ∧ code ≤ 57 then some (code + 4)
  else if char = '-' then some 62
  else if char = '_' then some 63
  else none

/-- The numbers below 64 that three bytes are cut into. -/
def split : List UInt8 → List Nat
  | [] => []
  | [a] => [a.toNat / 4, a.toNat % 4 * 16]
  | [a, b] => [a.toNat / 4, a.toNat % 4 * 16 + b.toNat / 16,
      b.toNat % 16 * 4]
  | a :: b :: c :: rest =>
      a.toNat / 4 :: (a.toNat % 4 * 16 + b.toNat / 16) ::
        (b.toNat % 16 * 4 + c.toNat / 64) :: c.toNat % 64 :: split rest

/-- The bytes that the numbers are cut from. -/
def join : List Nat → Option (List UInt8)
  | [] => some []
  | [_] => none
  | [a, b] => some [UInt8.ofNat (a * 4 + b / 16)]
  | [a, b, c] =>
      some [UInt8.ofNat (a * 4 + b / 16), UInt8.ofNat (b % 16 * 16 + c / 4)]
  | a :: b :: c :: d :: rest =>
      (join rest).map fun bytes =>
        UInt8.ofNat (a * 4 + b / 16) :: UInt8.ofNat (b % 16 * 16 + c / 4) ::
          UInt8.ofNat (c % 4 * 64 + d) :: bytes

def encode (bytes : List UInt8) : List Char := (split bytes).map digit

def decode (text : List Char) : Option (List UInt8) :=
  ((text.filter fun char => char ≠ '\n' ∧ char ≠ '\r').mapM value?).bind join

theorem value?_digit : ∀ value < 64, value? (digit value) = some value := by
  decide

theorem digit_visible : ∀ value < 64,
    digit value ≠ '\n' ∧ digit value ≠ '\r' := by
  decide

theorem split_lt (bytes : List UInt8) : ∀ value ∈ split bytes, value < 64 := by
  fun_induction split bytes with
  | case1 => simp
  | case2 a =>
      have := a.toNat_lt
      simp only [List.forall_mem_cons, List.not_mem_nil, false_implies,
        implies_true, and_true]
      omega
  | case3 a b =>
      have := a.toNat_lt
      have := b.toNat_lt
      simp only [List.forall_mem_cons, List.not_mem_nil, false_implies,
        implies_true, and_true]
      omega
  | case4 a b c rest induction =>
      have := a.toNat_lt
      have := b.toNat_lt
      have := c.toNat_lt
      simp only [List.forall_mem_cons]
      refine ⟨by omega, by omega, by omega, by omega, induction⟩

theorem byte_of_parts (byte : UInt8) {parts : Nat}
    (same : parts = byte.toNat) : UInt8.ofNat parts = byte := by
  rw [same, UInt8.ofNat_toNat]

theorem join_split (bytes : List UInt8) : join (split bytes) = some bytes := by
  fun_induction split bytes with
  | case1 => rfl
  | case2 a =>
      have := a.toNat_lt
      rw [join, byte_of_parts a (by omega)]
  | case3 a b =>
      have := a.toNat_lt
      have := b.toNat_lt
      rw [join, byte_of_parts a (by omega),
        byte_of_parts b (by omega)]
  | case4 a b c rest induction =>
      have := a.toNat_lt
      have := b.toNat_lt
      have := c.toNat_lt
      rw [join, induction, byte_of_parts a (by omega),
        byte_of_parts b (by omega),
        byte_of_parts c (by omega)]
      rfl

theorem mapM_value?_digit {values : List Nat}
    (small : ∀ value ∈ values, value < 64) :
    (values.map digit).mapM value? = some values := by
  induction values with
  | nil => rfl
  | cons value values induction =>
      rw [List.forall_mem_cons] at small
      rw [List.map_cons, List.mapM_cons, value?_digit value small.1,
        induction small.2]
      rfl

/-- No letter is skipped. -/
theorem filter_encode (bytes : List UInt8) :
    (encode bytes).filter (fun char => char ≠ '\n' ∧ char ≠ '\r') =
      encode bytes := by
  rw [List.filter_eq_self]
  intro char member
  obtain ⟨value, inside, rfl⟩ := List.mem_map.mp member
  exact decide_eq_true (digit_visible value (split_lt bytes value inside))

theorem decode_encode (bytes : List UInt8) :
    decode (encode bytes) = some bytes := by
  rw [decode, filter_encode, encode, mapM_value?_digit (split_lt bytes)]
  exact join_split bytes

/-- The bits of the last number that no byte is made of. -/
def unused : List Nat → Nat
  | [] | [_] => 0
  | [_, b] => b % 16
  | [_, _, c] => c % 4
  | _ :: _ :: _ :: _ :: rest => unused rest

theorem join_length {values : List Nat} {bytes : List UInt8}
    (joined : join values = some bytes) :
    bytes.length = values.length * 3 / 4 := by
  fun_induction join values generalizing bytes with
  | case1 =>
      cases joined
      rfl
  | case2 => cases joined
  | case3 a b =>
      cases joined
      simp
  | case4 a b c =>
      cases joined
      simp
  | case5 a b c d rest induction =>
      obtain ⟨tail, inner, rfl⟩ := Option.map_eq_some_iff.mp joined
      have length := induction inner
      simp only [List.length_cons, length]
      omega

theorem join_isSome {values : List Nat} (fits : values.length % 4 ≠ 1) :
    (join values).isSome = true := by
  fun_induction join values with
  | case1 => rfl
  | case2 => simp at fits
  | case3 => rfl
  | case4 => rfl
  | case5 a b c d rest induction =>
      rw [Option.isSome_map]
      apply induction
      rw [List.length_cons, List.length_cons, List.length_cons,
        List.length_cons] at fits
      omega

/-- The numbers are those of the bytes exactly when the unused bits are
zero. -/
theorem split_join_iff {values : List Nat} {bytes : List UInt8}
    (small : ∀ value ∈ values, value < 64)
    (joined : join values = some bytes) :
    split bytes = values ↔ unused values = 0 := by
  fun_induction join values generalizing bytes with
  | case1 =>
      cases joined
      exact iff_of_true rfl rfl
  | case2 => cases joined
  | case3 a b =>
      cases joined
      simp only [List.forall_mem_cons] at small
      simp only [split, unused, UInt8.toNat_ofNat', List.cons.injEq,
        and_true]
      omega
  | case4 a b c =>
      cases joined
      simp only [List.forall_mem_cons] at small
      simp only [split, unused, UInt8.toNat_ofNat', List.cons.injEq,
        and_true]
      omega
  | case5 a b c d rest induction =>
      obtain ⟨tail, inner, rfl⟩ := Option.map_eq_some_iff.mp joined
      simp only [List.forall_mem_cons] at small
      obtain ⟨aSmall, bSmall, cSmall, dSmall, restSmall⟩ := small
      rw [unused, ← induction restSmall inner]
      simp only [split, UInt8.toNat_ofNat', List.cons.injEq]
      constructor
      · exact fun same => same.2.2.2.2
      · intro same
        refine ⟨by omega, by omega, by omega, by omega, same⟩

/-- The alphabet has one character for each number. -/
theorem digit_value? {char : Char} {value : Nat}
    (found : value? char = some value) : value < 64 ∧ digit value = char := by
  unfold value? at found
  dsimp only at found
  split at found
  · cases found
    refine ⟨by omega, ?_⟩
    rw [digit, if_pos (by omega), Nat.add_sub_cancel' (by omega)]
    exact Char.ofNat_toNat char
  · split at found
    · cases found
      refine ⟨by omega, ?_⟩
      rw [digit, if_neg (by omega), if_pos (by omega),
        Nat.add_sub_cancel' (by omega)]
      exact Char.ofNat_toNat char
    · split at found
      · cases found
        refine ⟨by omega, ?_⟩
        rw [digit, if_neg (by omega), if_neg (by omega), if_pos (by omega),
          Nat.add_sub_cancel]
        exact Char.ofNat_toNat char
      · split at found
        · rename_i dash
          cases found
          exact ⟨by decide, dash.symm⟩
        · split at found
          · rename_i underscore
            cases found
            exact ⟨by decide, underscore.symm⟩
          · cases found

theorem map_digit_of_mapM {chars : List Char} {values : List Nat}
    (found : chars.mapM value? = some values) :
    (∀ value ∈ values, value < 64) ∧ values.map digit = chars := by
  induction chars generalizing values with
  | nil =>
      cases found
      exact ⟨List.forall_mem_nil _, rfl⟩
  | cons char chars induction =>
      rw [List.mapM_cons] at found
      obtain ⟨value, first, rest⟩ := Option.bind_eq_some_iff.mp found
      obtain ⟨tail, later, same⟩ := Option.bind_eq_some_iff.mp rest
      cases same
      obtain ⟨small, digits⟩ := induction later
      obtain ⟨valueSmall, isDigit⟩ := digit_value? first
      refine ⟨List.forall_mem_cons.mpr ⟨valueSmall, small⟩, ?_⟩
      rw [List.map_cons, isDigit, digits]

end Base64
