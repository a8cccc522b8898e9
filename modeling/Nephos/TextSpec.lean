import Mathlib.Data.String.Basic
import Nephos.Text
import Nephos.Service.Addressing

/-!
# Texts that determine their values

The payload of a create renders prefixes as text.  Different canonical
prefixes have different texts, so that a payload determines what it was
rendered from.
-/

namespace Nephos

namespace Text

theorem eq_empty_of_le {text : String} (small : text ≤ "") : text = "" := by
  rw [← not_lt, String.lt_iff_toList_lt] at small
  apply String.toList_injective
  cases chars : text.toList with
  | nil => rfl
  | cons char rest =>
      rw [chars] at small
      exact absurd (List.nil_lt_cons char rest) small

theorem decimal_toList (number : Nat) :
    (decimal number).toList = Nat.toDigits 10 number :=
  Nat.toList_repr

theorem decimal_injective {left right : Nat}
    (same : (decimal left).toList = (decimal right).toList) :
    left = right := by
  rw [decimal_toList, decimal_toList] at same
  rw [← Nat.ofDigitChars_ten_toDigits (n := left), same,
    Nat.ofDigitChars_ten_toDigits]

theorem isDigit_of_mem_decimal {number : Nat} {char : Char}
    (member : char ∈ (decimal number).toList) : char.isDigit = true := by
  rw [decimal_toList] at member
  exact Nat.isDigit_of_mem_toDigits (by decide) (by decide) member

/-- A text ends at the first separator. -/
theorem split_unique {separator : Char} {left right : List Char}
    {leftRest rightRest : List Char}
    (inLeft : separator ∉ left) (inRight : separator ∉ right)
    (same : left ++ separator :: leftRest =
      right ++ separator :: rightRest) :
    left = right ∧ leftRest = rightRest := by
  induction left generalizing right with
  | nil =>
      cases right with
      | nil => simpa using same
      | cons char right =>
          obtain ⟨rfl, -⟩ := List.cons.inj same
          simp at inRight
  | cons char left induction =>
      cases right with
      | nil =>
          obtain ⟨rfl, -⟩ := List.cons.inj same
          simp at inLeft
      | cons other right =>
          obtain ⟨rfl, rest⟩ := List.cons.inj same
          rw [List.mem_cons, not_or] at inLeft inRight
          obtain ⟨rfl, sameRest⟩ := induction inLeft.2 inRight.2 rest
          exact ⟨rfl, sameRest⟩

theorem decimal_split {separator : Char} (notDigit : separator.isDigit = false)
    {left right : Nat} {leftRest rightRest : List Char}
    (same : (decimal left).toList ++ separator :: leftRest =
      (decimal right).toList ++ separator :: rightRest) :
    left = right ∧ leftRest = rightRest := by
  have apart : ∀ number, separator ∉ (decimal number).toList := by
    intro number member
    have digit := isDigit_of_mem_decimal member
    rw [notDigit] at digit
    cases digit
  obtain ⟨front, back⟩ := split_unique (apart left) (apart right) same
  exact ⟨decimal_injective front, back⟩

end Text

/-- The four numbers of an IPv4 address determine it. -/
theorem octets_injective {left right : BitVec 32}
    (first : (left >>> 24).toNat % 256 = (right >>> 24).toNat % 256)
    (second : (left >>> 16).toNat % 256 = (right >>> 16).toNat % 256)
    (third : (left >>> 8).toNat % 256 = (right >>> 8).toNat % 256)
    (fourth : (left >>> 0).toNat % 256 = (right >>> 0).toNat % 256) :
    left = right := by
  apply BitVec.eq_of_toNat_eq
  have leftBound := left.isLt
  have rightBound := right.isLt
  simp only [BitVec.toNat_ushiftRight, Nat.shiftRight_eq_div_pow] at *
  omega

/-- Canonical prefixes have different texts. -/
theorem Prefix.text_injective {left right : Prefix}
    (leftAdmissible : Admissible left) (rightAdmissible : Admissible right)
    (same : left.text = right.text) : left = right := by
  obtain ⟨leftIP, leftAddr⟩ := Addr.is4_iff.mp leftAdmissible.is4
  obtain ⟨rightIP, rightAddr⟩ := Addr.is4_iff.mp rightAdmissible.is4
  have chars := congrArg String.toList same
  simp only [Prefix.text, leftAdmissible.valid, rightAdmissible.valid,
    if_true, Addr.text, leftAddr, rightAddr, String.toList_append,
    List.append_assoc] at chars
  obtain ⟨first, chars⟩ := Text.decimal_split (by decide) chars
  obtain ⟨second, chars⟩ := Text.decimal_split (by decide) chars
  obtain ⟨third, chars⟩ := Text.decimal_split (by decide) chars
  obtain ⟨fourth, chars⟩ := Text.decimal_split (by decide) chars
  have length := Text.decimal_injective chars
  obtain rfl := octets_injective first second third fourth
  have leftValid := leftAdmissible.valid
  have rightValid := rightAdmissible.valid
  obtain ⟨leftBase, leftBits, leftBounded⟩ := left
  obtain ⟨rightBase, rightBits, rightBounded⟩ := right
  simp only [Prefix.isValid, bne_iff_ne, ne_eq] at leftValid rightValid
  simp only [Prefix.length] at leftAddr rightAddr length
  subst leftAddr rightAddr
  obtain rfl : leftBits = rightBits := by omega
  rfl

/-- The digits of a number, as the parsers look at them. -/
theorem Text.decimal_numeral (number : Nat) :
    (decimal number).toList ≠ [] ∧
      (decimal number).toList.all Char.isDigit = true ∧
      Nat.ofDigitChars 10 (decimal number).toList 0 = number := by
  refine ⟨?_, ?_, ?_⟩
  · rw [decimal_toList]
    exact Nat.toDigits_ne_nil
  · exact List.all_eq_true.mpr fun _ member => isDigit_of_mem_decimal member
  · rw [decimal_toList]
    exact Nat.ofDigitChars_ten_toDigits

/-- A number is read back from its digits. -/
theorem parseInt64_decimal {number : Nat} (small : number < 2 ^ 63) :
    parseInt64 (Text.decimal number) = some (number : Int) := by
  obtain ⟨nonempty, digits, value⟩ := Text.decimal_numeral number
  have bounded : number < 9223372036854775808 := by omega
  unfold parseInt64
  split
  · rename_i rest chars
    rw [chars] at digits
    simp [Char.isDigit] at digits
  · rename_i rest chars
    rw [chars] at digits
    simp [Char.isDigit] at digits
  · simp [nonempty, digits, value, bounded]

theorem parseUint64_decimal {number : Nat} (small : number < 2 ^ 64) :
    parseUint64 (Text.decimal number) = some number := by
  obtain ⟨nonempty, digits, value⟩ := Text.decimal_numeral number
  simp only [parseUint64, digits, value, if_pos small]
  exact if_pos ⟨nonempty, trivial⟩

/-- A digit is one byte. -/
theorem length_utf8_decimal (number : Nat) :
    (Text.utf8 (Text.decimal number)).length =
      (Nat.toDigits 10 number).length := by
  have single : ∀ chars : List Char, (∀ char ∈ chars, char.isDigit = true) →
      (chars.flatMap String.utf8EncodeChar).length = chars.length := by
    intro chars digits
    induction chars with
    | nil => rfl
    | cons char chars induction =>
        rw [List.forall_mem_cons] at digits
        have small : char.val ≤ 127 := by
          have digit := digits.1
          simp only [Char.isDigit, Bool.and_eq_true, decide_eq_true_eq]
            at digit
          exact UInt32.le_trans digit.2 (by decide)
        rw [List.flatMap_cons, List.length_append, induction digits.2,
          String.length_utf8EncodeChar, Char.utf8Size_eq_one_iff.mpr small,
          List.length_cons, Nat.add_comm]
  unfold Text.utf8
  rw [single _ fun _ member => Text.isDigit_of_mem_decimal member,
    Text.decimal_toList]

end Nephos
