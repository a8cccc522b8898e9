import Mathlib.Algebra.Ring.Nat
import Mathlib.Data.List.Basic
import Mathlib.Tactic.Common

/-!
# Reading bytes as characters

A byte string is read one character at a time.  A byte that does not begin a
valid encoding stands for itself, so that no input is refused; whoever reads
on puts the replacement character in its place.
-/

namespace Utf8

/-- The character at the front, if its encoding is valid. -/
def decode? (bytes : List UInt8) : Option Char :=
  bytes.toByteArray.utf8DecodeChar? 0

def encode (chars : List Char) : List UInt8 :=
  chars.flatMap String.utf8EncodeChar

/-- The characters of the bytes after the first `skip`; `none` is a byte that
is part of no character. -/
def runesFrom : Nat → List UInt8 → List (Option Char)
  | _, [] => []
  | skip + 1, _ :: bytes => runesFrom skip bytes
  | 0, byte :: bytes =>
      match decode? (byte :: bytes) with
      | none => none :: runesFrom 0 bytes
      | some char => some char :: runesFrom (char.utf8Size - 1) bytes

def runes (bytes : List UInt8) : List (Option Char) := runesFrom 0 bytes

def replacement : Char := '�'

/-- The characters, with the replacement character for what is invalid. -/
def sanitize (bytes : List UInt8) : List Char :=
  (runes bytes).map fun rune => rune.getD replacement

def Valid (bytes : List UInt8) : Prop := none ∉ runes bytes

instance (bytes : List UInt8) : Decidable (Valid bytes) :=
  inferInstanceAs (Decidable (none ∉ runes bytes))

theorem runesFrom_eq_runes_drop (skip : Nat) (bytes : List UInt8) :
    runesFrom skip bytes = runes (bytes.drop skip) := by
  induction bytes generalizing skip with
  | nil => simp [runesFrom, runes]
  | cons byte bytes induction =>
      cases skip with
      | zero => rfl
      | succ skip => exact induction skip

theorem decode?_encode (char : Char) (rest : List UInt8) :
    decode? (String.utf8EncodeChar char ++ rest) = some char := by
  rw [decode?, List.toByteArray_append]
  exact ByteArray.utf8DecodeChar?_utf8EncodeChar_append

theorem eq_of_decode? {bytes : List UInt8} {char : Char}
    (decoded : decode? bytes = some char) :
    bytes = String.utf8EncodeChar char ++ bytes.drop char.utf8Size := by
  have same := ByteArray.eq_of_utf8DecodeChar?_eq_some decoded
  have lists := congrArg (fun array => array.data.toList) same
  have all : (bytes.drop char.utf8Size).take
      (bytes.length - char.utf8Size) = bytes.drop char.utf8Size := by
    rw [← List.length_drop, List.take_length]
  simpa [all] using lists

/-- One step of the reading: an invalid byte, or a character. -/
theorem runes_cons (byte : UInt8) (bytes : List UInt8) :
    (decode? (byte :: bytes) = none ∧
      runes (byte :: bytes) = none :: runes bytes) ∨
    ∃ char rest, byte :: bytes = String.utf8EncodeChar char ++ rest ∧
      runes (byte :: bytes) = some char :: runes rest := by
  cases decoded : decode? (byte :: bytes) with
  | none =>
      refine .inl ⟨rfl, ?_⟩
      rw [runes, runesFrom, decoded]
      rfl
  | some char =>
      refine .inr ⟨char, _, eq_of_decode? decoded, ?_⟩
      obtain ⟨size, isSize⟩ :=
        Nat.exists_eq_add_of_lt char.utf8Size_pos
      rw [runes, runesFrom, decoded]
      simp only [runesFrom_eq_runes_drop, isSize, Nat.zero_add,
        Nat.add_sub_cancel, List.drop_succ_cons]

theorem runes_encodeChar (char : Char) (rest : List UInt8) :
    runes (String.utf8EncodeChar char ++ rest) = some char :: runes rest := by
  have length := String.length_utf8EncodeChar char
  cases encoded : String.utf8EncodeChar char with
  | nil =>
      rw [encoded] at length
      exact absurd length (Nat.ne_of_lt char.utf8Size_pos)
  | cons byte bytes =>
      have decoded := decode?_encode char rest
      rw [encoded, List.cons_append] at decoded
      rw [encoded, List.length_cons] at length
      rw [List.cons_append, runes, runesFrom, decoded]
      simp only [runesFrom_eq_runes_drop, ← length, Nat.add_sub_cancel,
        List.drop_left]

theorem runes_encode (chars : List Char) :
    runes (encode chars) = chars.map some := by
  induction chars with
  | nil => rfl
  | cons char chars induction =>
      rw [encode, List.flatMap_cons, runes_encodeChar, List.map_cons]
      exact congrArg _ induction

theorem sanitize_encode (chars : List Char) :
    sanitize (encode chars) = chars := by
  rw [sanitize, runes_encode, List.map_map]
  exact List.map_id chars

/-- Induction along the characters of a byte string. -/
theorem runes_induction {motive : List UInt8 → Prop} (empty : motive [])
    (invalid : ∀ byte bytes, runes (byte :: bytes) = none :: runes bytes →
      motive bytes → motive (byte :: bytes))
    (valid : ∀ char bytes, motive bytes →
      motive (String.utf8EncodeChar char ++ bytes)) (bytes : List UInt8) :
    motive bytes := by
  induction length : bytes.length using Nat.strongRecOn
    generalizing bytes with
  | _ count induction =>
      cases bytes with
      | nil => exact empty
      | cons byte bytes =>
          rcases runes_cons byte bytes with ⟨-, read⟩ | ⟨char, rest, same, -⟩
          · exact invalid byte bytes read
              (induction bytes.length (by simp [← length]) bytes rfl)
          · have shorter : rest.length < count := by
              rw [← length, same, List.length_append,
                String.length_utf8EncodeChar]
              exact Nat.lt_add_of_pos_left char.utf8Size_pos
            rw [same]
            exact valid char rest (induction rest.length shorter rest rfl)

/-- Nothing is replaced in valid bytes. -/
theorem encode_sanitize_of_valid {bytes : List UInt8} (valid : Valid bytes) :
    encode (sanitize bytes) = bytes := by
  induction bytes using runes_induction with
  | empty => rfl
  | invalid byte bytes read =>
      rw [Valid, read] at valid
      exact absurd List.mem_cons_self valid
  | valid char bytes induction =>
      rw [Valid, runes_encodeChar] at valid
      have after := induction fun invalid =>
        valid (List.mem_cons_of_mem _ invalid)
      rw [sanitize, runes_encodeChar, List.map_cons, encode,
        List.flatMap_cons]
      exact congrArg _ after

/-- Only bytes of the replacement character are new. -/
theorem mem_encode_sanitize {bytes : List UInt8} {byte : UInt8}
    (member : byte ∈ encode (sanitize bytes)) :
    byte ∈ bytes ∨ byte ∈ String.utf8EncodeChar replacement := by
  induction bytes using runes_induction with
  | empty => cases member
  | invalid first bytes read induction =>
      rw [sanitize, read, List.map_cons, encode, List.flatMap_cons,
        List.mem_append] at member
      rcases member with new | later
      · exact .inr new
      · exact (induction later).imp_left (List.mem_cons_of_mem first)
  | valid char bytes induction =>
      rw [sanitize, runes_encodeChar, List.map_cons, encode,
        List.flatMap_cons, List.mem_append] at member
      rw [List.mem_append]
      rcases member with old | later
      · exact .inl (.inl old)
      · exact (induction later).imp_left .inr

/-- Bytes come back unchanged exactly if they are valid. -/
theorem encode_sanitize_iff {bytes : List UInt8} :
    encode (sanitize bytes) = bytes ↔ Valid bytes := by
  refine ⟨fun same => ?_, encode_sanitize_of_valid⟩
  rw [Valid, ← same, runes_encode]
  simp

theorem runes_eq_nil_iff {bytes : List UInt8} : runes bytes = [] ↔ bytes = [] := by
  cases bytes with
  | nil => simp [runes, runesFrom]
  | cons byte bytes =>
      rcases runes_cons byte bytes with ⟨-, read⟩ | ⟨char, rest, -, read⟩ <;>
        simp [read]

theorem encode_length (chars : List Char) :
    (encode chars).length = (chars.map Char.utf8Size).sum := by
  rw [encode, List.length_flatMap]
  simp only [String.length_utf8EncodeChar]

theorem encode_append (left right : List Char) :
    encode (left ++ right) = encode left ++ encode right :=
  List.flatMap_append

end Utf8
