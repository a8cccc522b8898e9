import Nephos.Library.Utf8
import Mathlib.Data.List.Basic

/-!
# JSON texts

A reader of JSON texts that keeps what a strict decoder has to see: members in
their order, also repeated ones, and number literals as they are written.  A
writer that escapes as the standard encoder does.  The reader takes back what
the writer wrote.

Both work on characters.  A decoder that reads bytes takes an invalid byte
for the replacement character inside a string and refuses it elsewhere, so it
reads the characters that `Utf8.sanitize` gives.
-/

namespace Json

inductive Value where
  | null
  | bool (value : Bool)
  | number (literal : List Char)
  | string (text : List Char)
  | array (items : List Value)
  | object (members : List (List Char × Value))

def isSpace (char : Char) : Bool :=
  char = ' ' || char = '\t' || char = '\r' || char = '\n'

def skipSpace (input : List Char) : List Char := input.dropWhile isSpace

/-- The given character after optional space. -/
def expect (char : Char) (input : List Char) : Option (List Char) :=
  match skipSpace input with
  | [] => none
  | first :: rest => if first = char then some rest else none

def hexValue (char : Char) : Option Nat :=
  if '0' ≤ char ∧ char ≤ '9' then some (char.toNat - 48)
  else if 'a' ≤ char ∧ char ≤ 'f' then some (char.toNat - 87)
  else if 'A' ≤ char ∧ char ≤ 'F' then some (char.toNat - 55)
  else none

/-- The code unit that four hexadecimal digits give. -/
def codeUnit : List Char → Option (Nat × List Char)
  | a :: b :: c :: d :: rest => do
      let first ← hexValue a
      let second ← hexValue b
      let third ← hexValue c
      let fourth ← hexValue d
      some (((first * 16 + second) * 16 + third) * 16 + fourth, rest)
  | _ => none

/-- The character of two code units. -/
def surrogatePair (high low : Nat) : Option Char :=
  if 0xd800 ≤ high ∧ high < 0xdc00 ∧ 0xdc00 ≤ low ∧ low < 0xe000 then
    some (Char.ofNat (0x10000 + (high - 0xd800) * 0x400 + (low - 0xdc00)))
  else none

/-- What stands after a backslash and a `u`.  Half of a pair becomes the
replacement character, and the escape after it is read by itself. -/
def readUnit (input : List Char) : Option (Char × List Char) := do
  let (unit, rest) ← codeUnit input
  if 0xd800 ≤ unit ∧ unit < 0xe000 then
    match rest with
    | '\\' :: 'u' :: following =>
        match codeUnit following with
        | some (low, after) =>
            match surrogatePair unit low with
            | some char => some (char, after)
            | none => some (Utf8.replacement, rest)
        | none => some (Utf8.replacement, rest)
    | _ => some (Utf8.replacement, rest)
  else some (Char.ofNat unit, rest)

/-- What stands after a backslash. -/
def readEscape : List Char → Option (Char × List Char)
  | [] => none
  | first :: rest =>
      if first = 'u' then readUnit rest
      else if first = '"' ∨ first = '\\' ∨ first = '/' then some (first, rest)
      else if first = 'b' then some ('\x08', rest)
      else if first = 'f' then some ('\x0c', rest)
      else if first = 'n' then some ('\n', rest)
      else if first = 'r' then some ('\r', rest)
      else if first = 't' then some ('\t', rest)
      else none

/-- A string after its opening quote. -/
def readString : Nat → List Char → Option (List Char × List Char)
  | 0, _ => none
  | _ + 1, [] => none
  | fuel + 1, first :: rest =>
      if first = '"' then some ([], rest)
      else if first = '\\' then do
        let (char, rest) ← readEscape rest
        let (text, rest) ← readString fuel rest
        some (char :: text, rest)
      else if first.toNat < 0x20 then none
      else do
        let (text, rest) ← readString fuel rest
        some (first :: text, rest)

/-- One digit or more. -/
def readDigits (input : List Char) : Option (List Char × List Char) :=
  if input.takeWhile Char.isDigit = [] then none
  else some (input.takeWhile Char.isDigit, input.dropWhile Char.isDigit)

/-- A whole number, which has no leading zero. -/
def readWhole : List Char → Option (List Char × List Char)
  | [] => none
  | first :: rest =>
      if first = '0' then some (['0'], rest) else readDigits (first :: rest)

def readFraction : List Char → Option (List Char × List Char)
  | [] => some ([], [])
  | first :: rest =>
      if first = '.' then do
        let (digits, rest) ← readDigits rest
        some (first :: digits, rest)
      else some ([], first :: rest)

def readSign (isSign : Char → Bool) : List Char → List Char × List Char
  | [] => ([], [])
  | first :: rest =>
      if isSign first then ([first], rest) else ([], first :: rest)

def readExponent : List Char → Option (List Char × List Char)
  | [] => some ([], [])
  | first :: rest =>
      if first = 'e' ∨ first = 'E' then do
        let (sign, rest) := readSign (fun char => char = '+' || char = '-') rest
        let (digits, rest) ← readDigits rest
        some (first :: sign ++ digits, rest)
      else some ([], first :: rest)

def readNumber (input : List Char) : Option (List Char × List Char) := do
  let (sign, rest) := readSign (fun char => char = '-') input
  let (whole, rest) ← readWhole rest
  let (fraction, rest) ← readFraction rest
  let (exponent, rest) ← readExponent rest
  some (sign ++ whole ++ fraction ++ exponent, rest)

def readWord (word : String) (value : Value) (input : List Char) :
    Option (Value × List Char) :=
  if word.toList.isPrefixOf input then
    some (value, input.drop word.toList.length)
  else none

mutual

/-- The first value of the input and what follows it.  Of two calls in each
other at least one takes a character, so twice as much fuel as there are
characters is enough. -/
def readValue : Nat → List Char → Option (Value × List Char)
  | 0, _ => none
  | fuel + 1, input =>
      match skipSpace input with
      | [] => none
      | first :: rest =>
          if first = '{' then
            match expect '}' rest with
            | some rest => some (.object [], rest)
            | none => do
                let (members, rest) ← readMembers fuel rest
                some (.object members, rest)
          else if first = '[' then
            match expect ']' rest with
            | some rest => some (.array [], rest)
            | none => do
                let (items, rest) ← readItems fuel rest
                some (.array items, rest)
          else if first = '"' then do
            let (text, rest) ← readString fuel rest
            some (.string text, rest)
          else if first = 't' then
            readWord "true" (.bool true) (first :: rest)
          else if first = 'f' then
            readWord "false" (.bool false) (first :: rest)
          else if first = 'n' then readWord "null" .null (first :: rest)
          else do
            let (literal, rest) ← readNumber (first :: rest)
            some (.number literal, rest)

/-- The items of an array up to its end. -/
def readItems : Nat → List Char → Option (List Value × List Char)
  | 0, _ => none
  | fuel + 1, input => do
      let (item, rest) ← readValue fuel input
      match expect ',' rest with
      | some rest =>
          let (items, rest) ← readItems fuel rest
          some (item :: items, rest)
      | none =>
          let rest ← expect ']' rest
          some ([item], rest)

/-- The members of an object up to its end. -/
def readMembers :
    Nat → List Char → Option (List (List Char × Value) × List Char)
  | 0, _ => none
  | fuel + 1, input => do
      let rest ← expect '"' input
      let (key, rest) ← readString fuel rest
      let rest ← expect ':' rest
      let (value, rest) ← readValue fuel rest
      match expect ',' rest with
      | some rest =>
          let (members, rest) ← readMembers fuel rest
          some ((key, value) :: members, rest)
      | none =>
          let rest ← expect '}' rest
          some ([(key, value)], rest)

end

/-- The first value of a stream and what is left of the stream. -/
def next (input : List Char) : Option (Value × List Char) :=
  readValue (2 * input.length + 1) input

/-- A text that is one value. -/
def parse (input : List Char) : Option Value := do
  let (value, rest) ← next input
  if skipSpace rest = [] then some value else none

/-- What is written: strings are bytes and may be invalid. -/
inductive Tree where
  | bool (value : Bool)
  | number (value : Nat)
  | string (bytes : List UInt8)
  | array (items : List Tree)
  | object (members : List (List Char × Tree))

def hexDigit (nibble : Nat) : Char :=
  Char.ofNat (if nibble < 10 then 48 + nibble else 87 + nibble)

def escape (char : Char) : List Char :=
  if char = '"' ∨ char = '\\' then ['\\', char]
  else if char = '\x08' then ['\\', 'b']
  else if char = '\x0c' then ['\\', 'f']
  else if char = '\n' then ['\\', 'n']
  else if char = '\r' then ['\\', 'r']
  else if char = '\t' then ['\\', 't']
  else if char.toNat < 0x20 ∨ char = '<' ∨ char = '>' ∨ char = '&' then
    ['\\', 'u', '0', '0', hexDigit (char.toNat / 16),
      hexDigit (char.toNat % 16)]
  else if char.toNat = 0x2028 ∨ char.toNat = 0x2029 then
    ['\\', 'u', '2', '0', '2', hexDigit (char.toNat % 16)]
  else [char]

/-- An invalid byte is written as the replacement character. -/
def escapeRune : Option Char → List Char
  | none => [Utf8.replacement]
  | some char => escape char

def quote (runes : List (Option Char)) : List Char :=
  '"' :: runes.flatMap escapeRune ++ ['"']

mutual

def Tree.encode : Tree → List Char
  | .bool true => ['t', 'r', 'u', 'e']
  | .bool false => ['f', 'a', 'l', 's', 'e']
  | .number value => Nat.toDigits 10 value
  | .string bytes => quote (Utf8.runes bytes)
  | .array items => '[' :: encodeItems items ++ [']']
  | .object members => '{' :: encodeMembers members ++ ['}']

def encodeItems : List Tree → List Char
  | [] => []
  | [item] => item.encode
  | item :: next :: items => item.encode ++ ',' :: encodeItems (next :: items)

def encodeMembers : List (List Char × Tree) → List Char
  | [] => []
  | [(key, item)] => quote (key.map some) ++ ':' :: item.encode
  | (key, item) :: next :: members =>
      quote (key.map some) ++ ':' :: item.encode ++
        ',' :: encodeMembers (next :: members)

end

mutual

/-- What the reader sees of a tree. -/
def Tree.value : Tree → Value
  | .bool value => .bool value
  | .number value => .number (Nat.toDigits 10 value)
  | .string bytes => .string (Utf8.sanitize bytes)
  | .array items => .array (itemValues items)
  | .object members => .object (memberValues members)

def itemValues : List Tree → List Value
  | [] => []
  | item :: items => item.value :: itemValues items

def memberValues : List (List Char × Tree) → List (List Char × Value)
  | [] => []
  | (key, item) :: members => (key, item.value) :: memberValues members

end

theorem skipSpace_cons {first : Char} (plain : isSpace first = false)
    (rest : List Char) : skipSpace (first :: rest) = first :: rest :=
  List.dropWhile_cons_of_neg (by simp [plain])

theorem expect_self {char : Char} (plain : isSpace char = false)
    (rest : List Char) : expect char (char :: rest) = some rest := by
  rw [expect, skipSpace_cons plain]
  exact if_pos rfl

theorem expect_other {char first : Char} (plain : isSpace first = false)
    (other : first ≠ char) (rest : List Char) :
    expect char (first :: rest) = none := by
  rw [expect, skipSpace_cons plain]
  exact if_neg other

theorem hexValue_hexDigit :
    ∀ nibble < 16, hexValue (hexDigit nibble) = some nibble := by
  decide

theorem readUnit_hex {unit : Nat} {a b c d : Char} {first second third fourth : Nat}
    (isFirst : hexValue a = some first) (isSecond : hexValue b = some second)
    (isThird : hexValue c = some third) (isFourth : hexValue d = some fourth)
    (value : unit = ((first * 16 + second) * 16 + third) * 16 + fourth)
    (plain : unit < 0xd800 ∨ 0xe000 ≤ unit) (rest : List Char) :
    readUnit (a :: b :: c :: d :: rest) = some (Char.ofNat unit, rest) := by
  have digits : codeUnit (a :: b :: c :: d :: rest) = some (unit, rest) := by
    simp [codeUnit, isFirst, isSecond, isThird, isFourth, value]
  have other : ¬ (0xd800 ≤ unit ∧ unit < 0xe000) := by omega
  simp only [readUnit, digits, Option.bind_eq_bind, Option.bind_some,
    if_neg other]

theorem readString_backslash (fuel : Nat) {input rest : List Char}
    {char : Char} (escaped : readEscape input = some (char, rest)) :
    readString (fuel + 1) ('\\' :: input) =
      (readString fuel rest).map fun (text, rest) => (char :: text, rest) := by
  rw [readString, if_neg (by decide), if_pos rfl, escaped]
  simp only [Option.bind_eq_bind, Option.bind_some]
  cases readString fuel rest <;> rfl

theorem readString_plain (fuel : Nat) {char : Char}
    (notQuote : char ≠ '"') (notBackslash : char ≠ '\\')
    (printed : ¬ char.toNat < 0x20) (rest : List Char) :
    readString (fuel + 1) (char :: rest) =
      (readString fuel rest).map fun (text, rest) => (char :: text, rest) := by
  rw [readString, if_neg notQuote, if_neg notBackslash, if_neg printed]
  cases readString fuel rest <;> rfl

/-- An escaped character in front of the rest of a string. -/
theorem readString_escape (fuel : Nat) (char : Char) (rest : List Char) :
    readString (fuel + 1) (escape char ++ rest) =
      (readString fuel rest).map fun (text, rest) => (char :: text, rest) := by
  have nibble := hexValue_hexDigit
  have zero : hexValue '0' = some 0 := by decide
  have two : hexValue '2' = some 2 := by decide
  unfold escape
  split
  · rename_i special
    apply readString_backslash
    rcases special with rfl | rfl <;> rfl
  split
  · rename_i special
    subst special
    exact readString_backslash fuel rfl
  split
  · rename_i special
    subst special
    exact readString_backslash fuel rfl
  split
  · rename_i special
    subst special
    exact readString_backslash fuel rfl
  split
  · rename_i special
    subst special
    exact readString_backslash fuel rfl
  split
  · rename_i special
    subst special
    exact readString_backslash fuel rfl
  split
  · rename_i special
    have small : char.toNat < 128 := by
      rcases special with control | rfl | rfl | rfl
      · omega
      all_goals decide
    apply readString_backslash
    have read := readUnit_hex zero zero
      (nibble (char.toNat / 16) (by omega))
      (nibble (char.toNat % 16) (by omega))
      (show char.toNat = ((0 * 16 + 0) * 16 + char.toNat / 16) * 16 +
        char.toNat % 16 by omega) (by omega) rest
    rw [Char.ofNat_toNat] at read
    exact read
  split
  · rename_i special
    apply readString_backslash
    have read := readUnit_hex two zero two
      (nibble (char.toNat % 16) (by omega))
      (show char.toNat = ((2 * 16 + 0) * 16 + 2) * 16 + char.toNat % 16 by
        omega) (by omega) rest
    rw [Char.ofNat_toNat] at read
    exact read
  · rename_i notSpecial _ _ _ _ _ notEscaped _
    rw [not_or] at notSpecial notEscaped
    exact readString_plain fuel notSpecial.1 notSpecial.2 notEscaped.1 rest

theorem readString_escapeRune (fuel : Nat) (rune : Option Char)
    (rest : List Char) :
    readString (fuel + 1) (escapeRune rune ++ rest) =
      (readString fuel rest).map fun (text, rest) =>
        (rune.getD Utf8.replacement :: text, rest) := by
  cases rune with
  | none =>
      exact readString_plain fuel (by decide) (by decide) (by decide) rest
  | some char => exact readString_escape fuel char rest

theorem escapeRune_length_pos (rune : Option Char) :
    0 < (escapeRune rune).length := by
  cases rune with
  | none => decide
  | some char =>
      simp only [escapeRune, escape]
      repeat' split
      all_goals simp

/-- A quoted string, after its opening quote. -/
theorem readString_quoted {fuel : Nat} (runes : List (Option Char))
    (rest : List Char)
    (enough : (runes.flatMap escapeRune ++ '"' :: rest).length ≤ fuel) :
    readString fuel (runes.flatMap escapeRune ++ '"' :: rest) =
      some (runes.map fun rune => rune.getD Utf8.replacement, rest) := by
  induction runes generalizing fuel with
  | nil =>
      cases fuel with
      | zero => simp at enough
      | succ fuel => exact if_pos rfl
  | cons rune runes induction =>
      have positive := escapeRune_length_pos rune
      simp only [List.flatMap_cons, List.append_assoc,
        List.length_append] at enough ⊢
      cases fuel with
      | zero => omega
      | succ fuel =>
          rw [readString_escapeRune, induction (by
            simp only [List.length_append]
            omega)]
          rfl

theorem toDigits_head_ne_zero {number : Nat} (positive : 0 < number) :
    (Nat.toDigits 10 number).head? ≠ some '0' := by
  induction number using Nat.strongRecOn with
  | _ number induction =>
      rw [Nat.toDigits_eq_if (by decide)]
      split
      · rename_i small
        have digits : ∀ digit < 10, 0 < digit →
            [Nat.digitChar digit].head? ≠ some '0' := by
          decide
        exact digits number small positive
      · rename_i large
        rw [List.head?_append_of_ne_nil _ Nat.toDigits_ne_nil]
        exact induction (number / 10) (by omega) (by omega)

/-- Nothing of the rest can continue a whole number. -/
def Stops (rest : List Char) : Prop :=
  ∀ first ∈ rest.head?, first.isDigit = false ∧ first ≠ '.' ∧
    first ≠ 'e' ∧ first ≠ 'E'

theorem readDigits_append {digits rest : List Char} (nonempty : digits ≠ [])
    (all : ∀ char ∈ digits, char.isDigit = true) (stops : Stops rest) :
    readDigits (digits ++ rest) = some (digits, rest) := by
  have none : rest.takeWhile Char.isDigit = [] ∧
      rest.dropWhile Char.isDigit = rest := by
    cases rest with
    | nil => exact ⟨rfl, rfl⟩
    | cons first rest =>
        have other := (stops first rfl).1
        simp [other]
  rw [readDigits, List.takeWhile_append_of_pos all, none.1, List.append_nil,
    if_neg nonempty, List.dropWhile_append_of_pos all, none.2]

theorem readWhole_toDigits (value : Nat) {rest : List Char}
    (stops : Stops rest) :
    readWhole (Nat.toDigits 10 value ++ rest) =
      some (Nat.toDigits 10 value, rest) := by
  have all : ∀ char ∈ Nat.toDigits 10 value, char.isDigit = true :=
    fun _ member =>
      Nat.isDigit_of_mem_toDigits (by decide) (by decide) member
  rcases Nat.eq_zero_or_pos value with rfl | positive
  · rfl
  · have head := toDigits_head_ne_zero positive
    have read := readDigits_append Nat.toDigits_ne_nil all stops
    cases digits : Nat.toDigits 10 value with
    | nil => exact absurd digits Nat.toDigits_ne_nil
    | cons first others =>
        rw [digits] at head read
        have nonzero : first ≠ '0' := fun zero => head (congrArg some zero)
        exact (if_neg nonzero).trans read

theorem readFraction_of_stops {rest : List Char} (stops : Stops rest) :
    readFraction rest = some ([], rest) := by
  cases rest with
  | nil => rfl
  | cons first rest => exact if_neg (stops first rfl).2.1

theorem readExponent_of_stops {rest : List Char} (stops : Stops rest) :
    readExponent rest = some ([], rest) := by
  cases rest with
  | nil => rfl
  | cons first rest =>
      have other := (stops first rfl).2.2
      exact if_neg (not_or.mpr other)

theorem readNumber_toDigits (value : Nat) {rest : List Char}
    (stops : Stops rest) :
    readNumber (Nat.toDigits 10 value ++ rest) =
      some (Nat.toDigits 10 value, rest) := by
  have unsigned : readSign (fun char => char = '-')
      (Nat.toDigits 10 value ++ rest) =
        ([], Nat.toDigits 10 value ++ rest) := by
    cases digits : Nat.toDigits 10 value with
    | nil => exact absurd digits Nat.toDigits_ne_nil
    | cons first others =>
        have digit : first.isDigit = true := by
          apply Nat.isDigit_of_mem_toDigits (b := 10) (n := value)
            (by decide) (by decide)
          rw [digits]
          exact List.mem_cons_self
        have other : first ≠ '-' := by
          rintro rfl
          exact absurd digit (by decide)
        simp [readSign, other]
  simp [readNumber, unsigned, readWhole_toDigits value stops,
    readFraction_of_stops stops, readExponent_of_stops stops]

theorem stops_cons {first : Char} {rest : List Char}
    (other : first.isDigit = false ∧ first ≠ '.' ∧ first ≠ 'e' ∧
      first ≠ 'E') : Stops (first :: rest) := by
  intro head isHead
  cases isHead
  exact other

theorem stops_nil : Stops [] := nofun

/-- How the text of a tree begins. -/
theorem encode_cons (tree : Tree) :
    ∃ first rest, tree.encode = first :: rest ∧ isSpace first = false ∧
      first ≠ ']' := by
  cases tree with
  | bool value => cases value <;> exact ⟨_, _, rfl, by decide, by decide⟩
  | number value =>
      cases digits : Nat.toDigits 10 value with
      | nil => exact absurd digits Nat.toDigits_ne_nil
      | cons first rest =>
          have digit : first.isDigit = true := by
            apply Nat.isDigit_of_mem_toDigits (b := 10) (n := value)
              (by decide) (by decide)
            rw [digits]
            exact List.mem_cons_self
          refine ⟨first, rest, digits, ?_, ?_⟩
          · by_contra space
            rw [Bool.not_eq_false] at space
            simp only [isSpace, Bool.or_eq_true, decide_eq_true_eq] at space
            rcases space with ((rfl | rfl) | rfl) | rfl <;>
              exact absurd digit (by decide)
          · rintro rfl
            exact absurd digit (by decide)
  | string bytes => exact ⟨_, _, rfl, by decide, by decide⟩
  | array items => exact ⟨_, _, rfl, by decide, by decide⟩
  | object members => exact ⟨_, _, rfl, by decide, by decide⟩

/-- What the three functions do with written texts. -/
structure ReadsBack (fuel : Nat) : Prop where
  value (tree : Tree) (rest : List Char) (stops : Stops rest)
    (enough : 2 * (tree.encode ++ rest).length < fuel) :
    readValue fuel (tree.encode ++ rest) = some (tree.value, rest)
  items (item : Tree) (items : List Tree) (rest : List Char)
    (enough : 2 * (encodeItems (item :: items) ++ ']' :: rest).length + 1 <
      fuel) :
    readItems fuel (encodeItems (item :: items) ++ ']' :: rest) =
      some (itemValues (item :: items), rest)
  members (member : List Char × Tree) (members : List (List Char × Tree))
    (rest : List Char)
    (enough : 2 * (encodeMembers (member :: members) ++ '}' :: rest).length <
      fuel) :
    readMembers fuel (encodeMembers (member :: members) ++ '}' :: rest) =
      some (memberValues (member :: members), rest)

section Step

variable {fuel : Nat}

theorem readValue_string (bytes : List UInt8) (rest : List Char)
    (enough : (quote (Utf8.runes bytes) ++ rest).length ≤ fuel) :
    readValue (fuel + 1) (quote (Utf8.runes bytes) ++ rest) =
      some (.string (Utf8.sanitize bytes), rest) := by
  simp only [quote, List.cons_append, List.append_assoc, List.nil_append,
    List.length_cons] at enough ⊢
  rw [readValue, skipSpace_cons (by decide)]
  simp only [Char.reduceEq, if_false, if_true]
  rw [readString_quoted _ rest (by omega)]
  rfl

theorem readValue_number (value : Nat) {rest : List Char}
    (stops : Stops rest) :
    readValue (fuel + 1) (Nat.toDigits 10 value ++ rest) =
      some (.number (Nat.toDigits 10 value), rest) := by
  have read := readNumber_toDigits value stops
  have digits : ∀ char ∈ Nat.toDigits 10 value, char.isDigit = true :=
    fun _ member =>
      Nat.isDigit_of_mem_toDigits (by decide) (by decide) member
  obtain ⟨first, others, encoded, plain, -⟩ := encode_cons (.number value)
  rw [show Nat.toDigits 10 value = first :: others from encoded] at read digits ⊢
  have digit := digits first List.mem_cons_self
  have other (char : Char) (noDigit : char.isDigit = false) :
      first ≠ char := by
    rintro rfl
    exact absurd digit (by simp [noDigit])
  rw [List.cons_append] at read ⊢
  rw [readValue, skipSpace_cons plain]
  simp only [other _ (show Char.isDigit '{' = false by decide),
    other _ (show Char.isDigit '[' = false by decide),
    other _ (show Char.isDigit '"' = false by decide),
    other _ (show Char.isDigit 't' = false by decide),
    other _ (show Char.isDigit 'f' = false by decide),
    other _ (show Char.isDigit 'n' = false by decide), if_false, read]
  rfl

theorem readValue_array (reads : ReadsBack fuel) (items : List Tree)
    (rest : List Char)
    (enough : 2 * ((Tree.array items).encode ++ rest).length < fuel + 1) :
    readValue (fuel + 1) ((Tree.array items).encode ++ rest) =
      some ((Tree.array items).value, rest) := by
  simp only [Tree.encode, List.cons_append, List.append_assoc,
    List.nil_append, List.length_cons] at enough ⊢
  rw [readValue, skipSpace_cons (by decide)]
  simp only [Char.reduceEq, if_false, if_true]
  cases items with
  | nil => rfl
  | cons item items =>
      obtain ⟨first, others, encoded, plain, other⟩ := encode_cons item
      have begins : ∃ more, encodeItems (item :: items) = first :: more := by
        cases items <;> simp [encodeItems, encoded]
      obtain ⟨more, begins⟩ := begins
      have notEnd : expect ']' (encodeItems (item :: items) ++ ']' :: rest) =
          none := by
        rw [begins]
        exact expect_other plain other _
      rw [notEnd, reads.items item items rest (by omega)]
      rfl

theorem readValue_object (reads : ReadsBack fuel)
    (members : List (List Char × Tree)) (rest : List Char)
    (enough : 2 * ((Tree.object members).encode ++ rest).length < fuel + 1) :
    readValue (fuel + 1) ((Tree.object members).encode ++ rest) =
      some ((Tree.object members).value, rest) := by
  simp only [Tree.encode, List.cons_append, List.append_assoc,
    List.nil_append, List.length_cons] at enough ⊢
  rw [readValue, skipSpace_cons (by decide)]
  simp only [Char.reduceEq, if_false, if_true]
  cases members with
  | nil => rfl
  | cons member members =>
      obtain ⟨key, item⟩ := member
      have begins : ∃ more,
          encodeMembers ((key, item) :: members) = '"' :: more := by
        cases members <;> simp [encodeMembers, quote]
      obtain ⟨more, begins⟩ := begins
      have notEnd : expect '}'
          (encodeMembers ((key, item) :: members) ++ '}' :: rest) = none := by
        rw [begins]
        exact expect_other (by decide) (by decide) _
      rw [notEnd, reads.members (key, item) members rest (by omega)]
      rfl

theorem readItems_cons (reads : ReadsBack fuel) (item : Tree)
    (items : List Tree) (rest : List Char)
    (enough : 2 * (encodeItems (item :: items) ++ ']' :: rest).length + 1 <
      fuel + 1) :
    readItems (fuel + 1) (encodeItems (item :: items) ++ ']' :: rest) =
      some (itemValues (item :: items), rest) := by
  cases items with
  | nil =>
      rw [readItems, encodeItems, reads.value item _
        (stops_cons (by decide)) (by simpa [encodeItems] using enough)]
      rfl
  | cons next items =>
      simp only [encodeItems, List.append_assoc, List.cons_append,
        List.length_append, List.length_cons] at enough ⊢
      rw [readItems, reads.value item _ (stops_cons (by decide)) (by
        simp only [List.length_append, List.length_cons]
        omega)]
      simp only [Option.bind_eq_bind, Option.bind_some,
        expect_self (show isSpace ',' = false by decide)]
      rw [reads.items next items rest (by
        simp only [List.length_append, List.length_cons]
        omega)]
      rfl

/-- The key and the value of the first member. -/
theorem readMembers_member (reads : ReadsBack fuel) (key : List Char)
    (item : Tree) {rest : List Char} (stops : Stops rest)
    (enough : 2 * (quote (key.map some) ++
      ':' :: (item.encode ++ rest)).length < fuel + 1) :
    readMembers (fuel + 1)
        (quote (key.map some) ++ ':' :: (item.encode ++ rest)) =
      (match expect ',' rest with
      | some rest => do
          let (members, rest) ← readMembers fuel rest
          some ((key, item.value) :: members, rest)
      | none => do
          let rest ← expect '}' rest
          some ([(key, item.value)], rest)) := by
  have same : (key.map some).map
      (fun rune => rune.getD Utf8.replacement) = key := by
    rw [List.map_map]
    exact List.map_id key
  simp only [quote, List.cons_append, List.append_assoc, List.nil_append,
    List.length_cons, List.length_append] at enough ⊢
  have text := @readString_quoted fuel (key.map some)
    (':' :: (item.encode ++ rest)) (by
      simp only [List.length_append, List.length_cons]
      omega)
  rw [same] at text
  rw [readMembers]
  simp only [expect_self (show isSpace '"' = false by decide),
    expect_self (show isSpace ':' = false by decide), text,
    Option.bind_eq_bind, Option.bind_some]
  rw [reads.value item rest stops (by
    simp only [List.length_append]
    omega)]
  rfl

theorem readMembers_cons (reads : ReadsBack fuel)
    (member : List Char × Tree) (members : List (List Char × Tree))
    (rest : List Char)
    (enough : 2 * (encodeMembers (member :: members) ++ '}' :: rest).length <
      fuel + 1) :
    readMembers (fuel + 1) (encodeMembers (member :: members) ++ '}' :: rest) =
      some (memberValues (member :: members), rest) := by
  obtain ⟨key, item⟩ := member
  cases members with
  | nil =>
      simp only [encodeMembers, List.append_assoc, List.cons_append]
        at enough ⊢
      rw [readMembers_member reads key item (stops_cons (by decide)) enough]
      rfl
  | cons next members =>
      simp only [encodeMembers, List.append_assoc, List.cons_append]
        at enough ⊢
      rw [readMembers_member reads key item (stops_cons (by decide)) enough]
      simp only [expect_self (show isSpace ',' = false by decide)]
      rw [reads.members next members rest (by
        simp only [List.length_append, List.length_cons] at enough ⊢
        omega)]
      rfl

end Step

theorem readsBack (fuel : Nat) : ReadsBack fuel := by
  induction fuel with
  | zero =>
      constructor
      · intro tree rest _ enough
        omega
      · intro item items rest enough
        omega
      · intro member members rest enough
        omega
  | succ fuel reads =>
      constructor
      · intro tree rest stops enough
        cases tree with
        | bool value =>
            cases value <;>
              simp [readValue, Tree.encode, Tree.value, skipSpace, isSpace,
                readWord]
        | number value => exact readValue_number value stops
        | string bytes =>
            exact readValue_string bytes rest (by
              simp only [Tree.encode] at enough
              omega)
        | array items => exact readValue_array reads items rest enough
        | object members => exact readValue_object reads members rest enough
      · exact readItems_cons reads
      · exact readMembers_cons reads

theorem next_encode (tree : Tree) (rest : List Char) (stops : Stops rest) :
    next (tree.encode ++ rest) = some (tree.value, rest) :=
  (readsBack _).value tree rest stops (Nat.lt_succ_self _)

theorem parse_encode (tree : Tree) : parse tree.encode = some tree.value := by
  have read := next_encode tree [] stops_nil
  rw [List.append_nil] at read
  rw [parse, read]
  rfl

/-- The bytes that a character takes inside a written string. -/
def runeSize : Option Char → Nat
  | none => 3
  | some char =>
      if char ∈ ['"', '\\', '\x08', '\x0c', '\n', '\r', '\t'] then 2
      else if char.toNat < 0x20 ∨ char ∈ ['<', '>', '&'] ∨
          char.toNat ∈ [0x2028, 0x2029] then 6
      else char.utf8Size

theorem hexDigit_utf8Size : ∀ nibble < 16, (hexDigit nibble).utf8Size = 1 := by
  decide

theorem encode_escape_length (char : Char) :
    (Utf8.encode (escape char)).length = runeSize (some char) := by
  have nibble := hexDigit_utf8Size
  have digit := nibble (char.toNat % 16) (Nat.mod_lt _ (by decide))
  simp only [runeSize]
  split
  · rename_i short
    simp only [List.mem_cons, List.not_mem_nil, or_false] at short
    rcases short with rfl | rfl | rfl | rfl | rfl | rfl | rfl <;> rfl
  · rename_i long
    simp only [List.mem_cons, List.not_mem_nil, or_false, not_or] at long
    obtain ⟨quoteMark, backslash, bell, feed, line, back, tab⟩ := long
    simp only [escape, quoteMark, backslash, bell, feed, line, back, tab,
      or_self, if_false, List.mem_cons, List.not_mem_nil, or_false]
    by_cases escaped : char.toNat < 0x20 ∨ char = '<' ∨ char = '>' ∨
        char = '&'
    · have small : char.toNat < 128 := by
        rcases escaped with control | rfl | rfl | rfl
        · omega
        all_goals decide
      have high := nibble (char.toNat / 16) (by omega)
      have six : char.toNat < 0x20 ∨ (char = '<' ∨ char = '>' ∨
          char = '&') ∨ (char.toNat = 0x2028 ∨ char.toNat = 0x2029) :=
        escaped.imp_right .inl
      rw [if_pos escaped, if_pos six, Utf8.encode_length]
      simp only [List.map_cons, List.map_nil, high, digit]
      rfl
    · rw [if_neg escaped]
      rw [not_or] at escaped
      by_cases separator : char.toNat = 0x2028 ∨ char.toNat = 0x2029
      · have six : char.toNat < 0x20 ∨ (char = '<' ∨ char = '>' ∨
            char = '&') ∨ (char.toNat = 0x2028 ∨ char.toNat = 0x2029) :=
          .inr (.inr separator)
        rw [if_pos separator, if_pos six, Utf8.encode_length]
        simp only [List.map_cons, List.map_nil, digit]
        rfl
      · have plain : ¬ (char.toNat < 0x20 ∨ (char = '<' ∨ char = '>' ∨
            char = '&') ∨ (char.toNat = 0x2028 ∨ char.toNat = 0x2029)) := by
          rintro (control | html | other)
          · exact escaped.1 control
          · exact escaped.2 html
          · exact separator other
        rw [if_neg separator, if_neg plain, Utf8.encode_length]
        rfl

theorem encode_escapeRune_length (rune : Option Char) :
    (Utf8.encode (escapeRune rune)).length = runeSize rune := by
  cases rune with
  | none => rfl
  | some char => exact encode_escape_length char

theorem encode_quote_length (runes : List (Option Char)) :
    (Utf8.encode (quote runes)).length = (runes.map runeSize).sum + 2 := by
  have body : (Utf8.encode (runes.flatMap escapeRune)).length =
      (runes.map runeSize).sum := by
    induction runes with
    | nil => rfl
    | cons rune runes induction =>
        rw [List.flatMap_cons, Utf8.encode_append, List.length_append,
          encode_escapeRune_length, induction, List.map_cons, List.sum_cons]
  have parts : Utf8.encode (quote runes) =
      Utf8.encode ['"'] ++
        (Utf8.encode (runes.flatMap escapeRune) ++ Utf8.encode ['"']) := by
    rw [← Utf8.encode_append, ← Utf8.encode_append]
    rfl
  rw [parts, List.length_append, List.length_append, body]
  exact Nat.add_comm _ _

end Json
