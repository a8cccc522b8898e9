import Nephos.Text

/-!
# Reading prefixes

`netip.ParsePrefix` and the two address parsers under it.  IPv6 text is read
in full although the service only keeps IPv4 blocks, because a well-formed
IPv6 block and malformed text are refused with different messages.
-/

namespace Nephos

namespace Netip

def digitValue (char : Char) : Option Nat :=
  if '0' ≤ char ∧ char ≤ '9' then some (char.toNat - 48) else none

/-- A non-empty run of decimal digits without a superfluous leading zero. -/
def decimalField (chars : List Char) : Option Nat :=
  if chars = [] ∨ (chars.head? = some '0' ∧ chars.length ≠ 1) then none
  else chars.foldl (fun total char =>
    match total, digitValue char with
    | some number, some digit => some (number * 10 + digit)
    | _, _ => none) (some 0)

def octetField (chars : List Char) : Option Nat :=
  match decimalField chars with
  | some number => if number ≤ 255 then some number else none
  | none => none

/-- Four dotted octets, as one number. -/
def parseIPv4 (chars : List Char) : Option Nat :=
  match (chars.splitOn '.').map octetField with
  | [some a, some b, some c, some d] => some (((a * 256 + b) * 256 + c) * 256 + d)
  | _ => none

/-- The leading group of one to four hex digits, and what follows it. -/
def hexGroup (chars : List Char) : Option (Nat × List Char) :=
  let digits := chars.takeWhile (fun char => (Text.hexValue char).isSome)
  if digits = [] ∨ 4 < digits.length then none
  else some
    (digits.foldl (fun total char =>
      total * 16 + (Text.hexValue char).getD 0) 0,
      chars.drop digits.length)

/-- The 16-bit groups read so far and the place of `::` among them. -/
structure Groups where
  values : List Nat
  ellipsis : Option Nat

/-- The loop of `parseIPv6`, for at most `room` further groups. -/
def readGroups : Nat → List Char → Groups → Option Groups
  | 0, chars, groups => if chars = [] then some groups else none
  | room + 1, chars, groups =>
      match hexGroup chars with
      | none => none
      | some (value, rest) =>
          let grown := { groups with values := groups.values ++ [value] }
          match rest with
          | [] => some grown
          | '.' :: _ =>
              if (groups.ellipsis = none ∧ groups.values.length ≠ 6) ∨
                  6 < groups.values.length then none
              else match parseIPv4 chars with
                | some number => some { groups with
                    values := groups.values ++
                      [number / 65536, number % 65536] }
                | none => none
          | [':'] => none
          | [':', ':'] =>
              if groups.ellipsis.isSome then none
              else some { grown with ellipsis := some grown.values.length }
          | ':' :: ':' :: more =>
              if groups.ellipsis.isSome then none
              else readGroups room more
                { grown with ellipsis := some grown.values.length }
          | ':' :: more => readGroups room more grown
          | _ => none

def expandGroups (groups : Groups) : Option (List Nat) :=
  match groups.ellipsis with
  | none => if groups.values.length = 8 then some groups.values else none
  | some place =>
      if groups.values.length < 8 then
        some (groups.values.take place ++
          List.replicate (8 - groups.values.length) 0 ++
          groups.values.drop place)
      else none

def parseIPv6 (chars : List Char) : Option Addr :=
  let text := chars.takeWhile (· ≠ '%')
  let zoned := text.length ≠ chars.length
  let zone := chars.drop (text.length + 1)
  if zoned ∧ zone = [] then none
  else
    let groups : Option Groups :=
      match text with
      | [':', ':'] => some { values := [], ellipsis := some 0 }
      | ':' :: ':' :: rest =>
          readGroups 8 rest { values := [], ellipsis := some 0 }
      | _ => readGroups 8 text { values := [], ellipsis := none }
    match groups with
    | none => none
    | some read =>
        match expandGroups read with
        | none => none
        | some values =>
            some (.v6 (BitVec.ofNat 128 (values.foldl
              (fun total value => total * 65536 + value) 0))
              (String.ofList zone))

/-- `netip.ParseAddr`: the first of `.`, `:` and `%` decides the family. -/
def parseAddr (chars : List Char) : Option Addr :=
  match chars.find? (fun char => char == '.' || char == ':' || char == '%') with
  | some '.' =>
      match parseIPv4 chars with
      | some number => some (.v4 (BitVec.ofNat 32 number))
      | none => none
  | some ':' => parseIPv6 chars
  | _ => none

/-- `netip.ParsePrefix`, cut at the last slash. -/
def parsePrefix (raw : String) : Option Prefix :=
  let back := raw.toList.reverse
  let bitsText := (back.takeWhile (· ≠ '/')).reverse
  match back.drop (bitsText.length + 1) |>.reverse with
  | [] => none
  | addrText =>
      match parseAddr addrText, decimalField bitsText with
      | some addr, some bits =>
          if addr.hasZone ∨ addr.bitLen < bits then none
          else some (Prefix.ofAddr addr bits)
      | _, _ => none

end Netip

end Nephos
