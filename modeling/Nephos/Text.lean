import Nephos.Library.Sha256
import Nephos.Netip

/-!
# Text functions of the standard library

The functions of `strings`, `unicode`, `strconv`, `encoding/json`,
`encoding/hex` and `net` that requests and stored values pass through.  Go
strings are Lean strings here, so they are valid UTF-8 by construction; what
the code checks for that is bytes.
-/

namespace Nephos

namespace Text

/-- `unicode.IsSpace`. -/
def isSpace (char : Char) : Bool :=
  let code := char.toNat
  (0x09 ≤ code && code ≤ 0x0d) || code == 0x20 || code == 0x85 ||
    code == 0xa0 || code == 0x1680 || (0x2000 ≤ code && code ≤ 0x200a) ||
    code == 0x2028 || code == 0x2029 || code == 0x202f || code == 0x205f ||
    code == 0x3000

/-- `unicode.IsControl`. -/
def isControl (char : Char) : Bool :=
  let code := char.toNat
  code < 0x20 || (0x7f ≤ code && code < 0xa0)

/-- `strings.TrimSpace`. -/
def trimSpace (raw : String) : String :=
  String.ofList
    ((raw.toList.dropWhile isSpace).reverse.dropWhile isSpace).reverse

def hexDigit (nibble : Nat) : Char :=
  Char.ofNat (if nibble < 10 then 48 + nibble else 87 + nibble)

def hexByte (byte : UInt8) : List Char :=
  [hexDigit (byte.toNat / 16), hexDigit (byte.toNat % 16)]

/-- `hex.EncodeToString`. -/
def hexEncode (bytes : List UInt8) : String :=
  String.ofList (bytes.flatMap hexByte)

def utf8 (text : String) : List UInt8 :=
  text.toList.flatMap String.utf8EncodeChar

instance coeUtf8 : Coe String (List UInt8) := ⟨utf8⟩

/-- One character of a JSON string as `json.Marshal` writes it. -/
def jsonChar (char : Char) : List Char :=
  if char = '"' then ['\\', '"']
  else if char = '\\' then ['\\', '\\']
  else if char.toNat = 0x08 then ['\\', 'b']
  else if char.toNat = 0x0c then ['\\', 'f']
  else if char = '\n' then ['\\', 'n']
  else if char = '\r' then ['\\', 'r']
  else if char = '\t' then ['\\', 't']
  else if char.toNat < 0x20 || char = '<' || char = '>' || char = '&' then
    ['\\', 'u', '0', '0'] ++ hexByte (UInt8.ofNat char.toNat)
  else if char.toNat = 0x2028 then "\\u2028".toList
  else if char.toNat = 0x2029 then "\\u2029".toList
  else [char]

def jsonString (text : String) : List Char :=
  ['"'] ++ text.toList.flatMap jsonChar ++ ['"']

/-- `json.Marshal` of a list of strings. -/
def jsonStrings (fields : List String) : String :=
  String.ofList
    (['['] ++ List.intercalate [','] (fields.map jsonString) ++ [']'])

/-- What `strconv.IsPrint` refuses: control and format characters, spaces
other than U+0020, and characters for private use.  Numbers that no character
has yet depend on the version of Unicode and are not among them. -/
def unprintable : List (Nat × Nat) :=
  [(0x00, 0x1f), (0x7f, 0xa0), (0xad, 0xad), (0x600, 0x605), (0x61c, 0x61c),
    (0x6dd, 0x6dd), (0x70f, 0x70f), (0x890, 0x891), (0x8e2, 0x8e2),
    (0x1680, 0x1680), (0x180e, 0x180e), (0x2000, 0x200f), (0x2028, 0x202f),
    (0x205f, 0x206f), (0x3000, 0x3000), (0xe000, 0xf8ff), (0xfeff, 0xfeff),
    (0xfff9, 0xfffb), (0xfffe, 0xffff), (0x110bd, 0x110bd),
    (0x110cd, 0x110cd), (0x13430, 0x1343f), (0x1bca0, 0x1bca3),
    (0x1d173, 0x1d17a), (0xe0001, 0xe007f), (0xf0000, 0x10ffff)]

def isPrint (char : Char) : Bool :=
  !unprintable.any fun range =>
    range.1 ≤ char.toNat && char.toNat ≤ range.2

/-- One character of a text as `strconv.Quote` writes it. -/
def quoteChar (char : Char) : List Char :=
  let code := char.toNat
  if char = '"' || char = '\\' then ['\\', char]
  else if isPrint char then [char]
  else if code = 0x07 then ['\\', 'a']
  else if code = 0x08 then ['\\', 'b']
  else if code = 0x0c then ['\\', 'f']
  else if char = '\n' then ['\\', 'n']
  else if char = '\r' then ['\\', 'r']
  else if char = '\t' then ['\\', 't']
  else if code = 0x0b then ['\\', 'v']
  else if code < 0x20 || code = 0x7f then
    ['\\', 'x'] ++ hexByte (UInt8.ofNat code)
  else
    let low := hexByte (UInt8.ofNat (code / 2 ^ 8)) ++
      hexByte (UInt8.ofNat code)
    if code < 0x10000 then ['\\', 'u'] ++ low
    else ['\\', 'U', '0', '0'] ++ hexByte (UInt8.ofNat (code / 2 ^ 16)) ++ low

/-- `strconv.Quote`. -/
def quote (text : String) : String :=
  String.ofList (['"'] ++ text.toList.flatMap quoteChar ++ ['"'])

def decimal (number : Nat) : String := toString number

end Text

/-- `Addr.String`.  Only IPv4 addresses are ever rendered. -/
def Addr.text : Addr → String
  | .v4 ip =>
      let octet (shift : Nat) := Text.decimal ((ip >>> shift).toNat % 256)
      octet 24 ++ "." ++ octet 16 ++ "." ++ octet 8 ++ "." ++ octet 0
  | _ => "invalid IP"

/-- `Prefix.String`. -/
def Prefix.text (cidr : Prefix) : String :=
  if cidr.isValid then cidr.addr.text ++ "/" ++ Text.decimal cidr.length
  else "invalid Prefix"

/-- `net.HardwareAddr.String`. -/
def hardwareAddrText (bytes : List UInt8) : String :=
  String.ofList (List.intercalate [':'] (bytes.map Text.hexByte))

namespace Text

def hexValue (char : Char) : Option Nat :=
  if '0' ≤ char ∧ char ≤ '9' then some (char.toNat - 48)
  else if 'a' ≤ char ∧ char ≤ 'f' then some (char.toNat - 87)
  else if 'A' ≤ char ∧ char ≤ 'F' then some (char.toNat - 55)
  else none

/-- Bytes written as two hex digits each. -/
def hexBytes : List Char → Option (List UInt8)
  | [] => some []
  | [_] => none
  | high :: low :: rest =>
      match hexValue high, hexValue low, hexBytes rest with
      | some left, some right, some bytes =>
          some (UInt8.ofNat (left * 16 + right) :: bytes)
      | _, _, _ => none

end Text

/-- `net.ParseMAC`: pairs of hex digits with one separator, or groups of four
with dots, for 6, 8 or 20 bytes. -/
def parseMAC (raw : String) : Option (List UInt8) :=
  let chars := raw.toList
  let groups (separator : Char) (size : Nat) : Option (List UInt8) :=
    let parts := chars.splitOn separator
    if parts.all (fun part => part.length == size) then
      match Text.hexBytes parts.flatten with
      | some bytes =>
          if bytes.length = 6 ∨ bytes.length = 8 ∨ bytes.length = 20 then
            some bytes
          else none
      | none => none
    else none
  if chars.length < 14 then none
  else if chars[2]? = some ':' ∨ chars[2]? = some '-' then
    groups (chars.getD 2 ':') 2
  else if chars[4]? = some '.' then groups '.' 4
  else none

/-- `strconv.ParseInt` in base ten for 64 bits. -/
def parseInt64 (text : String) : Option Int :=
  let digits (chars : List Char) : Option Nat :=
    if chars ≠ [] ∧ chars.all Char.isDigit then
      some (Nat.ofDigitChars 10 chars 0)
    else none
  let bounded (number : Int) : Option Int :=
    if -2 ^ 63 ≤ number ∧ number < 2 ^ 63 then some number else none
  match text.toList with
  | '-' :: rest => (digits rest).bind fun number => bounded (-number)
  | '+' :: rest => (digits rest).bind fun number => bounded number
  | chars => (digits chars).bind fun number => bounded number

/-- `strconv.ParseUint` in base ten for 64 bits. -/
def parseUint64 (text : String) : Option Nat :=
  let chars := text.toList
  if chars ≠ [] ∧ chars.all Char.isDigit then
    let number := Nat.ofDigitChars 10 chars 0
    if number < 2 ^ 64 then some number else none
  else none

/-- Why it refuses a text: the first character that is no digit comes before
or after the number is too large. -/
def uint64Error (text : String) : String :=
  if Nat.ofDigitChars 10 (text.toList.takeWhile Char.isDigit) 0 < 2 ^ 64 then
    "invalid syntax"
  else "value out of range"

end Nephos
