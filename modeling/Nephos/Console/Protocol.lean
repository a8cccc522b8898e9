import Nephos.Library.Json
import Nephos.Text

/-!
# The messages of a console

Text messages carry one JSON control each, binary messages carry a channel and
data.  The parsers follow `encoding/json`: names are compared without regard
to case, a repeated member overwrites what the earlier one stored, and `null`
clears a pointer or a slice and leaves everything else alone.

A Go string is the list of its bytes here, since arguments and error texts
may be any bytes.
-/

namespace Nephos.Console

abbrev Bytes := List UInt8

def maxControlBytes : Nat := 4 * 1024

/-- The direction or channel byte is included. -/
def maxDataBytes : Nat := 64 * 1024

inductive ProtocolError where
  /-- "console control exceeds size limit or is empty" -/
  | controlSize
  /-- "decode console control: " and the decoder's text -/
  | undecodable
  /-- "console control contains trailing data" -/
  | trailingData
  /-- "decode console control type: " and the decoder's text -/
  | undecodableType
  /-- "console control type is required" -/
  | typeRequired
  /-- "console start requires tty and nonempty argv" -/
  | startIncomplete
  /-- "console argv contains NUL" -/
  | argvNUL
  /-- "TTY start requires nonzero dimensions" -/
  | startDimensions
  /-- "non-TTY start must omit dimensions" -/
  | startOversized
  /-- "resize requires nonzero dimensions" -/
  | resizeDimensions
  /-- "unsupported client control " and the quoted type -/
  | unsupportedClient (kind : Bytes)
  /-- "invalid console exit status" -/
  | exitStatus
  /-- "console error message is empty" -/
  | emptyMessage
  /-- "unsupported server control " and the quoted type -/
  | unsupportedServer (kind : Bytes)
  /-- "console data frame exceeds 65536 bytes" -/
  | dataSize
  /-- "invalid console stdin frame" -/
  | inputFrame
  /-- "invalid console output channel" -/
  | outputChannel
  /-- "invalid console output frame" -/
  | outputFrame
deriving DecidableEq, Repr

/-- `foldRune` of `encoding/json`, for comparing with ASCII names: no other
character folds to an ASCII character. -/
def foldRune (char : Char) : Char :=
  if char.isLower then char.toUpper
  else if char.toNat = 0x17f then 'S'
  else if char.toNat = 0x212a then 'K'
  else char

def foldName (name : List Char) : List Char := name.map foldRune

/-- A field of the struct that a value is decoded into. -/
structure Field (σ : Type) where
  name : String
  store : Json.Value → σ → Option σ

/-- One member of an object.  Unknown members are refused by a strict decoder
and skipped by others. -/
def storeMember {σ : Type} (strict : Bool) (fields : List (Field σ))
    (target : σ) (member : List Char × Json.Value) : Option σ :=
  match fields.find? fun field =>
      foldName member.1 == foldName field.name.toList with
  | some field => field.store member.2 target
  | none => if strict then none else some target

/-- Decoding into a struct. -/
def storeObject {σ : Type} (strict : Bool) (fields : List (Field σ)) :
    Json.Value → σ → Option σ
  | .null, target => some target
  | .object members, target => members.foldlM (storeMember strict fields) target
  | _, _ => none

def storeText : Json.Value → Bytes → Option Bytes
  | .null, old => some old
  | .string text, _ => some (Utf8.encode text)
  | _, _ => none

def storePointer {α : Type} (read : Json.Value → Option α) :
    Json.Value → Option α → Option (Option α)
  | .null, _ => some none
  | value, _ => (read value).map some

def readBool : Json.Value → Option Bool
  | .bool value => some value
  | _ => none

def readUint16 : Json.Value → Option UInt16
  | .number literal =>
      match parseUint64 (String.ofList literal) with
      | some number =>
          if number < 2 ^ 16 then some (UInt16.ofNat number) else none
      | none => none
  | _ => none

def readInt : Json.Value → Option Int
  | .number literal => parseInt64 (String.ofList literal)
  | _ => none

/-- A slice of strings and the array behind it, which is used again when the
member is repeated. -/
structure Slice where
  backing : List Bytes
  length : Nat

def Slice.empty : Slice := ⟨[], 0⟩

def Slice.items (slice : Slice) : List Bytes := slice.backing.take slice.length

/-- The items of an array go over those that are there. -/
def storeItems : List Json.Value → List Bytes → Option (List Bytes)
  | [], backing => some backing
  | item :: items, backing => do
      let text ← storeText item (backing.headD [])
      let others ← storeItems items backing.tail
      some (text :: others)

def storeStrings : Json.Value → Slice → Option Slice
  | .null, _ => some .empty
  | .array [], _ => some .empty
  | .array items, slice => do
      let backing ← storeItems items slice.backing
      some ⟨backing, items.length⟩
  | _, _ => none

def strictControl {σ : Type} (fields : List (Field σ)) (initial : σ)
    (raw : Bytes) : Except ProtocolError σ :=
  if raw.length = 0 ∨ maxControlBytes < raw.length then .error .controlSize
  else
    match Json.next (Utf8.sanitize raw) with
    | none => .error .undecodable
    | some (value, rest) =>
        match storeObject true fields value initial with
        | none => .error .undecodable
        | some target =>
            if Json.skipSpace rest = [] then .ok target
            else .error .trailingData

def controlType (raw : Bytes) : Except ProtocolError Bytes :=
  if raw.length = 0 ∨ maxControlBytes < raw.length then .error .controlSize
  else
    match Json.parse (Utf8.sanitize raw) with
    | none => .error .undecodableType
    | some value =>
        match storeObject false [⟨"type", storeText⟩] value [] with
        | none => .error .undecodableType
        | some kind => if kind = [] then .error .typeRequired else .ok kind

structure Start where
  command : List Bytes
  tty : Bool
  rows : UInt16
  cols : UInt16
deriving DecidableEq, Repr

structure Resize where
  rows : UInt16
  cols : UInt16
deriving DecidableEq, Repr

inductive ClientControl where
  | start (start : Start)
  | resize (resize : Resize)
  | stdinEOF
deriving DecidableEq, Repr

inductive ServerControl where
  | exit (code : Int)
  | error (message : Bytes)
deriving DecidableEq, Repr

structure StartWire where
  type : Bytes
  command : Slice
  tty : Option Bool
  rows : Option UInt16
  cols : Option UInt16

def startFields : List (Field StartWire) :=
  [⟨"type", fun value wire => do
      let type ← storeText value wire.type
      some { wire with type }⟩,
    ⟨"command", fun value wire => do
      let command ← storeStrings value wire.command
      some { wire with command }⟩,
    ⟨"tty", fun value wire => do
      let tty ← storePointer readBool value wire.tty
      some { wire with tty }⟩,
    ⟨"rows", fun value wire => do
      let rows ← storePointer readUint16 value wire.rows
      some { wire with rows }⟩,
    ⟨"cols", fun value wire => do
      let cols ← storePointer readUint16 value wire.cols
      some { wire with cols }⟩]

def checkStart (wire : StartWire) : Except ProtocolError Start :=
  match wire.tty, wire.command.items with
  | none, _ | _, [] | _, [] :: _ => .error .startIncomplete
  | some tty, command =>
      if command.any fun argument => argument.contains 0 then
        .error .argvNUL
      else if tty then
        match wire.rows, wire.cols with
        | some rows, some cols =>
            if rows = 0 ∨ cols = 0 then .error .startDimensions
            else .ok ⟨command, tty, rows, cols⟩
        | _, _ => .error .startDimensions
      else if wire.rows.isSome ∨ wire.cols.isSome then
        .error .startOversized
      else .ok ⟨command, tty, 0, 0⟩

structure ResizeWire where
  type : Bytes
  rows : Option UInt16
  cols : Option UInt16

def resizeFields : List (Field ResizeWire) :=
  [⟨"type", fun value wire => do
      let type ← storeText value wire.type
      some { wire with type }⟩,
    ⟨"rows", fun value wire => do
      let rows ← storePointer readUint16 value wire.rows
      some { wire with rows }⟩,
    ⟨"cols", fun value wire => do
      let cols ← storePointer readUint16 value wire.cols
      some { wire with cols }⟩]

def checkResize (wire : ResizeWire) : Except ProtocolError Resize :=
  match wire.rows, wire.cols with
  | some rows, some cols =>
      if rows = 0 ∨ cols = 0 then .error .resizeDimensions
      else .ok ⟨rows, cols⟩
  | _, _ => .error .resizeDimensions

/-- `ParseClientText`. -/
def parseClientText (raw : Bytes) : Except ProtocolError ClientControl := do
  let kind ← controlType raw
  if kind = Text.utf8 "start" then
    let wire ← strictControl startFields ⟨[], .empty, none, none, none⟩ raw
    let start ← checkStart wire
    .ok (.start start)
  else if kind = Text.utf8 "resize" then
    let wire ← strictControl resizeFields ⟨[], none, none⟩ raw
    let resize ← checkResize wire
    .ok (.resize resize)
  else if kind = Text.utf8 "stdin_eof" then
    let _ ← strictControl [⟨"type", storeText⟩] [] raw
    .ok .stdinEOF
  else .error (.unsupportedClient kind)

structure ExitWire where
  type : Bytes
  exitCode : Option Int

def exitFields : List (Field ExitWire) :=
  [⟨"type", fun value wire => do
      let type ← storeText value wire.type
      some { wire with type }⟩,
    ⟨"exit_code", fun value wire => do
      let exitCode ← storePointer readInt value wire.exitCode
      some { wire with exitCode }⟩]

structure ErrorWire where
  type : Bytes
  message : Bytes

def errorFields : List (Field ErrorWire) :=
  [⟨"type", fun value wire => do
      let type ← storeText value wire.type
      some { wire with type }⟩,
    ⟨"message", fun value wire => do
      let message ← storeText value wire.message
      some { wire with message }⟩]

/-- `ParseServerText`. -/
def parseServerText (raw : Bytes) : Except ProtocolError ServerControl := do
  let kind ← controlType raw
  if kind = Text.utf8 "exit" then
    let wire ← strictControl exitFields ⟨[], none⟩ raw
    match wire.exitCode with
    | some code =>
        if code < 0 ∨ 255 < code then .error .exitStatus
        else .ok (.exit code)
    | none => .error .exitStatus
  else if kind = Text.utf8 "error" then
    let wire ← strictControl errorFields ⟨[], []⟩ raw
    if wire.message = [] then .error .emptyMessage
    else .ok (.error wire.message)
  else .error (.unsupportedServer kind)

def frame (channel : UInt8) (data : Bytes) : Except ProtocolError Bytes :=
  if maxDataBytes < data.length + 1 then .error .dataSize
  else .ok (channel :: data)

def inputFrame (data : Bytes) : Except ProtocolError Bytes := frame 0 data

def parseInputFrame : Bytes → Except ProtocolError Bytes
  | [] => .error .inputFrame
  | channel :: data =>
      if maxDataBytes < data.length + 1 ∨ channel ≠ 0 then .error .inputFrame
      else .ok data

def outputFrame (channel : UInt8) (data : Bytes) :
    Except ProtocolError Bytes :=
  if channel ≠ 1 ∧ channel ≠ 2 then .error .outputChannel
  else frame channel data

def parseOutputFrame : Bytes → Except ProtocolError (UInt8 × Bytes)
  | [] => .error .outputFrame
  | channel :: data =>
      if maxDataBytes < data.length + 1 ∨ (channel ≠ 1 ∧ channel ≠ 2) then
        .error .outputFrame
      else .ok (channel, data)

/-- `json.Marshal`. -/
def marshal (tree : Json.Tree) : Bytes := Utf8.encode tree.encode

def member (name : String) (item : Json.Tree) : List Char × Json.Tree :=
  (name.toList, item)

def typeMember (kind : String) : List Char × Json.Tree :=
  member "type" (.string (Text.utf8 kind))

/-- A dimension that is zero is left out. -/
def dimension (name : String) (size : UInt16) : List (List Char × Json.Tree) :=
  if size = 0 then [] else [member name (.number size.toNat)]

def Start.tree (start : Start) : Json.Tree :=
  .object ([typeMember "start",
    member "command" (.array (start.command.map .string)),
    member "tty" (.bool start.tty)] ++
      dimension "rows" start.rows ++ dimension "cols" start.cols)

def Resize.tree (resize : Resize) : Json.Tree :=
  .object [typeMember "resize", member "rows" (.number resize.rows.toNat),
    member "cols" (.number resize.cols.toNat)]

/-- What the client sends at the end of its input. -/
def stdinEOFText : Bytes := Text.utf8 "\x7b\"type\":\"stdin_eof\"\x7d"

/-- The status of an exit is between 0 and 255. -/
def exitTree (code : Nat) : Json.Tree :=
  .object [typeMember "exit", member "exit_code" (.number code)]

def errorTree (message : Bytes) : Json.Tree :=
  .object [typeMember "error", member "message" (.string message)]

end Nephos.Console
