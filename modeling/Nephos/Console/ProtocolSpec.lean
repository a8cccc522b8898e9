import Nephos.Console.Protocol
import Nephos.TextSpec

/-!
# Messages that are read back

What the parsers make of messages that were written by `json.Marshal`, and how
many bytes such messages take.
-/

namespace Nephos.Console

theorem utf8_eq_encode (text : String) :
    Text.utf8 text = Utf8.encode text.toList := rfl

theorem sanitize_marshal (tree : Json.Tree) :
    Utf8.sanitize (marshal tree) = tree.encode :=
  Utf8.sanitize_encode tree.encode

theorem marshal_ne_nil (tree : Json.Tree) : marshal tree ≠ [] := by
  intro empty
  obtain ⟨first, rest, encoded, -⟩ := Json.encode_cons tree
  have same := sanitize_marshal tree
  rw [empty, encoded] at same
  cases same

section Written

variable {tree : Json.Tree} (fits : (marshal tree).length ≤ maxControlBytes)
include fits

theorem marshal_sized :
    ¬ ((marshal tree).length = 0 ∨ maxControlBytes < (marshal tree).length) := by
  rintro (empty | long)
  · exact marshal_ne_nil tree (List.length_eq_zero_iff.mp empty)
  · omega

theorem controlType_marshal {kind : Bytes}
    (named : storeObject false [⟨"type", storeText⟩] tree.value [] =
      some kind) (nonempty : kind ≠ []) :
    controlType (marshal tree) = .ok kind := by
  rw [controlType, if_neg (marshal_sized fits), sanitize_marshal,
    Json.parse_encode]
  simp only [named]
  exact if_neg nonempty

theorem strictControl_marshal {σ : Type} {fields : List (Field σ)}
    {initial target : σ}
    (stored : storeObject true fields tree.value initial = some target) :
    strictControl fields initial (marshal tree) = .ok target := by
  have read := Json.next_encode tree [] Json.stops_nil
  rw [List.append_nil] at read
  rw [strictControl, if_neg (marshal_sized fits), sanitize_marshal, read]
  simp only [stored]
  exact if_pos rfl

end Written

theorem controlType_long {raw : Bytes} (long : maxControlBytes < raw.length) :
    controlType raw = .error .controlSize :=
  if_pos (.inr long)

section Branches

variable {raw : Bytes}

theorem parseServerText_eq_error {wire : ErrorWire}
    (named : controlType raw = .ok (Text.utf8 "error"))
    (stored : strictControl errorFields ⟨[], []⟩ raw = .ok wire) :
    parseServerText raw =
      if wire.message = [] then .error .emptyMessage
      else .ok (.error wire.message) := by
  have other : ¬ Text.utf8 "error" = Text.utf8 "exit" := by decide
  simp only [parseServerText, named, stored, Bind.bind, Except.bind,
    if_neg other, if_true]

theorem parseServerText_eq_exit {type : Bytes} {code : Int}
    (named : controlType raw = .ok (Text.utf8 "exit"))
    (stored : strictControl exitFields ⟨[], none⟩ raw =
      .ok ⟨type, some code⟩) :
    parseServerText raw =
      if code < 0 ∨ 255 < code then .error .exitStatus
      else .ok (.exit code) := by
  simp only [parseServerText, named, stored, Bind.bind, Except.bind, if_true]

theorem parseClientText_eq_start {wire : StartWire}
    (named : controlType raw = .ok (Text.utf8 "start"))
    (stored : strictControl startFields ⟨[], .empty, none, none, none⟩ raw =
      .ok wire) :
    parseClientText raw = (checkStart wire).map .start := by
  simp only [parseClientText, named, stored, Bind.bind, Except.bind, if_true]
  cases checkStart wire <;> rfl

theorem parseClientText_eq_resize {wire : ResizeWire}
    (named : controlType raw = .ok (Text.utf8 "resize"))
    (stored : strictControl resizeFields ⟨[], none, none⟩ raw = .ok wire) :
    parseClientText raw = (checkResize wire).map .resize := by
  have other : ¬ Text.utf8 "resize" = Text.utf8 "start" := by decide
  simp only [parseClientText, named, stored, Bind.bind, Except.bind,
    if_neg other, if_true]
  cases checkResize wire <;> rfl

end Branches

/-- A text after it has been written and read. -/
def replaced (text : Bytes) : Bytes :=
  Utf8.encode (Utf8.sanitize text)

theorem replaced_eq_self_iff {text : Bytes} :
    replaced text = text ↔ Utf8.Valid text :=
  Utf8.encode_sanitize_iff

theorem replaced_ne_nil {text : Bytes} (nonempty : text ≠ []) :
    replaced text ≠ [] := by
  intro empty
  have none := congrArg Utf8.sanitize empty
  rw [replaced, Utf8.sanitize_encode] at none
  exact nonempty (Utf8.runes_eq_nil_iff.mp (List.map_eq_nil_iff.mp none))

theorem zero_notMem_replaced {text : Bytes} (plain : 0 ∉ text) :
    0 ∉ replaced text := by
  intro member
  rcases Utf8.mem_encode_sanitize member with old | new
  · exact plain old
  · exact absurd new (by decide)

theorem parseServerText_errorTree {message : Bytes}
    (fits : (marshal (errorTree message)).length ≤ maxControlBytes) :
    parseServerText (marshal (errorTree message)) =
      if replaced message = [] then .error .emptyMessage
      else .ok (.error (replaced message)) := by
  have named : storeObject false [⟨"type", storeText⟩]
      (errorTree message).value [] = some (Text.utf8 "error") := rfl
  have stored : storeObject true errorFields (errorTree message).value
      ⟨[], []⟩ = some ⟨Text.utf8 "error", replaced message⟩ := rfl
  exact parseServerText_eq_error
    (controlType_marshal fits named (by decide))
    (strictControl_marshal fits stored)

theorem parseServerText_error {message : Bytes} (nonempty : message ≠ [])
    (fits : (marshal (errorTree message)).length ≤ maxControlBytes) :
    parseServerText (marshal (errorTree message)) =
      .ok (.error (replaced message)) := by
  rw [parseServerText_errorTree fits, if_neg (replaced_ne_nil nonempty)]

/-- The bytes of a text between quotes. -/
def escapedSize (text : Bytes) : Nat :=
  ((Utf8.runes text).map Json.runeSize).sum

theorem marshal_errorTree_length (message : Bytes) :
    (marshal (errorTree message)).length = escapedSize message + 29 := by
  have parts : marshal (errorTree message) =
      Text.utf8 "\x7b\"type\":\"error\",\"message\":" ++
        (Utf8.encode (Json.quote (Utf8.runes message)) ++
          Utf8.encode ['}']) := by
    rw [← Utf8.encode_append]
    exact Utf8.encode_append
      "\x7b\"type\":\"error\",\"message\":".toList _
  rw [parts, List.length_append, List.length_append,
    Json.encode_quote_length]
  show 26 + (escapedSize message + 2 + 1) = escapedSize message + 29
  omega

theorem readUint16_toDigits (number : UInt16) :
    readUint16 (.number (Nat.toDigits 10 number.toNat)) = some number := by
  have small := number.toNat_lt
  have read : parseUint64 (Text.decimal number.toNat) = some number.toNat :=
    parseUint64_decimal (by omega)
  have digits : String.ofList (Nat.toDigits 10 number.toNat) =
      Text.decimal number.toNat := rfl
  simp only [readUint16, digits, read]
  rw [if_pos (by omega), UInt16.ofNat_toNat]

theorem readInt_toDigits {number : Nat} (small : number < 2 ^ 63) :
    readInt (.number (Nat.toDigits 10 number)) = some (number : Int) :=
  parseInt64_decimal small

theorem encode_toDigits_length {number digits : Nat} (positive : 0 < digits)
    (small : number < 10 ^ digits) :
    (Utf8.encode (Nat.toDigits 10 number)).length ≤ digits := by
  have size : (Utf8.encode (Nat.toDigits 10 number)).length =
      (Nat.toDigits 10 number).length := by
    rw [← length_utf8_decimal, Text.utf8, Text.decimal_toList]
    rfl
  rw [size]
  exact (Nat.length_toDigits_le_iff (by decide) positive).mpr small

theorem marshal_exitTree_length {code : Nat} (small : code ≤ 255) :
    (marshal (exitTree code)).length ≤ maxControlBytes := by
  have parts : marshal (exitTree code) =
      Text.utf8 "\x7b\"type\":\"exit\",\"exit_code\":" ++
        (Utf8.encode (Nat.toDigits 10 code) ++ Utf8.encode ['}']) := by
    rw [← Utf8.encode_append]
    exact Utf8.encode_append
      "\x7b\"type\":\"exit\",\"exit_code\":".toList _
  have digits : (Utf8.encode (Nat.toDigits 10 code)).length ≤ 3 :=
    encode_toDigits_length (by decide) (by omega)
  rw [parts, List.length_append, List.length_append]
  show 27 + (_ + 1) ≤ 4096
  omega

theorem parseServerText_exit {code : Nat} (small : code ≤ 255) :
    parseServerText (marshal (exitTree code)) = .ok (.exit code) := by
  have named : storeObject false [⟨"type", storeText⟩]
      (exitTree code).value [] = some (Text.utf8 "exit") := rfl
  have value : readInt (.number (Nat.toDigits 10 code)) = some (code : Int) :=
    readInt_toDigits (by omega)
  have stored : storeObject true exitFields (exitTree code).value
      ⟨[], none⟩ = some ⟨Text.utf8 "exit", some (code : Int)⟩ := by
    show (((readInt (.number (Nat.toDigits 10 code))).map some).bind
      fun exitCode => some (ExitWire.mk (Text.utf8 "exit") exitCode)).bind
        some = _
    rw [value]
    rfl
  have fits := marshal_exitTree_length small
  rw [parseServerText_eq_exit (controlType_marshal fits named (by decide))
    (strictControl_marshal fits stored)]
  exact if_neg (by omega)

theorem marshal_resizeTree_length (resize : Resize) :
    (marshal resize.tree).length ≤ maxControlBytes := by
  have parts : marshal resize.tree =
      Text.utf8 "\x7b\"type\":\"resize\",\"rows\":" ++
        (Utf8.encode (Nat.toDigits 10 resize.rows.toNat) ++
          (Text.utf8 ",\"cols\":" ++
            (Utf8.encode (Nat.toDigits 10 resize.cols.toNat) ++
              Utf8.encode ['}']))) := by
    simp only [utf8_eq_encode, ← Utf8.encode_append, marshal, Resize.tree,
      member, typeMember, Json.Tree.encode, Json.encodeMembers,
      List.append_assoc, List.cons_append]
    rfl
  have rows : (Utf8.encode (Nat.toDigits 10 resize.rows.toNat)).length ≤ 5 :=
    encode_toDigits_length (by decide) (by
      have := resize.rows.toNat_lt
      omega)
  have cols : (Utf8.encode (Nat.toDigits 10 resize.cols.toNat)).length ≤ 5 :=
    encode_toDigits_length (by decide) (by
      have := resize.cols.toNat_lt
      omega)
  rw [parts]
  simp only [List.length_append]
  show 24 + (_ + (8 + (_ + 1))) ≤ 4096
  omega

theorem parseClientText_resize {resize : Resize} (rows : resize.rows ≠ 0)
    (cols : resize.cols ≠ 0) :
    parseClientText (marshal resize.tree) = .ok (.resize resize) := by
  have named : storeObject false [⟨"type", storeText⟩]
      resize.tree.value [] = some (Text.utf8 "resize") := rfl
  have stored : storeObject true resizeFields resize.tree.value
      ⟨[], none, none⟩ = some ⟨Text.utf8 "resize", some resize.rows,
        some resize.cols⟩ := by
    show (((readUint16 (.number (Nat.toDigits 10 resize.rows.toNat))).map
      some).bind fun rows => some (ResizeWire.mk (Text.utf8 "resize") rows
        none)).bind (fun wire =>
          (((readUint16 (.number (Nat.toDigits 10 resize.cols.toNat))).map
            some).bind fun cols => some { wire with cols }).bind some) = _
    rw [readUint16_toDigits, readUint16_toDigits]
    rfl
  have fits := marshal_resizeTree_length resize
  rw [parseClientText_eq_resize (controlType_marshal fits named (by decide))
    (strictControl_marshal fits stored)]
  have sized : ¬ (resize.rows = 0 ∨ resize.cols = 0) := by
    rintro (none | none)
    · exact rows none
    · exact cols none
  simp only [checkResize, if_neg sized]
  rfl

theorem parseClientText_stdinEOF :
    parseClientText stdinEOFText = .ok .stdinEOF := by
  have written : stdinEOFText =
      marshal (.object [typeMember "stdin_eof"]) := by decide
  have fits : (marshal (.object [typeMember "stdin_eof"])).length ≤
      maxControlBytes := by decide
  have named := controlType_marshal fits
    (show storeObject false [⟨"type", storeText⟩]
      (Json.Tree.object [typeMember "stdin_eof"]).value [] =
        some (Text.utf8 "stdin_eof") from rfl) (by decide)
  have stored := strictControl_marshal fits
    (show storeObject true [⟨"type", storeText⟩]
      (Json.Tree.object [typeMember "stdin_eof"]).value [] =
        some (Text.utf8 "stdin_eof") from rfl)
  have notStart : ¬ Text.utf8 "stdin_eof" = Text.utf8 "start" := by decide
  have notResize : ¬ Text.utf8 "stdin_eof" = Text.utf8 "resize" := by decide
  rw [written]
  simp only [parseClientText, named, stored, Bind.bind, Except.bind,
    if_neg notStart, if_neg notResize, if_true]

theorem storeItems_strings (arguments : List Bytes) :
    storeItems (Json.itemValues (arguments.map .string)) [] =
      some (arguments.map replaced) := by
  induction arguments with
  | nil => rfl
  | cons argument arguments induction =>
      show (storeItems (Json.itemValues (arguments.map .string)) []).bind
        (fun others => some
          (replaced argument :: others)) = _
      rw [induction]
      rfl

theorem itemValues_length (items : List Json.Tree) :
    (Json.itemValues items).length = items.length := by
  induction items with
  | nil => rfl
  | cons item items induction => exact congrArg Nat.succ induction

/-- The strings of a command come back as their characters. -/
theorem storeStrings_command {command : List Bytes} (nonempty : command ≠ []) :
    storeStrings (.array (Json.itemValues (command.map .string))) .empty =
      some ⟨command.map replaced, command.length⟩ := by
  have stored := storeItems_strings command
  have count := itemValues_length (command.map .string)
  rw [List.length_map] at count
  cases command with
  | nil => exact absurd rfl nonempty
  | cons first others =>
      show (storeItems (Json.itemValues ((first :: others).map .string))
        []).bind (fun backing => some (Slice.mk backing
          (Json.itemValues ((first :: others).map .string)).length)) = _
      rw [stored, count]
      rfl

/-- A start without a terminal. -/
def plainStart (command : List Bytes) : Start := ⟨command, false, 0, 0⟩

/-- Arguments that a program can be started with: none has a zero byte, and
the first is not empty. -/
structure Arguments (command : List Bytes) : Prop where
  nonempty : command ≠ []
  program : command.head? ≠ some []
  plain : ∀ argument ∈ command, 0 ∉ argument

section PlainStart

variable {command : List Bytes}

theorem checkStart_plain (arguments : Arguments command) :
    checkStart ⟨Text.utf8 "start", ⟨command.map replaced, command.length⟩,
      some false, none, none⟩ = .ok (plainStart (command.map replaced)) := by
  obtain ⟨nonempty, program, plain⟩ := arguments
  cases command with
  | nil => exact absurd rfl nonempty
  | cons first others =>
      have some : first ≠ [] := fun empty => program (congrArg some empty)
      have items : Slice.items ⟨(first :: others).map replaced,
          (first :: others).length⟩ =
            replaced first :: others.map replaced := by
        rw [Slice.items, ← List.length_map replaced, List.take_length]
        rfl
      have noNUL : ¬ ((replaced first :: others.map replaced).any
          fun argument => argument.contains 0) = true := by
        rw [← List.map_cons, List.any_map, List.any_eq_true]
        rintro ⟨argument, member, contains⟩
        exact zero_notMem_replaced (plain argument member)
          (List.contains_iff_mem.mp contains)
      obtain ⟨byte, bytes, begins⟩ :=
        List.exists_cons_of_ne_nil (replaced_ne_nil some)
      rw [begins] at items noNUL
      simp only [checkStart, items]
      rw [if_neg noNUL]
      show Except.ok (plainStart ((byte :: bytes) :: others.map replaced)) = _
      rw [← begins]
      rfl

/-- The command that a plain start carries, if its message is not too long. -/
theorem parseClientText_plainStart (arguments : Arguments command)
    (fits : (marshal (plainStart command).tree).length ≤ maxControlBytes) :
    parseClientText (marshal (plainStart command).tree) =
      .ok (.start (plainStart (command.map replaced))) := by
  have named : storeObject false [⟨"type", storeText⟩]
      (plainStart command).tree.value [] = some (Text.utf8 "start") := rfl
  have stored : storeObject true startFields (plainStart command).tree.value
      ⟨[], .empty, none, none, none⟩ = some ⟨Text.utf8 "start",
        ⟨command.map replaced, command.length⟩, some false, none, none⟩ := by
    show ((storeStrings (.array (Json.itemValues (command.map .string)))
      .empty).bind fun command => some (StartWire.mk (Text.utf8 "start")
        command none none none)).bind (fun wire =>
          some { wire with tty := some false }) = _
    rw [storeStrings_command arguments.nonempty]
    rfl
  rw [parseClientText_eq_start (controlType_marshal fits named (by decide))
    (strictControl_marshal fits stored), checkStart_plain arguments]
  rfl

theorem parseClientText_long {raw : Bytes}
    (long : maxControlBytes < raw.length) :
    parseClientText raw = .error .controlSize := by
  rw [parseClientText, controlType_long long]
  rfl

theorem encodeItems_strings_length (nonempty : command ≠ []) :
    (Utf8.encode (Json.encodeItems (command.map .string))).length + 1 =
      (command.map fun argument => escapedSize argument + 3).sum := by
  have single (argument : Bytes) :
      (Utf8.encode (Json.Tree.string argument).encode).length =
        escapedSize argument + 2 :=
    Json.encode_quote_length (Utf8.runes argument)
  induction command with
  | nil => exact absurd rfl nonempty
  | cons first others induction =>
      cases others with
      | nil =>
          show (Utf8.encode (Json.Tree.string first).encode).length + 1 =
            escapedSize first + 3 + 0
          rw [single]
      | cons second others =>
          have later := induction (List.cons_ne_nil _ _)
          have parts : Utf8.encode (Json.encodeItems
              ((first :: second :: others).map .string)) =
                Utf8.encode (Json.Tree.string first).encode ++
                  (Utf8.encode [','] ++ Utf8.encode (Json.encodeItems
                    ((second :: others).map .string))) := by
            rw [← Utf8.encode_append, ← Utf8.encode_append]
            rfl
          have total : ((first :: second :: others).map fun argument =>
              escapedSize argument + 3).sum = escapedSize first + 3 +
                ((second :: others).map fun argument =>
                  escapedSize argument + 3).sum := rfl
          rw [parts, List.length_append, List.length_append, single, total,
            ← later]
          show _ + (1 + _) + 1 = _
          omega

/-- The bytes of a plain start. -/
theorem marshal_plainStart_length (nonempty : command ≠ []) :
    (marshal (plainStart command).tree).length =
      (command.map fun argument => escapedSize argument + 3).sum + 40 := by
  have parts : marshal (plainStart command).tree =
      Text.utf8 "\x7b\"type\":\"start\",\"command\":[" ++
        (Utf8.encode (Json.encodeItems (command.map .string)) ++
          Text.utf8 "],\"tty\":false\x7d") := by
    simp only [utf8_eq_encode, ← Utf8.encode_append, marshal, Start.tree,
      plainStart, member, typeMember, dimension, if_true, List.append_nil,
      Json.Tree.encode, Json.encodeMembers, List.append_assoc,
      List.cons_append, List.nil_append]
    rfl
  have items := encodeItems_strings_length nonempty
  rw [parts, List.length_append, List.length_append, ← items]
  show 27 + (_ + 14) = _
  omega

end PlainStart

end Nephos.Console
