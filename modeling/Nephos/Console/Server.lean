import Nephos.Console.Client

/-!
# Starts and errors on the server

What the server takes from the first message of a client, and what it sends
when it gives up.  The encoder is not the inverse of the decoder for either:
bytes that are no characters are replaced, and a message grows when it is
escaped.
-/

namespace Nephos.Console

/-- The text message of `writeConsoleError`, which is sent before the
connection is closed. -/
def writeConsoleError (text : Bytes) : Bytes :=
  let message := if 2048 < text.length then text.take 2048 else text
  marshal (errorTree message)

theorem writeConsoleError_eq (text : Bytes) :
    writeConsoleError text = marshal (errorTree (text.take 2048)) := by
  unfold writeConsoleError
  split
  · rfl
  · rename_i short
    rw [List.take_of_length_le (Nat.not_lt.mp short)]

theorem writeConsoleError_no_exit (text : Bytes) (code : Int) :
    parseServerText (writeConsoleError text) ≠ .ok (.exit code) := by
  rw [writeConsoleError_eq]
  intro exits
  by_cases fits : (marshal (errorTree (text.take 2048))).length ≤
      maxControlBytes
  · rw [parseServerText_errorTree fits] at exits
    split at exits <;> cases exits
  · rw [parseServerText, controlType_long (Nat.not_le.mp fits)] at exits
    cases exits

/-- A client learns the reason exactly if the escaped text leaves room for the
29 other bytes of the message. -/
theorem error_understood_iff (text : Bytes) (nonempty : text ≠ []) :
    parseServerText (writeConsoleError text) =
        .ok (.error (Utf8.encode (Utf8.sanitize (text.take 2048)))) ↔
      escapedSize (text.take 2048) ≤ 4067 := by
  have cut : text.take 2048 ≠ [] := by
    cases text with
    | nil => exact absurd rfl nonempty
    | cons byte bytes => exact List.cons_ne_nil _ _
  have size := marshal_errorTree_length (text.take 2048)
  rw [writeConsoleError_eq]
  refine ⟨fun understood => ?_, fun small => ?_⟩
  · by_contra large
    have long : maxControlBytes <
        (marshal (errorTree (text.take 2048))).length := by
      rw [size]
      show 4096 < _
      omega
    rw [parseServerText, controlType_long long] at understood
    cases understood
  · exact parseServerText_error cut (by
      rw [size]
      show _ ≤ 4096
      omega)

theorem shortText_understood :
    parseServerText (writeConsoleError (Text.utf8 "a<b")) =
      .ok (.error (Text.utf8 "a<b")) :=
  (error_understood_iff (Text.utf8 "a<b") (by decide)).mpr (by decide)

theorem escapedSize_replicate (count : Nat) :
    escapedSize (List.replicate count 0x3c) = 6 * count := by
  induction count with
  | zero => rfl
  | succ count induction =>
      have read : Utf8.runes (List.replicate (count + 1) 0x3c) =
          some '<' :: Utf8.runes (List.replicate count 0x3c) :=
        Utf8.runes_encodeChar '<' (List.replicate count 0x3c)
      rw [escapedSize, read, List.map_cons, List.sum_cons]
      show 6 + escapedSize (List.replicate count 0x3c) = 6 * (count + 1)
      omega

/-- A text of 2048 characters that are escaped is refused by the client. -/
theorem escapedText_refused :
    parseServerText (writeConsoleError (List.replicate 2048 0x3c)) =
      .error .controlSize := by
  have long : maxControlBytes <
      (marshal (errorTree (List.replicate 2048 0x3c))).length := by
    rw [marshal_errorTree_length, escapedSize_replicate]
    decide
  rw [writeConsoleError_eq, List.take_of_length_le (by
    rw [List.length_replicate]), parseServerText, controlType_long long]
  rfl

structure ExecRequest where
  command : List Bytes
  tty : Bool
  rows : UInt16
  cols : UInt16
deriving DecidableEq, Repr

inductive StartError where
  /-- "console start missing: " and the error -/
  | missing
  /-- "first console message must be start text" -/
  | notText
  /-- "invalid console start frame" -/
  | invalid
  /-- "instance is no longer running" -/
  | notRunning
deriving DecidableEq, Repr

/-- `GetInstanceConsole` from the first message to the request for the
runtime.  The instance is looked up again after the message. -/
def consoleRequest (first : Except ReadError Message) (running : Bool) :
    Except StartError ExecRequest :=
  match first with
  | .error _ => .error .missing
  | .ok message =>
      if message.kind ≠ .text then .error .notText
      else
        match parseClientText message.raw with
        | .ok (.start start) =>
            if running then
              .ok ⟨start.command, start.tty, start.rows, start.cols⟩
            else .error .notRunning
        | _ => .error .invalid

section Command

variable {instanceName : Bytes} {command : List Bytes}

theorem chooseStart_command (nonempty : command ≠ []) (terminal : Terminal) :
    chooseStart (Text.utf8 "--" :: command) terminal =
      .ok (plainStart command) := by
  rw [chooseStart, if_neg (by simp [nonempty])]
  rfl

/-- The client's own check of a command is the check of its message. -/
theorem runConsole_refused (named : instanceName ≠ []) (nonempty : command ≠ [])
    (terminal : Terminal) {error : ProtocolError}
    (refused : parseClientText (marshal (plainStart command).tree) =
      .error error) :
    runConsole (instanceName :: Text.utf8 "--" :: command) terminal =
      .error exitUsage := by
  simp only [runConsole, if_neg named, chooseStart_command nonempty, refused]

theorem runConsole_launched (named : instanceName ≠ [])
    (nonempty : command ≠ []) (terminal : Terminal) {control : ClientControl}
    (accepted : parseClientText (marshal (plainStart command).tree) =
      .ok control) :
    runConsole (instanceName :: Text.utf8 "--" :: command) terminal =
      .ok (plainStart command, marshal (plainStart command).tree) := by
  simp only [runConsole, if_neg named, chooseStart_command nonempty, accepted]

/-- What the runtime is asked for, if the message is not too long. -/
theorem consoleRequest_command (arguments : Arguments command)
    (fits : (marshal (plainStart command).tree).length ≤ maxControlBytes) :
    consoleRequest (.ok ⟨.text, marshal (plainStart command).tree⟩) true =
      .ok ⟨command.map replaced, false, 0, 0⟩ := by
  simp only [consoleRequest, parseClientText_plainStart arguments fits]
  rfl

theorem map_replaced_eq_self_iff :
    command.map replaced = command ↔
      ∀ argument ∈ command, Utf8.Valid argument := by
  calc
    command.map replaced = command ↔ command.map replaced = command.map id := by
      rw [List.map_id]
    _ ↔ ∀ argument ∈ command, replaced argument = argument :=
      List.map_inj_left
    _ ↔ ∀ argument ∈ command, Utf8.Valid argument := by
      simp only [replaced_eq_self_iff]

end Command

/-- The runtime gets the arguments of the client byte for byte, or the client
is told to correct them, exactly if all are valid UTF-8 or the message would
be too long. -/
theorem exact_argv_iff (instanceName : Bytes) (named : instanceName ≠ [])
    (command : List Bytes) (arguments : Arguments command)
    (terminal : Terminal) :
    (runConsole (instanceName :: Text.utf8 "--" :: command) terminal =
        .error exitUsage ∨
      ∃ start raw,
        runConsole (instanceName :: Text.utf8 "--" :: command) terminal =
          .ok (start, raw) ∧
        consoleRequest (.ok ⟨.text, raw⟩) true =
          .ok ⟨command, start.tty, start.rows, start.cols⟩) ↔
      (∀ argument ∈ command, Utf8.Valid argument) ∨
        4096 < (command.map fun argument => escapedSize argument + 3).sum +
          40 := by
  have size := marshal_plainStart_length arguments.nonempty
  rw [← size]
  by_cases long : maxControlBytes <
      (marshal (plainStart command).tree).length
  · rw [runConsole_refused named arguments.nonempty terminal
      (parseClientText_long long)]
    exact ⟨fun _ => .inr long, fun _ => .inl rfl⟩
  · have fits := Nat.not_lt.mp long
    rw [runConsole_launched named arguments.nonempty terminal
      (parseClientText_plainStart arguments fits)]
    constructor
    · rintro (usage | ⟨start, raw, launched, requested⟩)
      · cases usage
      · cases launched
        rw [consoleRequest_command arguments fits] at requested
        injection requested with same
        injection same with commands
        exact .inl (map_replaced_eq_self_iff.mp commands)
    · rintro (valid | large)
      · refine .inr ⟨plainStart command, _, rfl, ?_⟩
        rw [consoleRequest_command arguments fits,
          map_replaced_eq_self_iff.mpr valid]
        rfl
      · exact absurd large long

theorem listing_exact :
    runConsole [Text.utf8 "web", Text.utf8 "--", Text.utf8 "ls",
        Text.utf8 "<é>"] ⟨false, none⟩ = .error exitUsage ∨
      ∃ start raw,
        runConsole [Text.utf8 "web", Text.utf8 "--", Text.utf8 "ls",
          Text.utf8 "<é>"] ⟨false, none⟩ = .ok (start, raw) ∧
        consoleRequest (.ok ⟨.text, raw⟩) true =
          .ok ⟨[Text.utf8 "ls", Text.utf8 "<é>"], start.tty, start.rows,
            start.cols⟩ :=
  (exact_argv_iff (Text.utf8 "web") (by decide)
    [Text.utf8 "ls", Text.utf8 "<é>"]
    ⟨by decide, by decide, by decide⟩ ⟨false, none⟩).mpr
      (.inl (by decide))

/-- A byte that is no character arrives as three others. -/
theorem invalidByte_replaced :
    ∃ raw,
      runConsole [Text.utf8 "web", Text.utf8 "--", Text.utf8 "rm", [0xff]]
          ⟨false, none⟩ =
        .ok (⟨[Text.utf8 "rm", [0xff]], false, 0, 0⟩, raw) ∧
      consoleRequest (.ok ⟨.text, raw⟩) true =
        .ok ⟨[Text.utf8 "rm", [0xef, 0xbf, 0xbd]], false, 0, 0⟩ := by
  have arguments : Arguments [Text.utf8 "rm", [0xff]] :=
    ⟨by decide, by decide, by decide⟩
  have fits : (marshal (plainStart [Text.utf8 "rm", [0xff]]).tree).length ≤
      maxControlBytes := by
    rw [marshal_plainStart_length arguments.nonempty]
    decide
  exact ⟨_, runConsole_launched (by decide) arguments.nonempty _
    (parseClientText_plainStart arguments fits),
    consoleRequest_command arguments fits⟩

end Nephos.Console
