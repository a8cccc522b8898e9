import Nephos.Console.Client

/-!
# The input of a session

The client cuts its input into frames and ends it with a control; the server
writes the frames to the session, in as many calls as the session needs.  What
the server accepts is one small language for each mode.
-/

namespace Nephos.Console

open Stream

/-- What the session answers, by the number of the call. -/
structure SessionAnswers where
  write : Nat → Bytes → WriteAnswer
  closes : Nat → Bool
  resizes : Nat → Bool

/-- What a call has done to the session. -/
inductive SessionCall where
  | stdin (taken : Bytes)
  | closeStdin
  | resize (size : Resize)
deriving DecidableEq, Repr

inductive InputError where
  /-- "invalid console stdin frame" -/
  | stdinFrame
  /-- "write console stdin: " and the error -/
  | write
  /-- "write console stdin: short write" -/
  | shortWrite
  | protocol (error : ProtocolError)
  /-- "stdin_eof requires open non-TTY stdin" -/
  | eofMode
  /-- "close console stdin: " and the error -/
  | close
  /-- "resize requires TTY mode" -/
  | resizeMode
  /-- "resize console: " and the error -/
  | resize
  /-- "duplicate or invalid console start" -/
  | duplicateStart
  /-- "invalid console message type" -/
  | messageType
deriving DecidableEq, Repr

structure InputState where
  eof : Bool
  log : List SessionCall

def InputState.initial : InputState := ⟨false, []⟩

/-- The loop over the data of one frame. -/
def writeStdin (answers : SessionAnswers) (data : Bytes)
    (log : List SessionCall) : Option InputError × List SessionCall :=
  if data = [] then (none, log)
  else
    match answers.write log.length data with
    | ⟨taken, failed⟩ =>
        if failed then (some .write, log ++ [.stdin (data.take taken)])
        else if taken = 0 ∨ data.length < taken then
          (some .shortWrite, log ++ [.stdin (data.take taken)])
        else
          writeStdin answers (data.drop taken)
            (log ++ [.stdin (data.take taken)])
termination_by data.length
decreasing_by
  rw [List.length_drop]
  omega

/-- One round of `readConsoleInput`. -/
def readMessage (tty : Bool) (answers : SessionAnswers) (message : Message)
    (state : InputState) : Option InputError × InputState :=
  match message.kind with
  | .binary =>
      match parseInputFrame message.raw with
      | .error _ => (some .stdinFrame, state)
      | .ok data =>
          if state.eof then (some .stdinFrame, state)
          else
            let outcome := writeStdin answers data state.log
            (outcome.1, { state with log := outcome.2 })
  | .text =>
      match parseClientText message.raw with
      | .error error => (some (.protocol error), state)
      | .ok .stdinEOF =>
          if tty ∨ state.eof then (some .eofMode, state)
          else
            (if answers.closes state.log.length then none else some .close,
              ⟨true, state.log ++ [.closeStdin]⟩)
      | .ok (.resize size) =>
          if tty then
            (if answers.resizes state.log.length then none else some .resize,
              { state with log := state.log ++ [.resize size] })
          else (some .resizeMode, state)
      | .ok (.start _) => (some .duplicateStart, state)
  | .other => (some .messageType, state)

/-- `readConsoleInput` on messages.  It goes on until one is in error; when
the connection ends, it reports that. -/
def readConsoleInput (tty : Bool) (answers : SessionAnswers) :
    List Message → InputState → Option InputError × InputState
  | [], state => (none, state)
  | message :: messages, state =>
      match readMessage tty answers message state with
      | (some error, after) => (some error, after)
      | (none, after) => readConsoleInput tty answers messages after

inductive ClientEvent where
  | input (data : Bytes)
  /-- The end of the input, and whether it is a proper one. -/
  | inputError (eof : Bool)
  /-- The clock, and the size of the terminal if it can be read. -/
  | tick (size : Option (UInt16 × UInt16))
  | result (outcome : Except RemoteError Int)
  | cancelled

/-- `readLocalConsoleInput`: what it puts into the channel. -/
def readLocalConsoleInput (source : Source) : List ClientEvent :=
  match _ : source.read (maxDataBytes - 1) with
  | ⟨data, some error, _⟩ =>
      (if data = [] then [] else [.input data]) ++
        [.inputError (error = .eof)]
  | ⟨data, none, rest⟩ =>
      (if data = [] then [] else [.input data]) ++ readLocalConsoleInput rest
termination_by source.weight
decreasing_by
  rename_i result
  have reads := source.read_reads (maxDataBytes - 1)
  rw [result] at reads
  exact reads.progress (by decide) rfl

inductive SessionError where
  | remote (error : RemoteError)
  /-- "read console stdin: " and the error -/
  | stdin
  /-- "local terminal input closed" -/
  | terminalClosed
  | protocol (error : ProtocolError)
  /-- "send console input: " and the error -/
  | send
  /-- The terminal's size cannot be read. -/
  | size
  | cancelled
deriving DecidableEq, Repr

structure ClientState where
  rows : UInt16
  cols : UInt16
  sent : List Message

def ClientState.send (state : ClientState) (message : Message) : ClientState :=
  { state with sent := state.sent ++ [message] }

/-- After a failed write of input the reader has the last word. -/
def sendFailed : Except RemoteError Int → Except SessionError Int
  | .ok code => .ok code
  | .error _ => .error .send

/-- The loop of `consoleSession` on the events in the order in which it takes
them: the result, if it returns, and what it has sent after the start.
`delivers` says which writes succeed, `outcome` is what the reader returns. -/
def consoleSession (tty : Bool) (delivers : Nat → Bool)
    (outcome : Except RemoteError Int) :
    List ClientEvent → ClientState →
      Option (Except SessionError Int) × List Message
  | [], state => (none, state.sent)
  | .result (.ok code) :: _, state => (some (.ok code), state.sent)
  | .result (.error error) :: _, state =>
      (some (.error (.remote error)), state.sent)
  | .cancelled :: _, state => (some (.error .cancelled), state.sent)
  | .input data :: events, state =>
      match inputFrame data with
      | .error error => (some (.error (.protocol error)), state.sent)
      | .ok raw =>
          if delivers state.sent.length then
            consoleSession tty delivers outcome events
              (state.send ⟨.binary, raw⟩)
          else (some (sendFailed outcome), state.sent)
  | .inputError eof :: events, state =>
      if !eof then (some (.error .stdin), state.sent)
      else if tty then (some (.error .terminalClosed), state.sent)
      else if delivers state.sent.length then
        consoleSession tty delivers outcome events
          (state.send ⟨.text, stdinEOFText⟩)
      else (some (sendFailed outcome), state.sent)
  | .tick size :: events, state =>
      if !tty then consoleSession tty delivers outcome events state
      else
        match size with
        | none => (some (.error .size), state.sent)
        | some (rows, cols) =>
            if rows = state.rows ∧ cols = state.cols then
              consoleSession tty delivers outcome events state
            else if delivers state.sent.length then
              consoleSession tty delivers outcome events
                (ClientState.send { state with rows, cols }
                  ⟨.text, marshal (Resize.tree ⟨rows, cols⟩)⟩)
            else (some (.error .send), state.sent)

/-- A frame with these bytes of input. -/
def IsInput (message : Message) (data : Bytes) : Prop :=
  message = ⟨.binary, 0 :: data⟩ ∧ data.length < maxDataBytes

def IsControl (message : Message) (control : ClientControl) : Prop :=
  message.kind = .text ∧ parseClientText message.raw = .ok control

/-- Without a terminal: frames, and at most one end after them. -/
def CommandGrammar (messages : List Message) : Prop :=
  ∃ front last, messages = front ++ last ∧
    (∀ message ∈ front, ∃ data, IsInput message data) ∧
    (last = [] ∨ ∃ message, last = [message] ∧ IsControl message .stdinEOF)

/-- With a terminal: frames and sizes in any order. -/
def TerminalGrammar (messages : List Message) : Prop :=
  ∀ message ∈ messages, (∃ data, IsInput message data) ∨
    ∃ size, IsControl message (.resize size)

def Grammar (tty : Bool) (messages : List Message) : Prop :=
  if tty then TerminalGrammar messages else CommandGrammar messages

/-- The input that frames carry. -/
def Message.input (message : Message) : Bytes :=
  if message.kind = .binary then message.raw.drop 1 else []

def inputBytes (messages : List Message) : Bytes :=
  messages.flatMap Message.input

/-- What the session has got. -/
def SessionCall.bytes : SessionCall → Bytes
  | .stdin taken => taken
  | _ => []

def stdinBytes (log : List SessionCall) : Bytes := log.flatMap SessionCall.bytes

/-- The session's own calls succeed, with any number of bytes at a time. -/
structure SessionAnswers.Succeed (answers : SessionAnswers) : Prop where
  write : ∀ call data, data ≠ [] →
    (answers.write call data).failed = false ∧
      0 < (answers.write call data).taken ∧
      (answers.write call data).taken ≤ data.length
  closes : ∀ call, answers.closes call = true
  resizes : ∀ call, answers.resizes call = true

theorem parseInputFrame_ok_iff {raw data : Bytes} :
    parseInputFrame raw = .ok data ↔
      raw = 0 :: data ∧ data.length < maxDataBytes := by
  cases raw with
  | nil => exact ⟨nofun, nofun⟩
  | cons channel rest =>
      rw [parseInputFrame]
      split
      · rename_i refused
        refine ⟨nofun, ?_⟩
        rintro ⟨same, bounded⟩
        cases same
        rcases refused with long | other
        · omega
        · exact absurd rfl other
      · rename_i accepted
        rw [not_or, not_not] at accepted
        obtain ⟨bounded, rfl⟩ := accepted
        refine ⟨?_, ?_⟩
        · intro same
          cases same
          exact ⟨rfl, by omega⟩
        · rintro ⟨same, -⟩
          cases same
          rfl

/-- A message that is in error has changed nothing, and one that is not is
one of three. -/
theorem readMessage_cases (tty : Bool) (answers : SessionAnswers)
    (message : Message) (state : InputState) :
    (∃ error, readMessage tty answers message state = (some error, state)) ∨
      (∃ data, IsInput message data ∧ state.eof = false) ∨
      (IsControl message .stdinEOF ∧ tty = false ∧ state.eof = false) ∨
      ∃ size, IsControl message (.resize size) ∧ tty = true := by
  obtain ⟨kind, raw⟩ := message
  cases kind with
  | other => exact .inl ⟨_, rfl⟩
  | binary =>
      cases parsed : parseInputFrame raw with
      | error error =>
          refine .inl ⟨.stdinFrame, ?_⟩
          simp [readMessage, parsed]
      | ok data =>
          obtain ⟨rfl, bounded⟩ := parseInputFrame_ok_iff.mp parsed
          cases still : state.eof with
          | true =>
              refine .inl ⟨.stdinFrame, ?_⟩
              simp [readMessage, parsed, still]
          | false => exact .inr (.inl ⟨data, ⟨rfl, bounded⟩, rfl⟩)
  | text =>
      cases parsed : parseClientText raw with
      | error error =>
          refine .inl ⟨.protocol error, ?_⟩
          simp [readMessage, parsed]
      | ok control =>
          cases control with
          | start start =>
              refine .inl ⟨.duplicateStart, ?_⟩
              simp [readMessage, parsed]
          | resize size =>
              cases tty with
              | true => exact .inr (.inr (.inr ⟨size, ⟨rfl, parsed⟩, rfl⟩))
              | false =>
                  refine .inl ⟨.resizeMode, ?_⟩
                  simp [readMessage, parsed]
          | stdinEOF =>
              by_cases refused : tty = true ∨ state.eof = true
              · refine .inl ⟨.eofMode, ?_⟩
                simp [readMessage, parsed, refused]
              · rw [not_or, Bool.not_eq_true, Bool.not_eq_true] at refused
                exact .inr (.inr (.inl ⟨⟨rfl, parsed⟩, refused⟩))

/-- What calls have added to a log, none of which closed the input. -/
structure Extends (before : List SessionCall) (data : Bytes)
    (after : List SessionCall) : Prop where
  front : ∃ more, after = before ++ more ∧ .closeStdin ∉ more
  bytes : stdinBytes after = stdinBytes before ++ data

theorem Extends.refl (log : List SessionCall) : Extends log [] log :=
  ⟨⟨[], by simp, by simp⟩, by simp⟩

theorem Extends.trans {first second third : List SessionCall}
    {left right : Bytes} (before : Extends first left second)
    (after : Extends second right third) :
    Extends first (left ++ right) third := by
  obtain ⟨⟨more, rfl, plain⟩, bytes⟩ := before
  obtain ⟨⟨others, rfl, othersPlain⟩, othersBytes⟩ := after
  refine ⟨⟨more ++ others, List.append_assoc _ _ _, ?_⟩, ?_⟩
  · rw [List.mem_append]
    exact not_or.mpr ⟨plain, othersPlain⟩
  · rw [othersBytes, bytes, List.append_assoc]

theorem extends_snoc (log : List SessionCall) {call : SessionCall}
    (plain : call ≠ .closeStdin) :
    Extends log call.bytes (log ++ [call]) :=
  ⟨⟨[call], rfl, by simpa using plain.symm⟩, by simp [stdinBytes]⟩

section Succeeding

variable {tty : Bool} {answers : SessionAnswers} (succeed : answers.Succeed)
include succeed

/-- However many bytes the session takes at a time, it gets all of them. -/
theorem writeStdin_succeed (data : Bytes) (log : List SessionCall) :
    (writeStdin answers data log).1 = none ∧
      Extends log data (writeStdin answers data log).2 := by
  induction length : data.length using Nat.strongRecOn
    generalizing data log with
  | _ count induction =>
      rw [writeStdin]
      split
      · rename_i empty
        rw [empty]
        exact ⟨rfl, .refl log⟩
      · rename_i nonempty
        obtain ⟨works, some, bounded⟩ :=
          succeed.write log.length data nonempty
        split
        rename_i taken failed answer
        rw [answer] at works some bounded
        dsimp only at works some bounded
        have fair : ¬ (taken = 0 ∨ data.length < taken) := by omega
        rw [works, if_neg (by decide), if_neg fair]
        obtain ⟨goes, later⟩ := induction (data.drop taken).length (by
          rw [List.length_drop]
          omega) (data.drop taken) (log ++ [.stdin (data.take taken)]) rfl
        refine ⟨goes, ?_⟩
        have both := (extends_snoc log (by simp)).trans later
        rwa [SessionCall.bytes, List.take_append_drop] at both

theorem readMessage_input {message : Message} {data : Bytes}
    {state : InputState} (input : IsInput message data)
    (still : state.eof = false) :
    ∃ log, readMessage tty answers message state = (none, ⟨false, log⟩) ∧
      Extends state.log data log := by
  obtain ⟨rfl, bounded⟩ := input
  obtain ⟨goes, later⟩ := writeStdin_succeed succeed data state.log
  have parsed := parseInputFrame_ok_iff.mpr ⟨rfl, bounded⟩
  refine ⟨_, ?_, later⟩
  simp only [readMessage, parsed, still, goes]
  rfl

theorem readMessage_eof {message : Message} {state : InputState}
    (ends : IsControl message .stdinEOF) (still : state.eof = false) :
    readMessage false answers message state =
      (none, ⟨true, state.log ++ [.closeStdin]⟩) := by
  obtain ⟨isText, parsed⟩ := ends
  simp [readMessage, isText, parsed, still, succeed.closes]

theorem readMessage_resize {message : Message} {size : Resize}
    {state : InputState} (resizes : IsControl message (.resize size)) :
    readMessage true answers message state =
      (none, { state with log := state.log ++ [.resize size] }) := by
  obtain ⟨isText, parsed⟩ := resizes
  simp [readMessage, isText, parsed, succeed.resizes]

end Succeeding

/-- The language of the input, read from the left. -/
def Accepted (tty : Bool) : Bool → List Message → Prop
  | _, [] => True
  | eof, message :: messages =>
      (∃ data, IsInput message data ∧ eof = false ∧
        Accepted tty eof messages) ∨
      (IsControl message .stdinEOF ∧ tty = false ∧ eof = false ∧
        Accepted tty true messages) ∨
      ∃ size, IsControl message (.resize size) ∧ tty = true ∧
        Accepted tty eof messages

section Cons

variable {message : Message} {messages : List Message}

theorem not_isControl_of_isInput {data : Bytes}
    (input : IsInput message data) (control : ClientControl) :
    ¬ IsControl message control := by
  rintro ⟨isText, -⟩
  rw [input.1] at isText
  cases isText

theorem accepted_cons_input {tty : Bool} {data : Bytes}
    (input : IsInput message data) :
    Accepted tty false (message :: messages) ↔
      Accepted tty false messages := by
  have others := not_isControl_of_isInput input
  constructor
  · rintro (⟨-, -, -, later⟩ | ⟨ends, -⟩ | ⟨size, resizes, -⟩)
    · exact later
    · exact absurd ends (others _)
    · exact absurd resizes (others _)
  · exact fun later => .inl ⟨data, input, rfl, later⟩

theorem accepted_cons_eof (ends : IsControl message .stdinEOF) :
    Accepted false false (message :: messages) ↔
      Accepted false true messages := by
  constructor
  · rintro (⟨data, input, -⟩ | ⟨-, -, -, later⟩ | ⟨-, -, isTerminal, -⟩)
    · exact absurd ends (not_isControl_of_isInput input _)
    · exact later
    · cases isTerminal
  · exact fun later => .inr (.inl ⟨ends, rfl, rfl, later⟩)

theorem accepted_cons_resize {eof : Bool} {size : Resize}
    (resizes : IsControl message (.resize size)) :
    Accepted true eof (message :: messages) ↔ Accepted true eof messages := by
  constructor
  · rintro (⟨data, input, -⟩ | ⟨-, isCommand, -⟩ | ⟨-, -, -, later⟩)
    · exact absurd resizes (not_isControl_of_isInput input _)
    · cases isCommand
    · exact later
  · exact fun later => .inr (.inr ⟨size, resizes, rfl, later⟩)

end Cons

theorem accepted_ended {messages : List Message} :
    Accepted false true messages ↔ messages = [] := by
  cases messages with
  | nil => exact ⟨fun _ => rfl, fun _ => trivial⟩
  | cons message messages => simp [Accepted]

theorem accepted_terminal_iff {messages : List Message} :
    Accepted true false messages ↔ TerminalGrammar messages := by
  induction messages with
  | nil => exact ⟨fun _ => nofun, fun _ => trivial⟩
  | cons message messages induction =>
      rw [TerminalGrammar, List.forall_mem_cons]
      simp only [Accepted, induction, Bool.true_eq_false, false_and, and_false,
        false_or, true_and]
      constructor
      · rintro (⟨data, input, later⟩ | ⟨size, resizes, later⟩)
        · exact ⟨.inl ⟨data, input⟩, later⟩
        · exact ⟨.inr ⟨size, resizes⟩, later⟩
      · rintro ⟨⟨data, input⟩ | ⟨size, resizes⟩, later⟩
        · exact .inl ⟨data, input, later⟩
        · exact .inr ⟨size, resizes, later⟩

theorem accepted_command_iff {messages : List Message} :
    Accepted false false messages ↔ CommandGrammar messages := by
  induction messages with
  | nil =>
      exact ⟨fun _ => ⟨[], [], rfl, nofun, .inl rfl⟩, fun _ => trivial⟩
  | cons message messages induction =>
      simp only [Accepted, induction, accepted_ended, Bool.false_eq_true,
        false_and, and_false, exists_false, or_false, true_and]
      constructor
      · rintro (⟨data, input, front, last, rfl, frames, ended⟩ | ⟨ends, rfl⟩)
        · exact ⟨message :: front, last, rfl, List.forall_mem_cons.mpr
            ⟨⟨data, input⟩, frames⟩, ended⟩
        · exact ⟨[], [message], rfl, nofun, .inr ⟨message, rfl, ends⟩⟩
      · rintro ⟨front, last, split, frames, ended⟩
        cases front with
        | nil =>
            rcases ended with rfl | ⟨final, rfl, ends⟩
            · cases split
            · cases split
              exact .inr ⟨ends, rfl⟩
        | cons first front =>
            cases split
            obtain ⟨⟨data, input⟩, frames⟩ := List.forall_mem_cons.mp frames
            exact .inl ⟨data, input, front, last, rfl, frames, ended⟩

theorem accepted_iff {tty : Bool} {messages : List Message} :
    Accepted tty false messages ↔ Grammar tty messages := by
  cases tty with
  | true => exact accepted_terminal_iff
  | false => exact accepted_command_iff

theorem Message.input_of_isInput {message : Message} {data : Bytes}
    (input : IsInput message data) : message.input = data := by
  rw [input.1]
  rfl

theorem Message.input_of_isControl {message : Message}
    {control : ClientControl} (isControl : IsControl message control) :
    message.input = [] := by
  rw [Message.input, isControl.1]
  rfl

section Runs

variable {tty : Bool} {answers : SessionAnswers}

theorem readConsoleInput_cons {message : Message} {messages : List Message}
    {state after : InputState}
    (step : readMessage tty answers message state = (none, after)) :
    readConsoleInput tty answers (message :: messages) state =
      readConsoleInput tty answers messages after := by
  rw [readConsoleInput, step]

/-- A sequence of the language is read to its end. -/
theorem readConsoleInput_accepted (succeed : answers.Succeed)
    {messages : List Message} {state : InputState}
    (accepted : Accepted tty state.eof messages) :
    (readConsoleInput tty answers messages state).1 = none ∧
      stdinBytes (readConsoleInput tty answers messages state).2.log =
        stdinBytes state.log ++ inputBytes messages := by
  induction messages generalizing state with
  | nil => exact ⟨rfl, (List.append_nil _).symm⟩
  | cons message messages induction =>
      rw [inputBytes, List.flatMap_cons]
      rcases accepted with ⟨data, input, still, later⟩ |
        ⟨ends, rfl, still, later⟩ | ⟨size, resizes, rfl, later⟩
      · obtain ⟨log, step, grown⟩ :=
          readMessage_input succeed input still
        rw [readConsoleInput_cons step]
        rw [still] at later
        obtain ⟨goes, bytes⟩ := @induction ⟨false, log⟩ later
        refine ⟨goes, ?_⟩
        rw [bytes, grown.bytes, Message.input_of_isInput input,
          List.append_assoc]
        rfl
      · have step := readMessage_eof succeed ends still
        rw [readConsoleInput_cons step]
        obtain ⟨goes, bytes⟩ := @induction ⟨true, _⟩ later
        refine ⟨goes, ?_⟩
        rw [bytes, Message.input_of_isControl ends]
        simp [stdinBytes, SessionCall.bytes, inputBytes]
      · have step := @readMessage_resize _ succeed _ _ state resizes
        rw [readConsoleInput_cons step]
        obtain ⟨goes, bytes⟩ := @induction
          { state with log := state.log ++ [.resize size] } later
        refine ⟨goes, ?_⟩
        rw [bytes, Message.input_of_isControl resizes]
        simp [stdinBytes, SessionCall.bytes, inputBytes]

/-- Any other sequence is read up to its first message that does not belong
to the language, and nothing is done for that one. -/
theorem readConsoleInput_refused (succeed : answers.Succeed)
    {messages : List Message} {state : InputState}
    (refused : ¬ Accepted tty state.eof messages) :
    ∃ good bad rest, messages = good ++ bad :: rest ∧
      Accepted tty state.eof good ∧
      ¬ Accepted tty state.eof (good ++ [bad]) ∧
      ∃ error, readConsoleInput tty answers messages state =
        (some error, (readConsoleInput tty answers good state).2) := by
  induction messages generalizing state with
  | nil => exact absurd trivial refused
  | cons message messages induction =>
      rcases readMessage_cases tty answers message state with
        ⟨error, failed⟩ | accepted
      · refine ⟨[], message, messages, rfl, trivial, ?_, error, ?_⟩
        · intro accepted
          have goes := (readConsoleInput_accepted succeed accepted).1
          rw [List.nil_append, readConsoleInput, failed] at goes
          cases goes
        · show _ = (some error, state)
          rw [readConsoleInput, failed]
      · -- The message belongs to the language, so a later one does not.
        obtain ⟨eof, step, goesOn⟩ : ∃ eof,
            (∃ log, readMessage tty answers message state =
              (none, ⟨eof, log⟩)) ∧
            ∀ others, Accepted tty state.eof (message :: others) ↔
              Accepted tty eof others := by
          rcases accepted with ⟨data, input, still⟩ | ⟨ends, rfl, still⟩ |
            ⟨size, resizes, rfl⟩
          · obtain ⟨log, step, -⟩ := readMessage_input succeed input still
            rw [still]
            exact ⟨false, ⟨log, step⟩, fun _ => accepted_cons_input input⟩
          · have step := readMessage_eof succeed ends still
            rw [still]
            exact ⟨true, ⟨_, step⟩, fun _ => accepted_cons_eof ends⟩
          · exact ⟨state.eof, ⟨_, readMessage_resize succeed resizes⟩,
              fun _ => accepted_cons_resize resizes⟩
        obtain ⟨log, step⟩ := step
        have later : ¬ Accepted tty eof messages :=
          fun rest => refused ((goesOn messages).mpr rest)
        obtain ⟨good, bad, rest, split, goodAccepted, badRefused, error,
          result⟩ := @induction ⟨eof, log⟩ later
        refine ⟨message :: good, bad, rest, congrArg _ split,
          (goesOn good).mpr goodAccepted, ?_, error, ?_⟩
        · intro all
          exact badRefused ((goesOn (good ++ [bad])).mp all)
        · rw [readConsoleInput_cons step, readConsoleInput_cons step]
          exact result

/-- Frames leave the input open. -/
theorem readConsoleInput_frames (succeed : answers.Succeed)
    {messages : List Message} (rest : List Message) {state : InputState}
    (still : state.eof = false)
    (frames : ∀ message ∈ messages, ∃ data, IsInput message data) :
    ∃ log, readConsoleInput tty answers (messages ++ rest) state =
        readConsoleInput tty answers rest ⟨false, log⟩ ∧
      Extends state.log (inputBytes messages) log := by
  induction messages generalizing state with
  | nil =>
      obtain ⟨eof, log⟩ := state
      cases still
      exact ⟨log, rfl, .refl log⟩
  | cons message messages induction =>
      obtain ⟨⟨data, input⟩, later⟩ := List.forall_mem_cons.mp frames
      obtain ⟨middle, step, first⟩ := readMessage_input succeed input still
      obtain ⟨log, onward, second⟩ :=
        @induction ⟨false, middle⟩ rfl later
      refine ⟨log, ?_, ?_⟩
      · rw [List.cons_append, readConsoleInput_cons step]
        exact onward
      · rw [inputBytes, List.flatMap_cons, Message.input_of_isInput input]
        exact first.trans second

end Runs

theorem readLocalConsoleInput_spec (source : Source) :
    ∃ chunks : List Bytes,
      readLocalConsoleInput source = chunks.map .input ++
        [.inputError (source.ending = .eof)] ∧
      chunks.flatten = source.bytes ∧
      ∀ chunk ∈ chunks, chunk.length < maxDataBytes := by
  induction weight : source.weight using Nat.strongRecOn
    generalizing source with
  | _ count induction =>
      have reads := source.read_reads (maxDataBytes - 1)
      have short (data : Bytes) (fits : data.length ≤ maxDataBytes - 1) :
          data.length < maxDataBytes := by
        have positive : 0 < maxDataBytes := by decide
        omega
      rw [readLocalConsoleInput]
      split
      · rename_i data error rest result
        rw [result] at reads
        obtain ⟨same, ended⟩ := reads.last error rfl
        have bytes := reads.bytes
        rw [ended, List.append_nil] at bytes
        dsimp only at bytes
        rw [bytes, same]
        by_cases empty : data = []
        · rw [if_pos empty]
          exact ⟨[], rfl, empty.symm, nofun⟩
        · rw [if_neg empty]
          refine ⟨[data], rfl, by simp, ?_⟩
          rintro chunk (- | ⟨-, ⟨⟩⟩)
          exact short data reads.length
      · rename_i data rest result
        rw [result] at reads
        have lighter := reads.progress (by decide) rfl
        obtain ⟨chunks, events, bytes, bounded⟩ := induction rest.weight
          (by rw [← weight]; exact lighter) rest rfl
        rw [events, reads.ending]
        by_cases empty : data = []
        · refine ⟨chunks, by rw [if_pos empty]; rfl, ?_, bounded⟩
          rw [bytes, reads.bytes, empty]
          rfl
        · refine ⟨data :: chunks, by rw [if_neg empty]; rfl, ?_, ?_⟩
          · rw [List.flatten_cons, bytes, reads.bytes]
          · exact List.forall_mem_cons.mpr ⟨short data reads.length, bounded⟩

def ClientEvent.isInput : ClientEvent → Bool
  | .input _ | .inputError _ => true
  | _ => false

/-- The events of a client whose console goes on: its input in order, and any
number of looks at the size of the terminal in between. -/
structure Undisturbed (inputs events : List ClientEvent) : Prop where
  inputs : events.filter ClientEvent.isInput = inputs
  others : ∀ event ∈ events, event.isInput = false →
    ∃ rows cols, event = .tick (some (rows, cols)) ∧ rows ≠ 0 ∧ cols ≠ 0

/-- What the messages of a client carry. -/
structure Carries (tty eof : Bool) (chunks : List Bytes)
    (messages : List Message) : Prop where
  bytes : inputBytes messages = chunks.flatten
  terminal : tty = true → TerminalGrammar messages
  command : tty = false → ∃ front,
    (∀ message ∈ front, ∃ data, IsInput message data) ∧
      messages = front ++ if eof then [⟨.text, stdinEOFText⟩] else []

theorem isControl_stdinEOF : IsControl ⟨.text, stdinEOFText⟩ .stdinEOF :=
  ⟨rfl, parseClientText_stdinEOF⟩

theorem isControl_resize {rows cols : UInt16} (someRows : rows ≠ 0)
    (someCols : cols ≠ 0) :
    IsControl ⟨.text, marshal (Resize.tree ⟨rows, cols⟩)⟩
      (.resize ⟨rows, cols⟩) :=
  ⟨rfl, parseClientText_resize someRows someCols⟩

theorem inputFrame_ok {data : Bytes} (bounded : data.length < maxDataBytes) :
    inputFrame data = .ok (0 :: data) :=
  if_neg (by omega)

theorem Carries.cons_input {tty eof : Bool} {data : Bytes}
    {chunks : List Bytes} {messages : List Message}
    (carries : Carries tty eof chunks messages)
    (bounded : data.length < maxDataBytes) :
    Carries tty eof (data :: chunks) (⟨.binary, 0 :: data⟩ :: messages) := by
  have input : IsInput ⟨.binary, 0 :: data⟩ data := ⟨rfl, bounded⟩
  refine ⟨?_, fun terminal => ?_, fun command => ?_⟩
  · rw [inputBytes, List.flatMap_cons, List.flatten_cons, ← carries.bytes]
    rfl
  · exact List.forall_mem_cons.mpr
      ⟨.inl ⟨data, input⟩, carries.terminal terminal⟩
  · obtain ⟨front, frames, rfl⟩ := carries.command command
    exact ⟨_ :: front, List.forall_mem_cons.mpr ⟨⟨data, input⟩, frames⟩, rfl⟩

theorem Carries.cons_resize {eof : Bool} {chunks : List Bytes}
    {messages : List Message} (carries : Carries true eof chunks messages)
    {rows cols : UInt16} (someRows : rows ≠ 0) (someCols : cols ≠ 0) :
    Carries true eof chunks
      (⟨.text, marshal (Resize.tree ⟨rows, cols⟩)⟩ :: messages) := by
  refine ⟨carries.bytes, fun _ => ?_, nofun⟩
  exact List.forall_mem_cons.mpr
    ⟨.inr ⟨_, isControl_resize someRows someCols⟩, carries.terminal rfl⟩

section Client

variable {outcome : Except RemoteError Int}

theorem Undisturbed.tail {inputs events : List ClientEvent}
    {event : ClientEvent} (run : Undisturbed inputs (event :: events))
    (other : event.isInput = false) : Undisturbed inputs events := by
  obtain ⟨filtered, others⟩ := run
  rw [List.filter_cons_of_neg (by simp [other])] at filtered
  exact ⟨filtered, (List.forall_mem_cons.mp others).2⟩

theorem Undisturbed.tail_input {input : ClientEvent}
    {inputs events : List ClientEvent} {event : ClientEvent}
    (run : Undisturbed (input :: inputs) (event :: events))
    (isInput : event.isInput = true) :
    event = input ∧ Undisturbed inputs events := by
  obtain ⟨filtered, others⟩ := run
  rw [List.filter_cons_of_pos isInput] at filtered
  obtain ⟨same, rest⟩ := List.cons.inj filtered
  exact ⟨same, rest, (List.forall_mem_cons.mp others).2⟩

/-- Without a terminal nothing is sent for its size. -/
theorem consoleSession_idle {events : List ClientEvent}
    (run : Undisturbed [] events) (state : ClientState) :
    (consoleSession false (fun _ => true) outcome events state).2 =
      state.sent := by
  induction events with
  | nil => rfl
  | cons event events induction =>
      have other : event.isInput = false := by
        by_contra isInput
        rw [Bool.not_eq_false] at isInput
        have filtered := run.inputs
        rw [List.filter_cons_of_pos isInput] at filtered
        cases filtered
      obtain ⟨rows, cols, rfl, -⟩ :=
        run.others event List.mem_cons_self other
      exact induction (run.tail other)

/-- What the client has sent when its input has ended. -/
theorem consoleSession_sent {tty eof : Bool} {chunks : List Bytes}
    {events : List ClientEvent}
    (bounded : ∀ chunk ∈ chunks, chunk.length < maxDataBytes)
    (run : Undisturbed (chunks.map .input ++ [.inputError eof]) events)
    (state : ClientState) :
    ∃ messages,
      (consoleSession tty (fun _ => true) outcome events state).2 =
        state.sent ++ messages ∧ Carries tty eof chunks messages := by
  induction events generalizing chunks state with
  | nil =>
      have filtered := congrArg List.length run.inputs
      simp at filtered
  | cons event events induction =>
      cases isInput : event.isInput with
      | false =>
          obtain ⟨rows, cols, rfl, someRows, someCols⟩ :=
            run.others event List.mem_cons_self isInput
          have later := run.tail isInput
          cases tty with
          | false => exact induction bounded later state
          | true =>
              by_cases same : rows = state.rows ∧ cols = state.cols
              · obtain ⟨messages, sent, carries⟩ :=
                  induction bounded later state
                refine ⟨messages, ?_, carries⟩
                simp only [consoleSession, if_pos same]
                exact sent
              · obtain ⟨messages, sent, carries⟩ := induction bounded later
                  (ClientState.send { state with rows, cols }
                    ⟨.text, marshal (Resize.tree ⟨rows, cols⟩)⟩)
                refine ⟨_, ?_, carries.cons_resize someRows someCols⟩
                simp only [consoleSession, if_neg same]
                refine sent.trans ?_
                simp [ClientState.send]
      | true =>
          cases chunks with
          | nil =>
              obtain ⟨rfl, later⟩ := run.tail_input isInput
              cases eof with
              | false =>
                  refine ⟨[], ?_, rfl, fun _ => nofun, fun _ => ?_⟩
                  · simp [consoleSession]
                  · exact ⟨[], nofun, rfl⟩
              | true =>
                  cases tty with
                  | true =>
                      refine ⟨[], ?_, rfl, fun _ => nofun, nofun⟩
                      simp [consoleSession]
                  | false =>
                      refine ⟨[⟨.text, stdinEOFText⟩], ?_, rfl, nofun,
                        fun _ => ⟨[], nofun, rfl⟩⟩
                      exact consoleSession_idle later _
          | cons chunk chunks =>
              obtain ⟨rfl, later⟩ := run.tail_input isInput
              obtain ⟨fits, others⟩ := List.forall_mem_cons.mp bounded
              obtain ⟨messages, sent, carries⟩ := induction others later
                (state.send ⟨.binary, 0 :: chunk⟩)
              refine ⟨_, ?_, carries.cons_input fits⟩
              simp only [consoleSession, inputFrame_ok fits]
              refine sent.trans ?_
              simp [ClientState.send]

end Client

/-- The input has been closed once, after everything else. -/
def ClosedLast (log : List SessionCall) : Prop :=
  ∃ before, log = before ++ [.closeStdin] ∧ .closeStdin ∉ before

section Session

variable {tty eof : Bool} {answers : SessionAnswers} {chunks : List Bytes}
  {messages : List Message}

theorem Carries.grammar (carries : Carries tty eof chunks messages) :
    Grammar tty messages := by
  cases tty with
  | true => exact carries.terminal rfl
  | false =>
      obtain ⟨front, frames, rfl⟩ := carries.command rfl
      refine ⟨front, _, rfl, frames, ?_⟩
      cases eof with
      | false => exact .inl rfl
      | true => exact .inr ⟨_, rfl, isControl_stdinEOF⟩

/-- What the session gets from the messages of a client. -/
theorem Carries.delivered (carries : Carries tty eof chunks messages)
    (succeed : answers.Succeed) :
    (readConsoleInput tty answers messages .initial).1 = none ∧
      stdinBytes (readConsoleInput tty answers messages .initial).2.log =
        chunks.flatten := by
  obtain ⟨goes, bytes⟩ := @readConsoleInput_accepted tty answers succeed
    messages .initial (accepted_iff.mpr carries.grammar)
  rw [bytes, carries.bytes]
  exact ⟨goes, rfl⟩

theorem Carries.closed (carries : Carries false true chunks messages)
    (succeed : answers.Succeed) :
    ClosedLast (readConsoleInput false answers messages .initial).2.log := by
  obtain ⟨front, frames, rfl⟩ := carries.command rfl
  obtain ⟨log, onward, ⟨more, grown, plain⟩, -⟩ :=
    @readConsoleInput_frames false answers succeed front
      [⟨.text, stdinEOFText⟩] .initial rfl frames
  have step := @readMessage_eof answers succeed _ ⟨false, log⟩
    isControl_stdinEOF rfl
  rw [if_pos rfl, onward, readConsoleInput_cons step]
  exact ⟨log, rfl, grown ▸ plain⟩

end Session

/-- The session gets the client's input exactly, however it is cut on either
side, and without a terminal it is closed once, after all of it.  The server
reads on exactly as long as the messages belong to the language of the mode,
and does nothing for the first one that does not. -/
theorem stdin_exact (tty : Bool) (answers : SessionAnswers)
    (succeed : answers.Succeed) :
    (∀ (source : Source) (events : List ClientEvent)
        (outcome : Except RemoteError Int) (rows cols : UInt16)
        (sent : List Message),
      Undisturbed (readLocalConsoleInput source) events →
      sent = (consoleSession tty (fun _ => true) outcome events
        ⟨rows, cols, []⟩).2 →
      (readConsoleInput tty answers sent .initial).1 = none ∧
        stdinBytes (readConsoleInput tty answers sent .initial).2.log =
          source.bytes ∧
        (tty = false → source.ending = .eof →
          ClosedLast (readConsoleInput tty answers sent .initial).2.log)) ∧
    ∀ messages : List Message,
      ((readConsoleInput tty answers messages .initial).1 = none ↔
        Grammar tty messages) ∧
      (¬ Grammar tty messages → ∃ good bad rest error,
        messages = good ++ bad :: rest ∧ Grammar tty good ∧
        ¬ Grammar tty (good ++ [bad]) ∧
        (readConsoleInput tty answers messages .initial).1 = some error ∧
        stdinBytes (readConsoleInput tty answers messages .initial).2.log =
          inputBytes good) := by
  constructor
  · rintro source events outcome rows cols sent run rfl
    obtain ⟨chunks, read, bytes, bounded⟩ := readLocalConsoleInput_spec source
    rw [read] at run
    obtain ⟨messages, sent, carries⟩ :=
      @consoleSession_sent outcome tty _ _ _ bounded run ⟨rows, cols, []⟩
    rw [sent, List.nil_append, ← bytes]
    obtain ⟨goes, delivered⟩ := carries.delivered succeed
    refine ⟨goes, delivered, ?_⟩
    rintro rfl ended
    rw [decide_eq_true ended] at carries
    exact carries.closed succeed
  · intro messages
    rw [← accepted_iff]
    have refused := @readConsoleInput_refused tty answers succeed messages
      .initial
    refine ⟨⟨fun goes => ?_, fun accepted =>
      (readConsoleInput_accepted succeed accepted).1⟩, fun outside => ?_⟩
    · by_contra outside
      obtain ⟨_, _, _, -, -, -, error, stopped⟩ := refused outside
      rw [stopped] at goes
      cases goes
    · obtain ⟨good, bad, rest, split, accepted, offending, error, stopped⟩ :=
        refused outside
      refine ⟨good, bad, rest, error, split, accepted_iff.mp accepted,
        fun grammar => offending (accepted_iff.mpr grammar), ?_, ?_⟩
      · rw [stopped]
      · rw [stopped]
        exact (readConsoleInput_accepted succeed accepted).2

/-- A session that takes one byte at a time. -/
def oneByOne : SessionAnswers :=
  ⟨fun _ _ => ⟨1, false⟩, fun _ => true, fun _ => true⟩

theorem twoBytes_read :
    oneByOne.Succeed ∧
      (readConsoleInput false oneByOne
        [⟨.binary, 0 :: Text.utf8 "ab"⟩, ⟨.text, stdinEOFText⟩]
        .initial).1 = none := by
  have succeed : oneByOne.Succeed :=
    ⟨fun _ data nonempty => ⟨rfl, Nat.one_pos,
      List.length_pos_iff.mpr nonempty⟩, fun _ => rfl, fun _ => rfl⟩
  refine ⟨succeed, ((stdin_exact false oneByOne succeed).2 _).1.mpr ?_⟩
  refine ⟨[_], [_], rfl, ?_, .inr ⟨_, rfl, isControl_stdinEOF⟩⟩
  intro message member
  rw [List.mem_singleton.mp member]
  exact ⟨Text.utf8 "ab", rfl, by decide⟩

end Nephos.Console
