import Nephos.Console.Exec
import Nephos.Console.ProtocolSpec

/-!
# The console client

`readRemoteConsole` is the only place where the client decides that a command
has succeeded.  It accepts one language: output, one exit status, and a normal
closure, with every local write done.
-/

namespace Nephos.Console

inductive MessageKind where
  | text
  | binary
  | other
deriving DecidableEq, Repr

structure Message where
  kind : MessageKind
  raw : Bytes
deriving DecidableEq, Repr

/-- How reading from a connection ends: with a close status of the peer, or
with any other error. -/
inductive ReadError where
  | closed (status : Nat)
  | failed
deriving DecidableEq, Repr

def statusNormalClosure : Nat := 1000

/-- What a writer answers to one call. -/
structure WriteAnswer where
  taken : Nat
  failed : Bool
deriving DecidableEq, Repr

/-- `io.Copy` from a buffer makes one call, and none for no data.  A count
beyond the data is a panic there and a failure here. -/
def WriteAnswer.complete (answer : WriteAnswer) (data : Bytes) : Bool :=
  !answer.failed && answer.taken == data.length

inductive RemoteError where
  /-- "console closed without a valid final result: " and the error -/
  | noResult
  /-- "console data or duplicate result after final exit" -/
  | afterExit
  | protocol (error : ProtocolError)
  /-- "PTY console sent separate stderr" -/
  | separateStderr
  /-- "write console output: " and the error -/
  | write
  /-- "remote console: " and the message -/
  | remote (message : Bytes)
  /-- "invalid console message type" -/
  | messageType
deriving DecidableEq, Repr

/-- What the reader has seen, written, and how often it has called a writer. -/
structure RemoteState where
  exit : Option Int
  output : Output
  calls : Nat

def RemoteState.initial : RemoteState := ⟨none, ⟨[], []⟩, 0⟩

/-- `readRemoteConsole` on the messages of a server and the end of the
connection.  An error comes with exit code 1. -/
def readRemoteConsole (tty : Bool) (answers : Nat → WriteAnswer)
    (ending : ReadError) :
    List Message → RemoteState → Except RemoteError Int × Output
  | [], state =>
      match state.exit with
      | some code =>
          if ending = .closed statusNormalClosure then
            (.ok code, state.output)
          else (.error .noResult, state.output)
      | none => (.error .noResult, state.output)
  | message :: messages, state =>
      if state.exit.isSome then (.error .afterExit, state.output)
      else
        match message.kind with
        | .binary =>
            match parseOutputFrame message.raw with
            | .error error => (.error (.protocol error), state.output)
            | .ok (channel, data) =>
                if channel = 2 ∧ tty then
                  (.error .separateStderr, state.output)
                else
                  let writer := if channel = 2 then Channel.stderr else .stdout
                  if data = [] then
                    readRemoteConsole tty answers ending messages state
                  else if (answers state.calls).complete data then
                    readRemoteConsole tty answers ending messages
                      { state with
                        output := state.output.write data writer
                        calls := state.calls + 1 }
                  else
                    (.error .write, state.output.write
                      (data.take (answers state.calls).taken) writer)
        | .text =>
            match parseServerText message.raw with
            | .error error => (.error (.protocol error), state.output)
            | .ok (.error text) => (.error (.remote text), state.output)
            | .ok (.exit code) =>
                readRemoteConsole tty answers ending messages
                  { state with exit := some code }
        | .other => (.error .messageType, state.output)

/-- Output as a message. -/
def Frame.message (frame : Frame) : Message :=
  ⟨.binary, frame.channel.byte :: frame.payload⟩

/-- Output that the protocol allows: bounded, and with a terminal on the one
stream that it has. -/
structure Allowed (tty : Bool) (frame : Frame) : Prop where
  bounded : frame.payload.length < maxDataBytes
  single : tty = true → frame.channel = .stdout

/-- The messages begin with no allowed output. -/
def NoOutput (tty : Bool) (messages : List Message) : Prop :=
  ∀ frame, Allowed tty frame → messages.head? ≠ some frame.message

/-- The local writes of the output are complete, from a call on. -/
def Written (answers : Nat → WriteAnswer) : Nat → List Frame → Prop
  | _, [] => True
  | calls, frame :: frames =>
      if frame.payload = [] then Written answers calls frames
      else (answers calls).complete frame.payload = true ∧
        Written answers (calls + 1) frames

theorem parseOutputFrame_byte (channel : Channel) {data : Bytes}
    (bounded : data.length < maxDataBytes) :
    parseOutputFrame (channel.byte :: data) = .ok (channel.byte, data) := by
  have accepted : ¬ (maxDataBytes < data.length + 1 ∨
      (channel.byte ≠ 1 ∧ channel.byte ≠ 2)) := by
    rintro (long | other)
    · omega
    · cases channel
      · exact other.1 rfl
      · exact other.2 rfl
  exact if_neg accepted

theorem parseOutputFrame_ok {raw data : Bytes} {byte : UInt8}
    (parsed : parseOutputFrame raw = .ok (byte, data)) :
    ∃ channel : Channel, byte = channel.byte ∧ raw = channel.byte :: data ∧
      data.length < maxDataBytes := by
  cases raw with
  | nil => cases parsed
  | cons first rest =>
      rw [parseOutputFrame] at parsed
      split at parsed
      · cases parsed
      · rename_i accepted
        cases parsed
        rw [not_or, not_and_or, not_not, not_not] at accepted
        rcases accepted.2 with rfl | rfl
        · exact ⟨.stdout, rfl, rfl, by omega⟩
        · exact ⟨.stderr, rfl, rfl, by omega⟩

theorem outputWrite_nil (output : Output) (channel : Channel) :
    output.write [] channel = output := by
  cases channel <;> simp [Output.write]

section Reader

variable {tty : Bool} {answers : Nat → WriteAnswer} {ending : ReadError}

/-- The state after output has been written. -/
def RemoteState.wrote (state : RemoteState) (frame : Frame) : RemoteState :=
  { state with
    output := state.output.write frame.payload frame.channel
    calls := if frame.payload = [] then state.calls else state.calls + 1 }

/-- A message that is allowed output. -/
theorem readRemoteConsole_frame {frame : Frame} (allowed : Allowed tty frame)
    (messages : List Message) {state : RemoteState}
    (running : state.exit = none) :
    readRemoteConsole tty answers ending (frame.message :: messages) state =
      if frame.payload = [] ∨
          (answers state.calls).complete frame.payload = true then
        readRemoteConsole tty answers ending messages (state.wrote frame)
      else
        (.error .write, state.output.write
          (frame.payload.take (answers state.calls).taken) frame.channel) := by
  obtain ⟨bounded, single⟩ := allowed
  have isOpen : ¬ state.exit.isSome = true := by simp [running]
  have kept : ¬ (frame.channel.byte = 2 ∧ tty = true) := by
    rintro ⟨isStderr, terminal⟩
    rw [single terminal] at isStderr
    cases isStderr
  have writer : (if frame.channel.byte = 2 then Channel.stderr else .stdout) =
      frame.channel := by
    cases frame.channel <;> rfl
  rw [readRemoteConsole, if_neg isOpen]
  simp only [Frame.message, parseOutputFrame_byte _ bounded, if_neg kept,
    writer]
  by_cases empty : frame.payload = []
  · have same : state.wrote frame = state := by
      obtain ⟨exit, output, calls⟩ := state
      simp [RemoteState.wrote, empty, outputWrite_nil]
    rw [if_pos empty, if_pos (.inl empty), same]
  · by_cases complete : (answers state.calls).complete frame.payload = true
    · simp [empty, complete, RemoteState.wrote]
    · simp [empty, complete]

/-- What any other message leads to while the command runs. -/
theorem readRemoteConsole_other {message : Message} {messages : List Message}
    {state : RemoteState} (running : state.exit = none)
    (noOutput : NoOutput tty (message :: messages)) :
    (∃ code, message.kind = .text ∧
      parseServerText message.raw = .ok (.exit code) ∧
      readRemoteConsole tty answers ending (message :: messages) state =
        readRemoteConsole tty answers ending messages
          { state with exit := some code }) ∨
    ((∀ code, ¬ (message.kind = .text ∧
        parseServerText message.raw = .ok (.exit code))) ∧
      ∃ error, readRemoteConsole tty answers ending (message :: messages)
        state = (.error error, state.output)) := by
  have isOpen : ¬ state.exit.isSome = true := by simp [running]
  obtain ⟨kind, raw⟩ := message
  rw [readRemoteConsole, if_neg isOpen]
  cases kind with
  | other => exact .inr ⟨(fun _ text => nomatch text.1), _, rfl⟩
  | binary =>
      refine .inr ⟨(fun _ text => nomatch text.1), ?_⟩
      cases parsed : parseOutputFrame raw with
      | error error => exact ⟨_, rfl⟩
      | ok found =>
          obtain ⟨byte, data⟩ := found
          obtain ⟨channel, rfl, rfl, bounded⟩ := parseOutputFrame_ok parsed
          by_cases separate : channel.byte = 2 ∧ tty = true
          · simp only [if_pos separate]
            exact ⟨_, rfl⟩
          · refine absurd rfl (noOutput ⟨channel, data, ?_⟩ ⟨bounded, ?_⟩)
            · exact Nat.lt_trans bounded (by decide)
            · intro terminal
              cases channel with
              | stdout => rfl
              | stderr => exact absurd ⟨rfl, terminal⟩ separate
  | text =>
      cases parsed : parseServerText raw with
      | error error =>
          exact .inr ⟨(fun _ text => nomatch text.2), _, rfl⟩
      | ok control =>
          cases control with
          | error message =>
              exact .inr ⟨(fun _ text => nomatch text.2), _, rfl⟩
          | exit code => exact .inl ⟨code, rfl, rfl, rfl⟩

/-- After an exit only a normal closure is a success. -/
theorem readRemoteConsole_exited {messages : List Message}
    {state : RemoteState} {code : Int} (exited : state.exit = some code) :
    (readRemoteConsole tty answers ending messages state).2 = state.output ∧
      ∀ result, (readRemoteConsole tty answers ending messages state).1 =
          .ok result ↔
        result = code ∧ messages = [] ∧
          ending = .closed statusNormalClosure := by
  cases messages with
  | nil =>
      by_cases normal : ending = .closed statusNormalClosure
      · simp [readRemoteConsole, exited, normal, eq_comm]
      · simp [readRemoteConsole, exited, normal]
  | cons message messages => simp [readRemoteConsole, exited]

/-- What follows the output decides the result, and adds nothing to what was
written. -/
theorem readRemoteConsole_noOutput {messages : List Message}
    {state : RemoteState} (running : state.exit = none)
    (noOutput : NoOutput tty messages) :
    (readRemoteConsole tty answers ending messages state).2 = state.output ∧
      ∀ code, (readRemoteConsole tty answers ending messages state).1 =
          .ok code ↔
        (∃ raw, messages = [⟨.text, raw⟩] ∧
          parseServerText raw = .ok (.exit code)) ∧
          ending = .closed statusNormalClosure := by
  cases messages with
  | nil => simp [readRemoteConsole, running]
  | cons message messages =>
      rcases readRemoteConsole_other running noOutput with
        ⟨exit, isText, parsed, step⟩ | ⟨noExit, error, failed⟩
      · have exited := @readRemoteConsole_exited tty answers ending messages
          { state with exit := some exit } exit rfl
        rw [step]
        refine ⟨exited.1, fun code => (exited.2 code).trans ?_⟩
        obtain ⟨kind, raw⟩ := message
        cases isText
        constructor
        · rintro ⟨rfl, rfl, normal⟩
          exact ⟨⟨raw, rfl, parsed⟩, normal⟩
        · rintro ⟨⟨other, same, isExit⟩, normal⟩
          cases same
          cases parsed.symm.trans isExit
          exact ⟨rfl, rfl, normal⟩
      · rw [failed]
        refine ⟨rfl, fun code => ⟨nofun, ?_⟩⟩
        rintro ⟨⟨raw, same, isExit⟩, -⟩
        cases same
        exact absurd ⟨rfl, isExit⟩ (noExit code)

/-- All the output of a server, and whatever follows it. -/
theorem readRemoteConsole_frames {frames : List Frame}
    (allowed : ∀ frame ∈ frames, Allowed tty frame)
    (messages : List Message) {state : RemoteState}
    (running : state.exit = none) :
    (Written answers state.calls frames → ∃ calls,
      readRemoteConsole tty answers ending
          (frames.map Frame.message ++ messages) state =
        readRemoteConsole tty answers ending messages
          ⟨none, state.output.append (received frames), calls⟩) ∧
    (¬ Written answers state.calls frames →
      (readRemoteConsole tty answers ending
        (frames.map Frame.message ++ messages) state).1 = .error .write) := by
  induction frames generalizing state with
  | nil =>
      refine ⟨fun _ => ⟨state.calls, ?_⟩, fun missing => absurd trivial missing⟩
      obtain ⟨exit, output, calls⟩ := state
      cases running
      simp [Output.append, received, payloads]
  | cons frame frames induction =>
      have step := @readRemoteConsole_frame tty answers ending frame
        (allowed frame List.mem_cons_self)
        (frames.map Frame.message ++ messages) state running
      have later := @induction
        (fun other member => allowed other (List.mem_cons_of_mem _ member))
        (state.wrote frame) running
      have written : Written answers state.calls (frame :: frames) ↔
          (frame.payload = [] ∨
            (answers state.calls).complete frame.payload = true) ∧
            Written answers (state.wrote frame).calls frames := by
        by_cases empty : frame.payload = [] <;>
          simp [Written, RemoteState.wrote, empty]
      rw [List.map_cons, List.cons_append, step, written]
      by_cases done : frame.payload = [] ∨
          (answers state.calls).complete frame.payload = true
      · rw [if_pos done]
        refine ⟨fun all => ?_, fun missing => ?_⟩
        · obtain ⟨calls, onward⟩ := later.1 all.2
          refine ⟨calls, ?_⟩
          rw [onward, append_received_cons]
          rfl
        · exact later.2 fun rest => missing ⟨done, rest⟩
      · rw [if_neg done]
        exact ⟨fun all => absurd all.1 done, fun _ => rfl⟩

end Reader

/-- The output that the messages begin with, up to their end or to the first
message that is no allowed output. -/
structure OutputFront (tty : Bool) (messages : List Message)
    (frames : List Frame) (rest : List Message) : Prop where
  split : messages = frames.map Frame.message ++ rest
  allowed : ∀ frame ∈ frames, Allowed tty frame
  noOutput : NoOutput tty rest

theorem exists_outputFront (tty : Bool) (messages : List Message) :
    ∃ frames rest, OutputFront tty messages frames rest := by
  induction messages with
  | nil => exact ⟨[], [], rfl, nofun, nofun⟩
  | cons message messages induction =>
      by_cases output : ∃ frame, Allowed tty frame ∧ message = frame.message
      · obtain ⟨frame, allowed, rfl⟩ := output
        obtain ⟨frames, rest, rfl, all, none⟩ := induction
        exact ⟨frame :: frames, rest, rfl, List.forall_mem_cons.mpr
          ⟨allowed, all⟩, none⟩
      · refine ⟨[], message :: messages, rfl, nofun, ?_⟩
        intro frame allowed same
        exact output ⟨frame, allowed, Option.some.inj same⟩

theorem noOutput_text (tty : Bool) (raw : Bytes) :
    NoOutput tty [⟨.text, raw⟩] := by
  intro frame _ isFrame
  cases isFrame

/-- The result and the output, from the output that the messages begin
with. -/
theorem readRemoteConsole_front {tty : Bool} {answers : Nat → WriteAnswer}
    {ending : ReadError} {messages rest : List Message} {frames : List Frame}
    (front : OutputFront tty messages frames rest) :
    (Written answers 0 frames →
      (readRemoteConsole tty answers ending messages .initial).2 =
        received frames) ∧
    ∀ code,
      (readRemoteConsole tty answers ending messages .initial).1 = .ok code ↔
        Written answers 0 frames ∧
          (∃ raw, rest = [⟨.text, raw⟩] ∧
            parseServerText raw = .ok (.exit code)) ∧
          ending = .closed statusNormalClosure := by
  obtain ⟨rfl, allowed, none⟩ := front
  obtain ⟨written, unwritten⟩ := @readRemoteConsole_frames tty answers ending
    frames allowed rest .initial rfl
  refine ⟨fun all => ?_, fun code => ?_⟩
  · obtain ⟨calls, onward⟩ := written all
    rw [onward, (readRemoteConsole_noOutput rfl none).1]
    simp [Output.append, RemoteState.initial]
  · by_cases all : Written answers 0 frames
    · obtain ⟨calls, onward⟩ := written all
      rw [onward, (readRemoteConsole_noOutput rfl none).2 code]
      exact ⟨fun success => ⟨all, success⟩, fun success => success.2⟩
    · rw [unwritten all]
      refine ⟨fun success => ?_, fun success => absurd success.1 all⟩
      cases success

/-- The client reports status `code` exactly if the server sent allowed
output, one exit with that status and nothing more, closed normally, and all
local writes were complete.  As long as they are, what has been written is the
output before the first other message, however the console ends. -/
theorem client_never_infers_success (tty : Bool)
    (answers : Nat → WriteAnswer) (ending : ReadError)
    (messages : List Message) :
    (∀ code,
      (readRemoteConsole tty answers ending messages .initial).1 = .ok code ↔
        ∃ frames : List Frame, ∃ raw,
          messages = frames.map Frame.message ++ [⟨.text, raw⟩] ∧
          (∀ frame ∈ frames, Allowed tty frame) ∧
          parseServerText raw = .ok (.exit code) ∧
          ending = .closed statusNormalClosure ∧
          Written answers 0 frames) ∧
    (∃ frames rest, OutputFront tty messages frames rest) ∧
    ∀ frames rest, OutputFront tty messages frames rest →
      Written answers 0 frames →
        (readRemoteConsole tty answers ending messages .initial).2 =
          received frames := by
  refine ⟨fun code => ⟨fun success => ?_, ?_⟩,
    exists_outputFront tty messages, fun frames rest front =>
      (readRemoteConsole_front front).1⟩
  · obtain ⟨frames, rest, front⟩ := exists_outputFront tty messages
    obtain ⟨written, ⟨raw, rfl, isExit⟩, normal⟩ :=
      ((readRemoteConsole_front front).2 code).mp success
    exact ⟨frames, raw, front.split, front.allowed, isExit, normal, written⟩
  · rintro ⟨frames, raw, split, allowed, isExit, normal, written⟩
    have front : OutputFront tty messages frames [⟨.text, raw⟩] :=
      ⟨split, allowed, noOutput_text tty raw⟩
    exact ((readRemoteConsole_front front).2 code).mpr
      ⟨written, ⟨raw, rfl, isExit⟩, normal⟩

def exitUsage : Nat := 2

/-- What the client finds out about its own terminal. -/
structure Terminal where
  isTerminal : Bool
  size : Option (UInt16 × UInt16)

/-- The start that `runConsole` makes of its arguments: an interactive shell,
or the command after two dashes. -/
def chooseStart (arguments : List Bytes) (terminal : Terminal) :
    Except Nat Start :=
  match arguments with
  | [] =>
      if terminal.isTerminal then
        match terminal.size with
        | some (rows, cols) =>
            .ok ⟨[Text.utf8 "/bin/bash"], true, rows, cols⟩
        | none => .error 1
      else .error exitUsage
  | dashes :: command =>
      if dashes ≠ Text.utf8 "--" ∨ command = [] then .error exitUsage
      else .ok ⟨command, false, 0, 0⟩

/-- `runConsole` up to the connection: an exit code, or the start and its
message. -/
def runConsole (args : List Bytes) (terminal : Terminal) :
    Except Nat (Start × Bytes) :=
  match args with
  | [] => .error exitUsage
  | instanceName :: arguments =>
      if instanceName = [] then .error exitUsage
      else
        match chooseStart arguments terminal with
        | .error code => .error code
        | .ok start =>
            match parseClientText (marshal start.tree) with
            | .error _ => .error exitUsage
            | .ok _ => .ok (start, marshal start.tree)

end Nephos.Console
