import Mathlib.Logic.Function.Basic
import Nephos.Console.Input
import Nephos.Console.Server
import Nephos.Library.Trace
import Nephos.Library.Transition

/-!
# The bridge between a session and its client

`bridgeConsole` runs five goroutines: one pump for each output stream, one that
waits for the command, one that reads the client's messages, and the loop that
selects between their results.  The first three share a channel with eight
places; a send into it is given up when the context is cancelled.
-/

namespace Nephos.Console

open Stream Transition

inductive BridgeFailure where
  | input (error : InputError)
  /-- "console input disconnected: " and the error -/
  | disconnected
  /-- "read console output: " and the error -/
  | output (error : Stream.Error)
  /-- "wait for console exit: " and the error -/
  | wait
  /-- "console returned an invalid exit status" -/
  | invalidStatus
  /-- "TTY emitted a separate stderr stream" -/
  | separateStderr
  | protocol (error : ProtocolError)
  /-- "write console message: " and the error -/
  | write
  /-- "close console session: " and the error -/
  | closeSession
  /-- "close console connection: " and the error -/
  | closeConnection
  /-- The error of the context. -/
  | cancelled
deriving DecidableEq, Repr

/-- `consoleEvent`: one of its fields is set. -/
inductive ConsoleEvent where
  | data (channel : Channel) (chunk : Bytes)
  | exit (code : Int)
  | failure (failure : BridgeFailure)
deriving DecidableEq, Repr

inductive PumpPhase where
  /-- With a terminal there is no pump for the second stream. -/
  | off
  | reading
  /-- In `sendConsoleEvent` with a chunk, and what `Read` returned with it. -/
  | sending (chunk : Bytes) (error : Option Stream.Error)
  /-- In `sendConsoleEvent` with an error. -/
  | failing (failure : BridgeFailure)
  | done

structure Pump where
  source : Source
  phase : PumpPhase

/-- Where a pump goes on when the data of a call has been handled. -/
def PumpPhase.after : Option Stream.Error → PumpPhase
  | none => .reading
  | some .eof => .done
  | some error => .failing (.output error)

def PumpPhase.afterRead (outcome : Stream.Outcome) : PumpPhase :=
  if outcome.data = [] then .after outcome.error
  else .sending outcome.data outcome.error

/-- `output.Done` has been called, or was never due. -/
def PumpPhase.Finished (phase : PumpPhase) : Prop :=
  phase = .off ∨ phase = .done

inductive WaiterPhase where
  | waiting
  /-- In `session.Wait`, called with a context that was cancelled or not. -/
  | calling (cancelled : Bool)
  | sending (event : ConsoleEvent)
  | done

inductive InputPhase where
  | reading (state : InputState)
  /-- The error is in `inputDone`. -/
  | finished (failure : BridgeFailure)
  | taken

inductive LoopPhase where
  | selecting
  | writing (raw : Bytes)
  | closingSession (code : Int)
  | writingExit (code : Int)
  | closingConnection
  /-- In `writeConsoleError`, before the text and before the close. -/
  | reporting (failure : BridgeFailure)
  | refusing
  /-- The context is cancelled, and `workers.Wait` waits for the others. -/
  | returned

/-- What others can see of a bridge, in order. -/
inductive BridgeAction where
  /-- `session.Wait` has returned a status. -/
  | waited (code : Int)
  /-- `session.Close` has returned without an error. -/
  | closedSession
  | sent (message : Message)
  | closedConnection (status : Nat)

structure Bridge where
  cancelled : Bool
  pumps : Channel → Pump
  events : List ConsoleEvent
  waiter : WaiterPhase
  input : InputPhase
  loop : LoopPhase
  log : List BridgeAction

def eventsCapacity : Nat := 8

def statusPolicyViolation : Nat := 1008

/-- The state in which the goroutines start. -/
def Bridge.initial (tty : Bool) (sources : Channel → Source) : Bridge where
  cancelled := false
  pumps
    | .stdout => ⟨sources .stdout, .reading⟩
    | .stderr => ⟨sources .stderr, if tty then .off else .reading⟩
  events := []
  waiter := .waiting
  input := .reading .initial
  loop := .selecting
  log := []

inductive BridgeEvent where
  | cancel
  | pump (channel : Channel)
  | callWait
  | waitReturns (code : Int)
  | waitFails
  | sendOutcome
  | message (message : Message) (answers : SessionAnswers)
  | disconnect
  /-- The end of the context reaches the reader of the input. -/
  | interrupt
  /-- A step of the loop, and whether the call that it makes succeeds. -/
  | loop (succeeds : Bool)

/-- `pumpConsoleOutput`, with what it puts into the channel. -/
inductive PumpStep (channel : Channel) (cancelled : Bool) :
    Pump → List ConsoleEvent → Pump → Prop where
  | read {source : Source} :
      PumpStep channel cancelled ⟨source, .reading⟩ []
        ⟨(source.read (maxDataBytes - 1)).rest,
          .afterRead (source.read (maxDataBytes - 1))⟩
  /-- The end of the context closes the session's pipes. -/
  | interrupted {source : Source} (error : Stream.Error) : cancelled = true →
      PumpStep channel cancelled ⟨source, .reading⟩ []
        ⟨source, .failing (.output error)⟩
  | send {source : Source} {chunk : Bytes} {error : Option Stream.Error} :
      PumpStep channel cancelled ⟨source, .sending chunk error⟩
        [.data channel chunk] ⟨source, .after error⟩
  | drop {source : Source} {chunk : Bytes} {error : Option Stream.Error} :
      cancelled = true →
      PumpStep channel cancelled ⟨source, .sending chunk error⟩ []
        ⟨source, .after error⟩
  | sendFailure {source : Source} {failure : BridgeFailure} :
      PumpStep channel cancelled ⟨source, .failing failure⟩
        [.failure failure] ⟨source, .done⟩
  | dropFailure {source : Source} {failure : BridgeFailure} :
      cancelled = true →
      PumpStep channel cancelled ⟨source, .failing failure⟩ [] ⟨source, .done⟩

/-- What the waiter makes of a status. -/
def statusEvent (code : Int) : ConsoleEvent :=
  if code < 0 ∨ 255 < code then .failure .invalidStatus else .exit code

/-- The goroutine that waits for the command.  `Wait` returns a status only
if its context was not cancelled at the call and the output did not fail. -/
inductive WaiterStep (state : Bridge) :
    BridgeEvent → WaiterPhase → List ConsoleEvent → List BridgeAction →
      WaiterPhase → Prop where
  | call : (∀ channel, (state.pumps channel).phase.Finished) →
      WaiterStep state .callWait .waiting [] [] (.calling state.cancelled)
  | returns {code : Int} :
      (∀ channel, (state.pumps channel).phase ≠ .off →
        (state.pumps channel).source.ending = .eof) →
      WaiterStep state (.waitReturns code) (.calling false) [] [.waited code]
        (.sending (statusEvent code))
  | fails {cancelled : Bool} :
      WaiterStep state .waitFails (.calling cancelled) [] []
        (.sending (.failure .wait))
  | send {event : ConsoleEvent} :
      WaiterStep state .sendOutcome (.sending event) [event] [] .done
  | drop {event : ConsoleEvent} : state.cancelled = true →
      WaiterStep state .sendOutcome (.sending event) [] [] .done

/-- The goroutine that reads the client's messages.  When reading fails, the
connection may have been closed with a status that says why. -/
inductive InputStep (tty cancelled : Bool) :
    BridgeEvent → InputPhase → List BridgeAction → InputPhase → Prop where
  | accepted {message : Message} {answers : SessionAnswers}
      {state after : InputState} :
      readMessage tty answers message state = (none, after) →
      InputStep tty cancelled (.message message answers) (.reading state) []
        (.reading after)
  | refused {message : Message} {answers : SessionAnswers}
      {state after : InputState} {error : InputError} :
      readMessage tty answers message state = (some error, after) →
      InputStep tty cancelled (.message message answers) (.reading state) []
        (.finished (.input error))
  | disconnected {state : InputState} (closing : List BridgeAction) :
      (closing = [] ∨ ∃ status, closing = [.closedConnection status]) →
      InputStep tty cancelled .disconnect (.reading state) closing
        (.finished .disconnected)
  /-- The end of the context ends `Read` and the calls of the session. -/
  | interrupted {state : InputState} {failure : BridgeFailure} :
      cancelled = true →
      failure ∈ [.disconnected, .input .write, .input .close,
        .input .resize] →
      InputStep tty cancelled .interrupt (.reading state) []
        (.finished failure)

/-- A call that may have had its effect although it failed. -/
def attempt (delivered : Bool) (action : BridgeAction) : List BridgeAction :=
  if delivered then [action] else []

def exitMessage (code : Int) : Message := ⟨.text, marshal (exitTree code.toNat)⟩

def Bridge.record (state : Bridge) (actions : List BridgeAction)
    (loop : LoopPhase) : Bridge :=
  { state with log := state.log ++ actions, loop }

def Bridge.take (state : Bridge) (events : List ConsoleEvent)
    (loop : LoopPhase) : Bridge :=
  { state with events, loop }

/-- The loop and the deferred function of `bridgeConsole`.  `text` gives the
texts of errors. -/
inductive LoopStep (tty : Bool) (text : BridgeFailure → Bytes)
    (state : Bridge) : Bool → Bridge → Prop where
  | takeInput {failure : BridgeFailure} : state.loop = .selecting →
      state.input = .finished failure →
      LoopStep tty text state true
        { state with input := .taken, loop := .reporting failure }
  | takeDone : state.loop = .selecting → state.cancelled = true →
      LoopStep tty text state true
        { state with loop := .reporting .cancelled }
  | takeFailure {failure : BridgeFailure} {rest : List ConsoleEvent} :
      state.loop = .selecting → state.events = .failure failure :: rest →
      LoopStep tty text state true (state.take rest (.reporting failure))
  | takeExit {code : Int} {rest : List ConsoleEvent} :
      state.loop = .selecting → state.events = .exit code :: rest →
      LoopStep tty text state true (state.take rest (.closingSession code))
  | takeData {channel : Channel} {chunk raw : Bytes}
      {rest : List ConsoleEvent} :
      state.loop = .selecting → state.events = .data channel chunk :: rest →
      ¬ (tty = true ∧ channel = .stderr) →
      outputFrame channel.byte chunk = .ok raw →
      LoopStep tty text state true (state.take rest (.writing raw))
  | takeSeparate {chunk : Bytes} {rest : List ConsoleEvent} :
      state.loop = .selecting → state.events = .data .stderr chunk :: rest →
      tty = true →
      LoopStep tty text state true
        (state.take rest (.reporting .separateStderr))
  | takeOversized {channel : Channel} {chunk : Bytes} {error : ProtocolError}
      {rest : List ConsoleEvent} :
      state.loop = .selecting → state.events = .data channel chunk :: rest →
      ¬ (tty = true ∧ channel = .stderr) →
      outputFrame channel.byte chunk = .error error →
      LoopStep tty text state true
        (state.take rest (.reporting (.protocol error)))
  | write {raw : Bytes} : state.loop = .writing raw →
      LoopStep tty text state true
        (state.record [.sent ⟨.binary, raw⟩] .selecting)
  | writeFails {raw : Bytes} (delivered : Bool) : state.loop = .writing raw →
      LoopStep tty text state false
        (state.record (attempt delivered (.sent ⟨.binary, raw⟩))
          (.reporting .write))
  | closeSession {code : Int} : state.loop = .closingSession code →
      LoopStep tty text state true
        (state.record [.closedSession] (.writingExit code))
  | closeSessionFails {code : Int} : state.loop = .closingSession code →
      LoopStep tty text state false
        (state.record [] (.reporting .closeSession))
  | writeExit {code : Int} : state.loop = .writingExit code →
      LoopStep tty text state true
        (state.record [.sent (exitMessage code)] .closingConnection)
  | writeExitFails {code : Int} (delivered : Bool) :
      state.loop = .writingExit code →
      LoopStep tty text state false
        (state.record (attempt delivered (.sent (exitMessage code)))
          (.reporting .write))
  /-- The deferred function cancels the context last. -/
  | closeConnection : state.loop = .closingConnection →
      LoopStep tty text state true
        { state.record [.closedConnection statusNormalClosure] .returned with
          cancelled := true }
  | closeConnectionFails (delivered : Bool) :
      state.loop = .closingConnection →
      LoopStep tty text state false
        (state.record
          (attempt delivered (.closedConnection statusNormalClosure))
          (.reporting .closeConnection))
  | report {failure : BridgeFailure} (delivered : Bool) :
      state.loop = .reporting failure →
      LoopStep tty text state delivered
        (state.record (attempt delivered
          (.sent ⟨.text, writeConsoleError (text failure)⟩)) .refusing)
  | refuse (delivered : Bool) : state.loop = .refusing →
      LoopStep tty text state delivered
        { state.record (attempt delivered
            (.closedConnection statusPolicyViolation)) .returned with
          cancelled := true }

inductive BridgeStep (tty : Bool) (text : BridgeFailure → Bytes)
    (state : Bridge) : BridgeEvent → Bridge → Prop where
  | cancel : BridgeStep tty text state .cancel { state with cancelled := true }
  | pump {channel : Channel} {emitted : List ConsoleEvent} {after : Pump} :
      PumpStep channel state.cancelled (state.pumps channel) emitted after →
      (state.events ++ emitted).length ≤ eventsCapacity →
      BridgeStep tty text state (.pump channel)
        { state with
          pumps := Function.update state.pumps channel after
          events := state.events ++ emitted }
  | waiter {event : BridgeEvent} {emitted : List ConsoleEvent}
      {actions : List BridgeAction} {after : WaiterPhase} :
      WaiterStep state event state.waiter emitted actions after →
      (state.events ++ emitted).length ≤ eventsCapacity →
      BridgeStep tty text state event
        { state with
          waiter := after
          events := state.events ++ emitted
          log := state.log ++ actions }
  | input {event : BridgeEvent} {actions : List BridgeAction}
      {after : InputPhase} :
      InputStep tty state.cancelled event state.input actions after →
      BridgeStep tty text state event
        { state with input := after, log := state.log ++ actions }
  | loop {succeeds : Bool} {next : Bridge} :
      LoopStep tty text state succeeds next →
      BridgeStep tty text state (.loop succeeds) next

def bridgeSystem (tty : Bool) (text : BridgeFailure → Bytes)
    (sources : Channel → Source) : System Bridge BridgeEvent where
  Initial state := state = .initial tty sources
  Step := BridgeStep tty text

def sentMessages (log : List BridgeAction) : List Message :=
  log.filterMap fun
    | .sent message => some message
    | _ => none

/-- What a client can read from a connection that delivers messages in order:
all that was sent before a close, and its status, or a part of what was sent,
and then an error. -/
inductive ClientView (log : List BridgeAction) :
    List Message → ReadError → Prop where
  | closed {before after : List BridgeAction} {status : Nat} :
      log = before ++ .closedConnection status :: after →
      ClientView log (sentMessages before) (.closed status)
  | failed {messages : List Message} :
      messages.IsPrefix (sentMessages log) →
      ClientView log messages .failed

end Nephos.Console
