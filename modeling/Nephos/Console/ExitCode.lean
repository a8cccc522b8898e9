import Nephos.Console.Termination

/-!
# When the exit code reaches the client

The loop selects between the end of the input and the events of the output.
An error of the input that is there before the exit has been taken may be
taken first, and then the client gets the error.  Without such an error the
client gets the exit code, in every schedule.
-/

namespace Nephos.Console

open Stream Transition

/-- A message that is valid for the mode, after what has been read. -/
def ValidInput (tty : Bool) (state : InputState) (message : Message) : Prop :=
  (∃ data, IsInput message data ∧ state.eof = false) ∨
    (IsControl message .stdinEOF ∧ tty = false ∧ state.eof = false) ∨
    ∃ size, IsControl message (.resize size) ∧ tty = true

/-- The command ends with the code, the calls of the loop succeed, and the
client stays connected and sends valid messages. -/
def Orderly (tty : Bool) (code : Int) (state : Bridge) : BridgeEvent → Prop
  | .cancel => False
  | .waitFails => False
  | .waitReturns other => other = code
  | .loop succeeds => succeeds = true
  | .disconnect => state.loop = .closingConnection ∨ state.loop = .returned
  | .message message _ => ∀ input, state.input = .reading input →
      ValidInput tty input message
  | _ => True

/-- Until the loop has taken the exit, the session takes what the client
sends. -/
def Answered (state : Bridge) : BridgeEvent → Prop
  | .message _ answers => Streaming state → answers.Succeed
  | _ => True

def orderlySystem (tty : Bool) (text : BridgeFailure → Bytes)
    (sources : Channel → Source) (code : Int) : System Bridge BridgeEvent :=
  (bridgeSystem tty text sources).restrict fun state event _ =>
    Orderly tty code state event

def answeredSystem (tty : Bool) (text : BridgeFailure → Bytes)
    (sources : Channel → Source) (code : Int) : System Bridge BridgeEvent :=
  (orderlySystem tty text sources code).restrict fun state event _ =>
    Answered state event

/-- Nothing but output has been sent. -/
def OnlyOutput (log : List BridgeAction) : Prop :=
  ∃ frames : List Frame, sentMessages log = frames.map Frame.message

/-- Output and then the exit have been sent. -/
def OutputThenExit (code : Int) (log : List BridgeAction) : Prop :=
  ∃ frames : List Frame,
    sentMessages log = frames.map Frame.message ++ [exitMessage code]

/-- What has been sent, by the phase of the loop. -/
def Reported (code : Int) (log : List BridgeAction) : LoopPhase → Prop
  | .selecting => OnlyOutput log
  | .writing raw => OnlyOutput log ∧ ∃ frame : Frame, raw = frame.message.raw
  | .closingSession reported => reported = code ∧ OnlyOutput log
  | .writingExit reported => reported = code ∧ OnlyOutput log
  | .closingConnection => OutputThenExit code log
  | .returned => OutputThenExit code log
  | .reporting _ => False
  | .refusing => False

/-- A pump that has met no error. -/
structure Pump.Smooth (pump : Pump) : Prop where
  ending : pump.source.ending = .eof
  quiet : ∀ failure, pump.phase ≠ .failing failure
  pending : ∀ chunk error, pump.phase = .sending chunk error →
    error = none ∨ error = some .eof

/-- The bridge while output is sent. -/
structure Steady (code : Int) (state : Bridge) : Prop where
  live : state.cancelled = false
  pumps : ∀ channel, (state.pumps channel).Smooth
  calling : ∀ cancelled, state.waiter = .calling cancelled → cancelled = false
  outcome : ∀ event, state.waiter = .sending event → event = .exit code
  events : ∀ event ∈ state.events,
    (∃ channel chunk, event = .data channel chunk) ∨ event = .exit code
  owed : state.waiter = .done → .exit code ∈ state.events
  input : ∃ input, state.input = .reading input

structure Unhindered (code : Int) (state : Bridge) : Prop where
  steady : Streaming state → Steady code state
  reported : Reported code state.log state.loop

section Steps

variable {tty : Bool} {text : BridgeFailure → Bytes}
  {sources : Channel → Source} {state next : Bridge} {code : Int}

theorem Pump.smooth_after {source : Source} {error : Option Stream.Error}
    (ending : source.ending = .eof) (clean : error = none ∨ error = some .eof) :
    Pump.Smooth ⟨source, .after error⟩ := by
  rcases clean with rfl | rfl <;> exact ⟨ending, nofun, nofun⟩

theorem PumpStep.smooth {channel : Channel} {pump after : Pump}
    {emitted : List ConsoleEvent}
    (step : PumpStep channel false pump emitted after)
    (smooth : pump.Smooth) : after.Smooth := by
  cases step with
  | @read source =>
      have reads := source.read_reads (maxDataBytes - 1)
      have ending := reads.ending.trans smooth.ending
      have clean : (source.read (maxDataBytes - 1)).error = none ∨
          (source.read (maxDataBytes - 1)).error = some .eof := by
        cases reported : (source.read (maxDataBytes - 1)).error with
        | none => exact .inl rfl
        | some error =>
            rw [(reads.last error reported).1]
            exact .inr (congrArg some smooth.ending)
      unfold PumpPhase.afterRead
      split
      · exact Pump.smooth_after ending clean
      · refine ⟨ending, nofun, ?_⟩
        rintro chunk error ⟨⟩
        exact clean
  | send => exact Pump.smooth_after smooth.ending (smooth.pending _ _ rfl)
  | sendFailure => exact absurd rfl (smooth.quiet _)
  | interrupted _ stopped | drop stopped | dropFailure stopped => cases stopped

theorem PumpStep.emits_data {channel : Channel} {pump after : Pump}
    {cancelled : Bool} {emitted : List ConsoleEvent}
    (step : PumpStep channel cancelled pump emitted after)
    (smooth : pump.Smooth) :
    ∀ event ∈ emitted, ∃ chunk, event = .data channel chunk := by
  intro event member
  cases step with
  | read | interrupted | drop | dropFailure => cases member
  | send =>
      cases List.mem_singleton.mp member
      exact ⟨_, rfl⟩
  | sendFailure => exact absurd rfl (smooth.quiet _)

theorem steady_pump {channel : Channel} {emitted : List ConsoleEvent}
    {after : Pump} (steady : Steady code state)
    (step : PumpStep channel state.cancelled (state.pumps channel) emitted
      after) :
    Steady code
      { state with
        pumps := Function.update state.pumps channel after
        events := state.events ++ emitted } := by
  refine ⟨steady.live, ?_, steady.calling, steady.outcome, ?_, ?_,
    steady.input⟩
  · intro other
    by_cases same : other = channel
    · subst same
      rw [steady.live] at step
      dsimp only
      rw [Function.update_self]
      exact step.smooth (steady.pumps other)
    · dsimp only
      rw [Function.update_of_ne same]
      exact steady.pumps other
  · intro event member
    rcases List.mem_append.mp member with old | new
    · exact steady.events event old
    · obtain ⟨chunk, rfl⟩ := step.emits_data (steady.pumps channel) event new
      exact .inl ⟨channel, chunk, rfl⟩
  · exact fun done => List.mem_append_left _ (steady.owed done)

theorem steady_waiter {event : BridgeEvent} {emitted : List ConsoleEvent}
    {actions : List BridgeAction} {after : WaiterPhase}
    (steady : Steady code state) (lower : 0 ≤ code) (upper : code ≤ 255)
    (orderly : Orderly tty code state event)
    (step : WaiterStep state event state.waiter emitted actions after) :
    Steady code
      { state with
        waiter := after
        events := state.events ++ emitted
        log := state.log ++ actions } := by
  generalize phase : state.waiter = waiter at step
  have same : ∀ event ∈ state.events ++ [],
      (∃ channel chunk, event = .data channel chunk) ∨ event = .exit code := by
    rw [List.append_nil]
    exact steady.events
  cases step with
  | call finished =>
      refine ⟨steady.live, steady.pumps, ?_, nofun, same, nofun,
        steady.input⟩
      rintro cancelled ⟨⟩
      exact steady.live
  | returns =>
      cases orderly
      refine ⟨steady.live, steady.pumps, nofun, ?_, same, nofun,
        steady.input⟩
      rintro event ⟨⟩
      exact if_neg (by omega)
  | fails => exact orderly.elim
  | send =>
      cases steady.outcome _ phase
      refine ⟨steady.live, steady.pumps, nofun, nofun, ?_, fun _ =>
        List.mem_append_right _ (List.mem_singleton_self _), steady.input⟩
      intro event member
      rcases List.mem_append.mp member with old | new
      · exact steady.events event old
      · exact .inr (List.mem_singleton.mp new)
  | drop cancelled => cases cancelled.symm.trans steady.live

/-- While output is sent, a valid message that the session takes leaves the
reader reading. -/
theorem steady_input {event : BridgeEvent} {actions : List BridgeAction}
    {after : InputPhase} (streaming : Streaming state)
    (steady : Steady code state) (orderly : Orderly tty code state event)
    (answered : Answered state event)
    (step : InputStep tty state.cancelled event state.input actions after) :
    Steady code
      { state with input := after, log := state.log ++ actions } := by
  refine ⟨steady.live, steady.pumps, steady.calling, steady.outcome,
    steady.events, steady.owed, ?_⟩
  generalize phase : state.input = input at step
  cases step with
  | accepted => exact ⟨_, rfl⟩
  | @refused message answers input after error refused =>
      have succeed : answers.Succeed := answered streaming
      rcases orderly input phase with
        ⟨data, isInput, still⟩ | ⟨isEOF, rfl, still⟩ | ⟨size, isResize, rfl⟩
      · obtain ⟨log, accepted, -⟩ :=
          @readMessage_input tty answers succeed _ _ _ isInput still
        cases refused.symm.trans accepted
      · cases refused.symm.trans (readMessage_eof succeed isEOF still)
      · cases refused.symm.trans (readMessage_resize succeed isResize)
  | interrupted stopped => cases stopped.symm.trans steady.live
  | disconnected =>
      rcases orderly with closing | returned
      · rcases streaming with same | ⟨_, same⟩ <;>
          cases closing.symm.trans same
      · rcases streaming with same | ⟨_, same⟩ <;>
          cases returned.symm.trans same

theorem Reported.grow {log actions : List BridgeAction} {loop : LoopPhase}
    (reported : Reported code log loop)
    (silent : sentMessages actions = []) :
    Reported code (log ++ actions) loop := by
  have same : sentMessages (log ++ actions) = sentMessages log := by
    rw [sentMessages_append, silent, List.append_nil]
  cases loop <;> unfold Reported OnlyOutput OutputThenExit at reported ⊢ <;>
    rw [same] at * <;> exact reported

theorem OnlyOutput.snoc {log : List BridgeAction} (only : OnlyOutput log)
    (frame : Frame) : OnlyOutput (log ++ [.sent frame.message]) := by
  obtain ⟨frames, sent⟩ := only
  refine ⟨frames ++ [frame], ?_⟩
  rw [sentMessages_append, sent, List.map_append]
  rfl

theorem outputFrame_bounded {channel : Channel} {chunk : Bytes}
    (bounded : chunk.length < maxDataBytes) :
    outputFrame channel.byte chunk = .ok (channel.byte :: chunk) := by
  have known : ¬ (channel.byte ≠ 1 ∧ channel.byte ≠ 2) := by
    cases channel <;> decide
  rw [outputFrame, if_neg known, frame, if_neg (by omega)]

theorem unhindered_loop (invariant : BridgeInvariant tty sources state)
    (unhindered : Unhindered code state)
    (step : LoopStep tty text state true next) : Unhindered code next := by
  have reported := unhindered.reported
  have leaves : next.loop ≠ .selecting → (∀ raw, next.loop ≠ .writing raw) →
      Streaming next → Steady code next := by
    rintro selecting writing (same | ⟨raw, same⟩)
    · exact absurd same selecting
    · exact absurd same (writing raw)
  cases step with
  | takeInput selecting finished =>
      obtain ⟨input, reading⟩ := (unhindered.steady (.inl selecting)).input
      cases finished.symm.trans reading
  | takeDone selecting cancelled =>
      have live := (unhindered.steady (.inl selecting)).live
      cases cancelled.symm.trans live
  | takeFailure selecting events =>
      rcases (unhindered.steady (.inl selecting)).events _
        (events ▸ List.mem_cons_self) with ⟨_, _, same⟩ | same <;> cases same
  | takeExit selecting events =>
      rcases (unhindered.steady (.inl selecting)).events _
        (events ▸ List.mem_cons_self) with ⟨_, _, same⟩ | same
      · cases same
      · cases same
        rw [selecting] at reported
        exact ⟨leaves nofun nofun, rfl, reported⟩
  | takeData selecting events _ framed =>
      have steady := unhindered.steady (.inl selecting)
      rw [selecting] at reported
      obtain ⟨bounded, -⟩ :=
        invariant.carried _ _ (events ▸ List.mem_cons_self)
      refine ⟨fun _ => ⟨steady.live, steady.pumps, steady.calling,
        steady.outcome, ?_, ?_, steady.input⟩, reported, ?_⟩
      · intro event member
        exact steady.events event (events ▸ List.mem_cons_of_mem _ member)
      · intro done
        have member := steady.owed done
        rw [events] at member
        exact (List.mem_cons.mp member).resolve_left nofun
      · exact ⟨⟨_, _, Nat.lt_trans bounded (by decide)⟩,
          outputFrame_ok framed⟩
  | takeSeparate _ events terminal =>
      obtain ⟨-, single⟩ :=
        invariant.carried _ _ (events ▸ List.mem_cons_self)
      cases single terminal
  | takeOversized _ events _ refused =>
      obtain ⟨bounded, -⟩ :=
        invariant.carried _ _ (events ▸ List.mem_cons_self)
      cases refused.symm.trans (outputFrame_bounded bounded)
  | write writing =>
      have steady := unhindered.steady (.inr ⟨_, writing⟩)
      rw [writing] at reported
      obtain ⟨only, frame, rfl⟩ := reported
      exact ⟨fun _ => ⟨steady.live, steady.pumps, steady.calling,
        steady.outcome, steady.events, steady.owed, steady.input⟩,
        only.snoc frame⟩
  | closeSession closing =>
      rw [closing] at reported
      exact ⟨leaves nofun nofun, reported.grow rfl⟩
  | writeExit writing =>
      rw [writing] at reported
      obtain ⟨rfl, frames, sent⟩ := reported
      refine ⟨leaves nofun nofun, frames, ?_⟩
      show sentMessages (state.log ++ _) = _
      rw [sentMessages_append, sent]
      rfl
  | closeConnection closing =>
      rw [closing] at reported
      exact ⟨leaves nofun nofun, reported.grow rfl⟩
  | report _ reporting =>
      rw [reporting] at reported
      exact reported.elim
  | refuse _ refusing =>
      rw [refusing] at reported
      exact reported.elim

theorem unhindered_step {event : BridgeEvent} (lower : 0 ≤ code)
    (upper : code ≤ 255) (invariant : BridgeInvariant tty sources state)
    (unhindered : Unhindered code state)
    (step : (answeredSystem tty text sources code).Step state event next) :
    Unhindered code next := by
  obtain ⟨⟨step, orderly⟩, answered⟩ := step
  cases step with
  | cancel => exact orderly.elim
  | pump moved _ =>
      exact ⟨fun streaming => steady_pump (unhindered.steady streaming) moved,
        unhindered.reported⟩
  | @waiter _ _ actions _ moved _ =>
      have silent : sentMessages actions = [] := by
        generalize state.waiter = phase at moved
        cases moved <;> rfl
      exact ⟨fun streaming => steady_waiter (unhindered.steady streaming)
        lower upper orderly moved, unhindered.reported.grow silent⟩
  | @input _ actions _ moved =>
      exact ⟨fun streaming => steady_input streaming
        (unhindered.steady streaming) orderly answered moved,
        unhindered.reported.grow moved.silent⟩
  | loop moved =>
      cases orderly
      exact unhindered_loop invariant unhindered moved

theorem unhindered_initial (clean : ∀ channel, (sources channel).ending = .eof) :
    Unhindered code (.initial tty sources) := by
  refine ⟨fun _ => ⟨rfl, ?_, nofun, nofun, nofun, nofun, _, rfl⟩, [], rfl⟩
  intro channel
  cases channel with
  | stdout => exact ⟨clean .stdout, nofun, nofun⟩
  | stderr => cases tty <;> exact ⟨clean .stderr, nofun, nofun⟩

/-- Until the bridge has returned there is a step of the server, and it needs
nothing from the client. -/
theorem exists_orderlyStep (unhindered : Unhindered code state)
    (running : state.loop ≠ .returned) :
    ∃ event next, event.ofServer = true ∧
      (answeredSystem tty text sources code).Step state event next := by
  have moved : ∀ {next}, LoopStep tty text state true next →
      ∃ event next, event.ofServer = true ∧
        (answeredSystem tty text sources code).Step state event next :=
    fun step => ⟨_, _, rfl, ⟨.loop step, rfl⟩, trivial⟩
  have reported := unhindered.reported
  cases phase : state.loop with
  | writing => exact moved (.write phase)
  | closingSession => exact moved (.closeSession phase)
  | writingExit => exact moved (.writeExit phase)
  | closingConnection => exact moved (.closeConnection phase)
  | reporting =>
      rw [phase] at reported
      exact reported.elim
  | refusing =>
      rw [phase] at reported
      exact reported.elim
  | returned => exact absurd phase running
  | selecting =>
      have steady := unhindered.steady (.inl phase)
      cases events : state.events with
      | cons event rest =>
          obtain ⟨next, step⟩ := exists_take phase events
          exact moved step
      | nil =>
          have room : ∀ {emitted : List ConsoleEvent}, emitted.length ≤ 1 →
              (state.events ++ emitted).length ≤ eventsCapacity := by
            intro emitted small
            rw [events]
            exact Nat.le_trans small (by decide)
          by_cases finished : ∀ channel, (state.pumps channel).phase.Finished
          · have waits : ∀ {phase event emitted actions after},
                state.waiter = phase →
                WaiterStep state event phase emitted actions after →
                emitted.length ≤ 1 → event.ofServer = true →
                Orderly tty code state event → Answered state event →
                ∃ event next, event.ofServer = true ∧
                  (answeredSystem tty text sources code).Step state event
                    next := by
              rintro _ event emitted actions after rfl step small server
                orderly answered
              exact ⟨_, _, server, ⟨.waiter step (room small), orderly⟩,
                answered⟩
            cases waiter : state.waiter with
            | waiting =>
                exact waits waiter (.call finished) (Nat.zero_le 1) rfl
                  trivial trivial
            | calling cancelled =>
                cases steady.calling _ waiter
                exact waits waiter (.returns fun channel _ =>
                  (steady.pumps channel).ending) (Nat.zero_le 1) rfl rfl
                  trivial
            | sending event =>
                exact waits waiter .send (Nat.le_refl 1) rfl trivial trivial
            | done =>
                have member := steady.owed waiter
                rw [events] at member
                cases member
          · obtain ⟨channel, active⟩ := not_forall.mp finished
            obtain ⟨⟨emitted, after, step, small⟩, -⟩ :=
              @exists_pumpStep state channel _ active
            exact ⟨_, _, rfl, ⟨.pump step (room small), trivial⟩, trivial⟩

/-- An error of the input that the loop has not passed can be what it takes
next. -/
theorem exists_errorRun {failure : BridgeFailure} (streaming : Streaming state)
    (finished : state.input = .finished failure) :
    ∃ events final, (orderlySystem tty text sources code).Run state events
        final ∧
      .sent ⟨.text, writeConsoleError (text failure)⟩ ∈ final.log := by
  have fromSelecting : ∀ {state : Bridge}, state.loop = .selecting →
      state.input = .finished failure →
      ∃ events final, (orderlySystem tty text sources code).Run state events
          final ∧
        .sent ⟨.text, writeConsoleError (text failure)⟩ ∈ final.log := by
    intro state selecting finished
    exact ⟨_, _, .cons ⟨.loop (.takeInput selecting finished), rfl⟩
      (.single ⟨.loop (.report true rfl), rfl⟩),
      List.mem_append_right _ (List.mem_singleton_self _)⟩
  rcases streaming with selecting | ⟨raw, writing⟩
  · exact fromSelecting selecting finished
  · obtain ⟨events, final, run, sent⟩ :=
      @fromSelecting (state.record [.sent ⟨.binary, raw⟩] .selecting) rfl
        finished
    exact ⟨_, final, .cons ⟨.loop (.write writing), rfl⟩ run, sent⟩

end Steps

theorem answered_run {tty : Bool} {text : BridgeFailure → Bytes}
    {sources : Channel → Source} {code : Int} {state : Bridge}
    {events : List BridgeEvent}
    (clean : ∀ channel, (sources channel).ending = .eof) (lower : 0 ≤ code)
    (upper : code ≤ 255)
    (run : (answeredSystem tty text sources code).Run (.initial tty sources)
      events state) :
    BridgeInvariant tty sources state ∧ Unhindered code state := by
  refine run.invariant
    (fun state => BridgeInvariant tty sources state ∧ Unhindered code state)
    ?_ ⟨invariant_initial, unhindered_initial clean⟩
  rintro state event next ⟨invariant, unhindered⟩ step
  exact ⟨step.1.1.invariant invariant,
    unhindered_step lower upper invariant unhindered step⟩

theorem Reported.output {code : Int} {log : List BridgeAction}
    {loop : LoopPhase} (reported : Reported code log loop) :
    OnlyOutput log ∨ OutputThenExit code log := by
  cases loop with
  | selecting => exact .inl reported
  | writing => exact .inl reported.1
  | closingSession | writingExit => exact .inl reported.2
  | closingConnection | returned => exact .inr reported
  | reporting | refusing => exact reported.elim

/-- If the session takes what the client sends until the loop has taken the
exit, the client gets the output and then the exit code in every schedule, and
no error.  If the input fails before that, there is a schedule in which it
gets the error. -/
theorem exit_code_delivered {tty : Bool} (text : BridgeFailure → Bytes)
    {sources : Channel → Source} {code : Int}
    (clean : ∀ channel, (sources channel).ending = .eof) (lower : 0 ≤ code)
    (upper : code ≤ 255) :
    (∀ events state, (answeredSystem tty text sources code).Run
        (.initial tty sources) events state →
      (OnlyOutput state.log ∨ OutputThenExit code state.log) ∧
      (state.loop = .returned → OutputThenExit code state.log) ∧
      (state.loop ≠ .returned → ∃ event next, event.ofServer = true ∧
        (answeredSystem tty text sources code).Step state event next) ∧
      events.countP BridgeEvent.ofServer ≤
        (Bridge.initial tty sources).work) ∧
    ∀ state failure, (orderlySystem tty text sources code).Reachable state →
      Streaming state → state.input = .finished failure →
      ∃ events final, (orderlySystem tty text sources code).Run state events
          final ∧
        .sent ⟨.text, writeConsoleError (text failure)⟩ ∈ final.log := by
  refine ⟨?_, fun _ _ _ streaming finished =>
    exists_errorRun streaming finished⟩
  intro events state run
  obtain ⟨-, unhindered⟩ := answered_run clean lower upper run
  refine ⟨unhindered.reported.output, ?_, ?_, ?_⟩
  · intro returned
    have reported := unhindered.reported
    rw [returned] at reported
    exact reported
  · exact exists_orderlyStep unhindered
  · have := work_run run.restrict_forget.restrict_forget
    omega

/-- Every write takes all that it is given. -/
def openStdin : SessionAnswers where
  write _ data := ⟨data.length, false⟩
  closes _ := true
  resizes _ := true

theorem openStdin_succeed : openStdin.Succeed where
  write _ _ nonempty :=
    ⟨rfl, List.length_pos_iff.mpr nonempty, Nat.le_refl _⟩
  closes _ := rfl
  resizes _ := rfl

/-- A command that writes a byte, gets one from the client and ends with
status 3. -/
theorem greeting_delivered : ∃ events state,
    (answeredSystem false (fun _ => []) greeting 3).Run
      (.initial false greeting) events state ∧
    (∃ input, state.input = .reading input ∧ stdinBytes input.log = [65]) ∧
    .sent ⟨.binary, [1, 104]⟩ ∈ state.log ∧ state.loop = .returned ∧
    OutputThenExit 3 state.log := by
  have isInput : IsInput ⟨.binary, [0, 65]⟩ [65] := ⟨rfl, by decide⟩
  obtain ⟨log, accepted, longer⟩ :=
    @readMessage_input false openStdin openStdin_succeed _ _ .initial isInput
      rfl
  have start : (answeredSystem false (fun _ => []) greeting 3).Reachable
      (.initial false greeting) := .initial rfl
  have read := start.step
    ⟨⟨@BridgeStep.pump _ _ _ .stdout _ _ .read (by decide), trivial⟩, trivial⟩
  have queued := read.step
    ⟨⟨@BridgeStep.pump _ _ _ .stdout _ _ .send (by decide), trivial⟩, trivial⟩
  have typed := queued.step ⟨⟨.input (.accepted accepted), by
    rintro input ⟨⟩
    exact .inl ⟨[65], isInput, rfl⟩⟩, fun _ => openStdin_succeed⟩
  have taken := typed.step
    ⟨⟨.loop (.takeData rfl rfl (by decide) rfl), rfl⟩, trivial⟩
  have written := taken.step ⟨⟨.loop (.write rfl), rfl⟩, trivial⟩
  have silent := written.step
    ⟨⟨@BridgeStep.pump _ _ _ .stderr _ _ .read (Nat.le_of_ble_eq_true rfl),
      trivial⟩, trivial⟩
  have called := silent.step ⟨⟨.waiter (.call (by
    intro channel
    cases channel <;> exact .inr rfl)) (Nat.le_of_ble_eq_true rfl), trivial⟩, trivial⟩
  have waited := called.step ⟨⟨.waiter (@WaiterStep.returns _ 3 (by
    intro channel _
    cases channel <;> rfl)) (Nat.le_of_ble_eq_true rfl), rfl⟩, trivial⟩
  have status := waited.step
    ⟨⟨.waiter .send (Nat.le_of_ble_eq_true rfl), trivial⟩, trivial⟩
  have exit := status.step ⟨⟨.loop (.takeExit rfl rfl), rfl⟩, trivial⟩
  have closed := exit.step ⟨⟨.loop (.closeSession rfl), rfl⟩, trivial⟩
  have sent := closed.step ⟨⟨.loop (.writeExit rfl), rfl⟩, trivial⟩
  obtain ⟨first, events, rfl, run⟩ :=
    sent.step ⟨⟨.loop (.closeConnection rfl), rfl⟩, trivial⟩
  exact ⟨events, _, run, ⟨_, rfl, longer.bytes⟩, List.mem_cons_self, rfl,
    ((exit_code_delivered (fun _ => []) (by
      intro channel
      cases channel <;> rfl) (by decide) (by decide)).1 events _ run).2.1 rfl⟩

/-- A command that writes nothing. -/
def quiet : Channel → Source := fun _ => ⟨[], false, .eof⟩

/-- Every write of the input fails. -/
def closedStdin : SessionAnswers where
  write _ _ := ⟨0, true⟩
  closes _ := true
  resizes _ := true

def brokenPipe : Bytes := Text.utf8 "write console stdin: broken pipe"

theorem closedStdin_refuses (byte : UInt8) :
    readMessage false closedStdin ⟨.binary, [0, byte]⟩ .initial =
      (some .write, ⟨false, [.stdin []]⟩) := by
  have written : writeStdin closedStdin [byte] [] =
      (some .write, [.stdin []]) := by
    rw [writeStdin, if_neg (List.cons_ne_nil _ _)]
    rfl
  have parsed : parseInputFrame [0, byte] = .ok [byte] :=
    parseInputFrame_ok_iff.mpr ⟨rfl, Nat.lt_of_sub_eq_succ rfl⟩
  simp only [readMessage, parsed, InputState.initial, written]
  rfl

/-- The command has ended well and `Wait` has said so, but the client's last
input could not be written, and the error is what the client gets. -/
theorem unreadInput_reported : ∃ state,
    (orderlySystem false (fun _ => brokenPipe) quiet 0).Reachable state ∧
      state.log =
        [.waited 0, .sent ⟨.text, writeConsoleError brokenPipe⟩] := by
  have start : (orderlySystem false (fun _ => brokenPipe) quiet 0).Reachable
      (.initial false quiet) := .initial rfl
  have stdout := start.step
    ⟨@BridgeStep.pump _ _ _ .stdout _ _ .read (by decide), trivial⟩
  have stderr := stdout.step
    ⟨@BridgeStep.pump _ _ _ .stderr _ _ .read (by decide), trivial⟩
  have called := stderr.step ⟨.waiter (.call (by
    intro channel
    cases channel <;> exact .inr rfl)) (by decide), trivial⟩
  have waited := called.step ⟨.waiter (@WaiterStep.returns _ 0 (by
    intro channel _
    cases channel <;> rfl)) (by decide), rfl⟩
  have refused := waited.step
    ⟨.input (.refused (closedStdin_refuses 104)), by
    rintro input ⟨⟩
    exact .inl ⟨[104], ⟨rfl, by decide⟩, rfl⟩⟩
  have taken := refused.step ⟨.loop (.takeInput rfl rfl), rfl⟩
  exact ⟨_, taken.step ⟨.loop (.report true rfl), rfl⟩, rfl⟩

end Nephos.Console
