import Nephos.Console.Delivery

/-!
# The bridge always ends

Every step that the server takes by itself uses up some work, whatever fails
and whenever the context is cancelled, and until the loop has returned and the
goroutines have ended there is such a step.
-/

namespace Nephos.Console

open Stream Transition

def ConsoleEvent.work : ConsoleEvent → Nat
  | .data _ _ => 3
  | .exit _ => 5
  | .failure _ => 5

def Pump.work (pump : Pump) : Nat :=
  match pump.phase with
  | .off => 0
  | .reading => 16 * pump.source.weight + 16
  | .sending _ none => 16 * pump.source.weight + 20
  | .sending _ (some _) => 12
  | .failing _ => 6
  | .done => 0

def WaiterPhase.work : WaiterPhase → Nat
  | .waiting => 8
  | .calling _ => 7
  | .sending _ => 6
  | .done => 0

def LoopPhase.work : LoopPhase → Nat
  | .closingSession _ => 5
  | .writing _ => 4
  | .writingExit _ => 4
  | .selecting => 3
  | .closingConnection => 3
  | .reporting _ => 2
  | .refusing => 1
  | .returned => 0

def InputPhase.work : InputPhase → Nat
  | .reading _ => 1
  | .finished _ => 0
  | .taken => 0

def queueWork (events : List ConsoleEvent) : Nat :=
  (events.map ConsoleEvent.work).sum

def Bridge.work (state : Bridge) : Nat :=
  (state.pumps .stdout).work + (state.pumps .stderr).work +
    queueWork state.events + state.waiter.work + state.input.work +
    state.loop.work

/-- The steps that do not wait for the client or for the caller. -/
def BridgeEvent.ofServer : BridgeEvent → Bool
  | .cancel | .message _ _ | .disconnect => false
  | _ => true

theorem queueWork_append (front back : List ConsoleEvent) :
    queueWork (front ++ back) = queueWork front + queueWork back := by
  rw [queueWork, List.map_append, List.sum_append]
  rfl

theorem ConsoleEvent.work_le (event : ConsoleEvent) : event.work ≤ 5 := by
  cases event <;> simp [ConsoleEvent.work]

theorem Pump.work_after_none (source : Source) :
    Pump.work ⟨source, .after none⟩ = 16 * source.weight + 16 := rfl

theorem Pump.work_after_some (source : Source) (error : Stream.Error) :
    Pump.work ⟨source, .after (some error)⟩ ≤ 6 := by
  rcases error with _ | _ | _ <;> simp [PumpPhase.after, Pump.work]

theorem PumpStep.work_lt {channel : Channel} {cancelled : Bool}
    {pump after : Pump} {emitted : List ConsoleEvent}
    (step : PumpStep channel cancelled pump emitted after) :
    queueWork emitted + after.work < pump.work := by
  cases step with
  | @read source =>
      have reads := source.read_reads (maxDataBytes - 1)
      revert reads
      generalize source.read (maxDataBytes - 1) = outcome
      obtain ⟨data, error, rest⟩ := outcome
      intro reads
      show 0 + Pump.work ⟨rest, if data = [] then .after error
        else .sending data error⟩ < 16 * source.weight + 16
      rw [Nat.zero_add]
      cases error with
      | none =>
          have progress := reads.progress (by decide) rfl
          dsimp only at progress
          split
          · rw [Pump.work_after_none]
            omega
          · show 16 * rest.weight + 20 < _
            omega
      | some error =>
          split
          · have := Pump.work_after_some rest error
            omega
          · show 12 < _
            omega
  | interrupted =>
      show 0 + 6 < 16 * _ + 16
      omega
  | @send source chunk error =>
      cases error with
      | none =>
          show 3 + (16 * source.weight + 16) < 16 * source.weight + 20
          omega
      | some error =>
          have := Pump.work_after_some source error
          show 3 + Pump.work ⟨source, .after (some error)⟩ < 12
          omega
  | @drop source chunk error =>
      cases error with
      | none =>
          show 0 + (16 * source.weight + 16) < 16 * source.weight + 20
          omega
      | some error =>
          have := Pump.work_after_some source error
          show 0 + Pump.work ⟨source, .after (some error)⟩ < 12
          omega
  | sendFailure | dropFailure => exact Nat.lt_of_sub_eq_succ rfl

theorem WaiterStep.work_lt {state : Bridge} {event : BridgeEvent}
    {phase after : WaiterPhase} {emitted : List ConsoleEvent}
    {actions : List BridgeAction}
    (step : WaiterStep state event phase emitted actions after) :
    queueWork emitted + after.work < phase.work := by
  cases step with
  | call | returns | fails | drop => exact Nat.lt_of_sub_eq_succ rfl
  | send =>
      rename_i sent
      have := sent.work_le
      show sent.work + 0 + 0 < 6
      omega

theorem InputStep.work_le {tty cancelled : Bool} {event : BridgeEvent}
    {phase after : InputPhase} {actions : List BridgeAction}
    (step : InputStep tty cancelled event phase actions after) :
    after.work + (if event.ofServer then 1 else 0) ≤ phase.work := by
  cases step with
  | accepted | interrupted => exact Nat.le_refl 1
  | refused | disconnected => exact Nat.zero_le 1

theorem LoopStep.work_lt {tty : Bool} {text : BridgeFailure → Bytes}
    {state next : Bridge} {succeeds : Bool}
    (step : LoopStep tty text state succeeds next) :
    next.pumps = state.pumps ∧ next.waiter = state.waiter ∧
      next.input.work ≤ state.input.work ∧
      queueWork next.events + next.loop.work <
        queueWork state.events + state.loop.work := by
  have phase : ∀ {now later : LoopPhase}, state.loop = now →
      later.work < now.work →
      queueWork state.events + later.work <
        queueWork state.events + state.loop.work := by
    rintro now later rfl less
    exact Nat.add_lt_add_left less _
  have take : ∀ {event : ConsoleEvent} {rest : List ConsoleEvent}
      {later : LoopPhase}, state.loop = .selecting →
      state.events = event :: rest → later.work < event.work + 3 →
      queueWork rest + later.work <
        queueWork state.events + state.loop.work := by
    intro event rest later selecting events less
    rw [events, selecting]
    show _ < (event.work + queueWork rest) + 3
    omega
  cases step with
  | takeInput now =>
      exact ⟨rfl, rfl, Nat.zero_le _, phase now (Nat.lt_of_sub_eq_succ rfl)⟩
  | takeDone now =>
      exact ⟨rfl, rfl, Nat.le_refl _, phase now (Nat.lt_of_sub_eq_succ rfl)⟩
  | takeFailure now events | takeExit now events | takeData now events
  | takeSeparate now events | takeOversized now events =>
      exact ⟨rfl, rfl, Nat.le_refl _,
        take now events (Nat.lt_of_sub_eq_succ rfl)⟩
  | write now | closeSession now | closeSessionFails now | writeExit now
  | closeConnection now =>
      exact ⟨rfl, rfl, Nat.le_refl _, phase now (Nat.lt_of_sub_eq_succ rfl)⟩
  | writeFails _ now | writeExitFails _ now | closeConnectionFails _ now
  | report _ now | refuse _ now =>
      exact ⟨rfl, rfl, Nat.le_refl _, phase now (Nat.lt_of_sub_eq_succ rfl)⟩

/-- A step of the server uses up work, and no other step adds any. -/
theorem BridgeStep.work {tty : Bool} {text : BridgeFailure → Bytes}
    {state next : Bridge} {event : BridgeEvent}
    (step : BridgeStep tty text state event next) :
    next.work + (if event.ofServer then 1 else 0) ≤ state.work := by
  cases step with
  | cancel => exact Nat.le_refl _
  | @pump channel emitted after moved _ =>
      have less := moved.work_lt
      have total : ∀ other : Channel, other ≠ channel →
          (Function.update state.pumps channel after other).work =
            (state.pumps other).work := by
        intro other different
        rw [Function.update_of_ne different]
      show _ + 1 ≤ _
      simp only [Bridge.work, queueWork_append]
      cases channel with
      | stdout =>
          rw [Function.update_self, total .stderr nofun]
          omega
      | stderr =>
          rw [Function.update_self, total .stdout nofun]
          omega
  | waiter moved _ =>
      have less := moved.work_lt
      simp only [Bridge.work, queueWork_append]
      split <;> omega
  | input moved =>
      have less := moved.work_le
      simp only [Bridge.work]
      omega
  | loop moved =>
      obtain ⟨pumps, waiter, input, less⟩ := moved.work_lt
      show _ + 1 ≤ _
      simp only [Bridge.work, pumps, waiter]
      omega

theorem work_run {tty : Bool} {text : BridgeFailure → Bytes}
    {sources : Channel → Source} {state final : Bridge}
    {events : List BridgeEvent}
    (run : (bridgeSystem tty text sources).Run state events final) :
    final.work + events.countP BridgeEvent.ofServer ≤ state.work := by
  induction run with
  | nil => exact Nat.le_refl _
  | cons step _ induction =>
      have := BridgeStep.work step
      rw [List.countP_cons]
      omega

/-- The loop ends with such an event. -/
def ConsoleEvent.Final (event : ConsoleEvent) : Prop :=
  (∃ code, event = .exit code) ∨ ∃ failure, event = .failure failure

/-- The waiter's word is in the channel until the loop takes it. -/
structure Owed (state : Bridge) : Prop where
  room : state.events.length ≤ eventsCapacity
  stopped : state.loop = .returned → state.cancelled = true
  waited : state.waiter = .done → Streaming state →
    state.cancelled = true ∨ ∃ event ∈ state.events, event.Final

section Owing

variable {tty : Bool} {text : BridgeFailure → Bytes}
  {sources : Channel → Source} {state next : Bridge}

theorem LoopStep.owed {succeeds : Bool}
    (step : LoopStep tty text state succeeds next) (owed : Owed state) :
    Owed next := by
  have room : ∀ {event : ConsoleEvent} {rest : List ConsoleEvent},
      state.events = event :: rest → rest.length ≤ eventsCapacity := by
    intro event rest events
    have length := owed.room
    rw [events, List.length_cons] at length
    omega
  have leaves : ∀ {claim : Prop}, next.loop ≠ .selecting →
      (∀ raw, next.loop ≠ .writing raw) → Streaming next → claim := by
    rintro claim selecting writing (same | ⟨raw, same⟩)
    · exact absurd same selecting
    · exact absurd same (writing raw)
  cases step with
  | takeInput | takeDone | closeSession | writeExit =>
      exact ⟨owed.room, nofun, fun _ => leaves nofun nofun⟩
  | takeFailure _ events | takeExit _ events | takeSeparate _ events
  | takeOversized _ events =>
      exact ⟨room events, nofun, fun _ => leaves nofun nofun⟩
  | takeData selecting events =>
      refine ⟨room events, nofun, fun done _ => ?_⟩
      rcases owed.waited done (.inl selecting) with stopped | remains
      · exact .inl stopped
      · obtain ⟨event, member, final⟩ := remains
        rw [events, List.mem_cons] at member
        rcases member with rfl | later
        · rcases final with ⟨_, same⟩ | ⟨_, same⟩ <;> cases same
        · exact .inr ⟨event, later, final⟩
  | write writing =>
      exact ⟨owed.room, nofun, fun done _ =>
        owed.waited done (.inr ⟨_, writing⟩)⟩
  | writeFails | closeSessionFails | writeExitFails | closeConnectionFails
  | report => exact ⟨owed.room, nofun, fun _ => leaves nofun nofun⟩
  | closeConnection | refuse =>
      exact ⟨owed.room, fun _ => rfl, fun _ => leaves nofun nofun⟩

theorem WaiterStep.owed {event : BridgeEvent} {emitted : List ConsoleEvent}
    {actions : List BridgeAction} {after : WaiterPhase}
    (step : WaiterStep state event state.waiter emitted actions after)
    (invariant : BridgeInvariant tty sources state)
    (stopped : state.loop = .returned → state.cancelled = true)
    (room : (state.events ++ emitted).length ≤ eventsCapacity) :
    Owed { state with
      waiter := after
      events := state.events ++ emitted
      log := state.log ++ actions } := by
  generalize phase : state.waiter = waiter at step
  refine ⟨room, stopped, fun done _ => ?_⟩
  cases step with
  | call | returns | fails => cases done
  | @send sent =>
      exact .inr ⟨sent, List.mem_append_right _ (List.mem_singleton_self _),
        invariant.outcome sent phase⟩
  | drop cancelled => exact .inl cancelled

theorem BridgeStep.owed {event : BridgeEvent}
    (step : BridgeStep tty text state event next)
    (invariant : BridgeInvariant tty sources state) (owed : Owed state) :
    Owed next := by
  cases step with
  | cancel => exact ⟨owed.room, fun _ => rfl, fun _ _ => .inl rfl⟩
  | pump _ room =>
      refine ⟨room, owed.stopped, fun done streaming => ?_⟩
      rcases owed.waited done streaming with stopped | ⟨event, member, final⟩
      · exact .inl stopped
      · exact .inr ⟨event, List.mem_append_left _ member, final⟩
  | waiter moved room => exact moved.owed invariant owed.stopped room
  | input => exact ⟨owed.room, owed.stopped, owed.waited⟩
  | loop moved => exact moved.owed owed

/-- A pump that has not finished can go on when there is room for one event,
or when it may give up. -/
theorem exists_pumpStep (channel : Channel) {pump : Pump}
    (running : ¬ pump.phase.Finished) :
    (∃ emitted after, PumpStep channel state.cancelled pump emitted after ∧
      emitted.length ≤ 1) ∧
    (state.cancelled = true → ∃ after,
      PumpStep channel state.cancelled pump [] after) := by
  obtain ⟨source, phase⟩ := pump
  cases phase with
  | off => exact absurd (.inl rfl) running
  | done => exact absurd (.inr rfl) running
  | reading =>
      exact ⟨⟨_, _, .read, Nat.zero_le 1⟩, fun _ => ⟨_, .read⟩⟩
  | sending chunk error =>
      exact ⟨⟨_, _, .send, Nat.le_refl 1⟩, fun stopped => ⟨_, .drop stopped⟩⟩
  | failing failure =>
      exact ⟨⟨_, _, .sendFailure, Nat.le_refl 1⟩,
        fun stopped => ⟨_, .dropFailure stopped⟩⟩

/-- The loop takes whatever is first in the channel. -/
theorem exists_take (selecting : state.loop = .selecting)
    {event : ConsoleEvent} {rest : List ConsoleEvent}
    (events : state.events = event :: rest) :
    ∃ next, LoopStep tty text state true next := by
  cases event with
  | exit => exact ⟨_, .takeExit selecting events⟩
  | failure => exact ⟨_, .takeFailure selecting events⟩
  | data channel chunk =>
      by_cases separate : tty = true ∧ channel = .stderr
      · obtain ⟨terminal, rfl⟩ := separate
        exact ⟨_, .takeSeparate selecting events terminal⟩
      · cases framed : outputFrame channel.byte chunk with
        | ok => exact ⟨_, .takeData selecting events separate framed⟩
        | error => exact ⟨_, .takeOversized selecting events separate framed⟩

end Owing

end Nephos.Console
