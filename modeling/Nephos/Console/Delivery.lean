import Nephos.Console.Bridge

/-!
# A reported exit status is complete and genuine

Chunks are lost only after the context has been cancelled, and then `Wait`
reports an error.  So when there is an exit in the channel, all output stands
before it, and the loop sends it after all output.
-/

namespace Nephos.Console

open Stream Transition Effects

/-- What a pump has still to send. -/
def Pump.left (pump : Pump) : Bytes :=
  match pump.phase with
  | .off => []
  | .sending chunk _ => chunk ++ pump.source.bytes
  | _ => pump.source.bytes

/-- A chunk that waits to be sent fits into a frame, and without a cancelled
context a pump ends only after its stream. -/
structure Pump.Sound (cancelled : Bool) (pump : Pump) : Prop where
  pending : ∀ chunk error, pump.phase = .sending chunk error →
    chunk.length < maxDataBytes ∧ (error.isSome → pump.source.bytes = [])
  ended : (pump.phase = .done ∨ ∃ failure, pump.phase = .failing failure) →
    pump.source.bytes = [] ∨ cancelled = true

/-- What an event carries on a channel. -/
def ConsoleEvent.bytes (channel : Channel) : ConsoleEvent → Bytes
  | .data other chunk => if other = channel then chunk else []
  | _ => []

def queued (channel : Channel) (events : List ConsoleEvent) : Bytes :=
  events.flatMap (ConsoleEvent.bytes channel)

/-- What the client has to get on a channel. -/
def whole (tty : Bool) (sources : Channel → Source) : Channel → Bytes
  | .stdout => (sources .stdout).bytes
  | .stderr => if tty then [] else (sources .stderr).bytes

/-- Every byte of the output has been sent, is being sent, is in the channel,
or has not been read, in this order. -/
structure Accounts (tty : Bool) (sources : Channel → Source) (state : Bridge)
    (frames flight : List Frame) : Prop where
  sent : sentMessages state.log = frames.map Frame.message
  loop : (state.loop = .selecting ∧ flight = []) ∨
    ∃ frame, state.loop = .writing frame.message.raw ∧ flight = [frame]
  allowed : ∀ frame ∈ frames ++ flight, Allowed tty frame
  bytes : ∀ channel, payloads channel (frames ++ flight) ++
    (queued channel state.events ++ (state.pumps channel).left) =
      whole tty sources channel

/-- All output has been sent, and the command has ended with the status. -/
structure Complete (tty : Bool) (sources : Channel → Source)
    (log : List BridgeAction) (code : Int) : Prop where
  frames : ∃ frames : List Frame, sentMessages log = frames.map Frame.message ∧
    (∀ frame ∈ frames, Allowed tty frame) ∧
    ∀ channel, payloads channel frames = whole tty sources channel
  waited : .waited code ∈ log
  lower : 0 ≤ code
  upper : code ≤ 255

/-- The session has been closed after all output, and nothing has been sent
after that. -/
def Concluded (tty : Bool) (sources : Channel → Source)
    (log : List BridgeAction) (code : Int) : Prop :=
  ∃ front back, log = front ++ .closedSession :: back ∧
    Complete tty sources front code ∧ sentMessages back = []

/-- What the loop has behind it in its last phases. -/
def Concluding (tty : Bool) (sources : Channel → Source) (state : Bridge) :
    Prop :=
  match state.loop with
  | .closingSession code => Complete tty sources state.log code
  | .writingExit code => Concluded tty sources state.log code
  | _ => True

/-- What a client takes for an exit has been sent as one. -/
def Honest (tty : Bool) (sources : Channel → Source)
    (log : List BridgeAction) : Prop :=
  Every (fun front action => ∀ raw code, action = .sent ⟨.text, raw⟩ →
    parseServerText raw = .ok (.exit code) →
      raw = (exitMessage code).raw ∧ Concluded tty sources front code) log

/-- An exit is under way to the loop. -/
def Exiting (state : Bridge) : Prop :=
  state.waiter = .calling false ∨
    (∃ code, state.waiter = .sending (.exit code)) ∨
    ∃ code, .exit code ∈ state.events

def Streaming (state : Bridge) : Prop :=
  state.loop = .selecting ∨ ∃ raw, state.loop = .writing raw

structure BridgeInvariant (tty : Bool) (sources : Channel → Source)
    (state : Bridge) : Prop where
  off : ∀ channel, (state.pumps channel).phase = .off ↔
    tty = true ∧ channel = .stderr
  pumps : ∀ channel, (state.pumps channel).Sound state.cancelled
  carried : ∀ channel chunk, .data channel chunk ∈ state.events →
    chunk.length < maxDataBytes ∧ (tty = true → channel = .stdout)
  accounts : (state.cancelled = false ∨ Exiting state) → Streaming state →
    ∃ frames flight, Accounts tty sources state frames flight
  settled : Exiting state → ∀ channel,
    (state.pumps channel).phase.Finished ∧ (state.pumps channel).left = []
  outcome : ∀ event, state.waiter = .sending event →
    (∃ code, event = .exit code) ∨ ∃ failure, event = .failure failure
  status : ∀ code, (state.waiter = .sending (.exit code) ∨
      .exit code ∈ state.events) →
    .waited code ∈ state.log ∧ 0 ≤ code ∧ code ≤ 255
  last : ∀ code, .exit code ∈ state.events → state.waiter = .done ∧
    ∃ front, state.events = front ++ [.exit code] ∧
      ∀ other, .exit other ∉ front
  concluding : Concluding tty sources state
  honest : Honest tty sources state.log

theorem sentMessages_append (front back : List BridgeAction) :
    sentMessages (front ++ back) = sentMessages front ++ sentMessages back :=
  List.filterMap_append

/-- Actions that no client takes for an exit. -/
def NoExit (actions : List BridgeAction) : Prop :=
  ∀ raw code, .sent ⟨.text, raw⟩ ∈ actions →
    parseServerText raw ≠ .ok (.exit code)

theorem noExit_of_silent {actions : List BridgeAction}
    (silent : sentMessages actions = []) : NoExit actions := by
  intro raw code member
  have sent : ⟨.text, raw⟩ ∈ sentMessages actions :=
    List.mem_filterMap.mpr ⟨_, member, rfl⟩
  rw [silent] at sent
  cases sent

theorem noExit_attempt {action : BridgeAction} (none : NoExit [action])
    (delivered : Bool) : NoExit (attempt delivered action) := by
  cases delivered with
  | false => exact noExit_of_silent rfl
  | true => exact none

theorem noExit_binary (raw : Bytes) : NoExit [.sent ⟨.binary, raw⟩] := by
  intro other code member
  cases List.mem_singleton.mp member

section Logs

variable {tty : Bool} {sources : Channel → Source} {log : List BridgeAction}
  {code : Int}

theorem Honest.append {actions : List BridgeAction}
    (honest : Honest tty sources log) (none : NoExit actions) :
    Honest tty sources (log ++ actions) := by
  induction actions generalizing log with
  | nil =>
      rw [List.append_nil]
      exact honest
  | cons action actions induction =>
      rw [List.append_cons]
      refine induction (Every.snoc honest ?_) fun raw code member =>
        none raw code (List.mem_cons_of_mem _ member)
      rintro raw code rfl parsed
      exact absurd parsed (none raw code List.mem_cons_self)

theorem Honest.exit (honest : Honest tty sources log)
    (concluded : Concluded tty sources log code) :
    Honest tty sources (log ++ [.sent (exitMessage code)]) := by
  refine Every.snoc honest ?_
  rintro raw other ⟨⟩ parsed
  obtain ⟨lower, upper⟩ : 0 ≤ code ∧ code ≤ 255 := by
    obtain ⟨_, _, _, complete, _⟩ := concluded
    exact ⟨complete.lower, complete.upper⟩
  have read : parseServerText (marshal (exitTree code.toNat)) =
      .ok (.exit (code.toNat : Int)) := parseServerText_exit (by omega)
  have same : code = other := by
    cases parsed.symm.trans read
    exact (Int.toNat_of_nonneg lower).symm
  subst same
  exact ⟨rfl, concluded⟩

theorem Complete.grow {actions : List BridgeAction}
    (complete : Complete tty sources log code)
    (silent : sentMessages actions = []) :
    Complete tty sources (log ++ actions) code := by
  obtain ⟨⟨frames, sent, allowed, bytes⟩, waited, lower, upper⟩ := complete
  refine ⟨⟨frames, ?_, allowed, bytes⟩, List.mem_append_left _ waited, lower,
    upper⟩
  rw [sentMessages_append, silent, List.append_nil]
  exact sent

theorem Concluded.grow {actions : List BridgeAction}
    (concluded : Concluded tty sources log code)
    (silent : sentMessages actions = []) :
    Concluded tty sources (log ++ actions) code := by
  obtain ⟨front, back, rfl, complete, none⟩ := concluded
  refine ⟨front, back ++ actions, ?_, complete, ?_⟩
  · rw [List.append_assoc]
    rfl
  · rw [sentMessages_append, none, silent]
    rfl

end Logs

theorem Concluding.grow {tty : Bool} {sources : Channel → Source}
    {state next : Bridge} {actions : List BridgeAction}
    (concluding : Concluding tty sources state)
    (sameLoop : next.loop = state.loop)
    (log : next.log = state.log ++ actions)
    (silent : sentMessages actions = []) :
    Concluding tty sources next := by
  unfold Concluding at concluding ⊢
  rw [sameLoop, log]
  cases loop : state.loop with
  | closingSession code =>
      rw [loop] at concluding
      exact concluding.grow silent
  | writingExit code =>
      rw [loop] at concluding
      exact concluding.grow silent
  | _ => trivial

theorem queued_append (channel : Channel) (front back : List ConsoleEvent) :
    queued channel (front ++ back) =
      queued channel front ++ queued channel back :=
  List.flatMap_append

section Pumps

variable {channel : Channel} {cancelled : Bool} {pump after : Pump}
  {emitted : List ConsoleEvent}

theorem PumpStep.running (step : PumpStep channel cancelled pump emitted after) :
    ¬ pump.phase.Finished := by
  rintro (off | done) <;> cases step <;> contradiction

theorem PumpPhase.after_ne_off (error : Option Stream.Error) :
    PumpPhase.after error ≠ .off := by
  rcases error with _ | _ | _ | _ <;> nofun

theorem PumpStep.on (step : PumpStep channel cancelled pump emitted after) :
    after.phase ≠ .off := by
  cases step with
  | read =>
      dsimp only
      unfold PumpPhase.afterRead
      split
      · exact PumpPhase.after_ne_off _
      · nofun
  | interrupted | sendFailure | dropFailure => nofun
  | send | drop => exact PumpPhase.after_ne_off _

/-- What a pump emits is the chunk that it has, or an error. -/
theorem PumpStep.emits (step : PumpStep channel cancelled pump emitted after) :
    ∀ event ∈ emitted,
      (∃ chunk error, event = .data channel chunk ∧
        pump.phase = .sending chunk error) ∨
      ∃ failure, event = .failure failure := by
  intro event member
  cases step with
  | read | interrupted | drop | dropFailure => cases member
  | send =>
      cases List.mem_singleton.mp member
      exact .inl ⟨_, _, rfl, rfl⟩
  | sendFailure =>
      cases List.mem_singleton.mp member
      exact .inr ⟨_, rfl⟩

theorem PumpStep.no_exit (step : PumpStep channel cancelled pump emitted after)
    (code : Int) : .exit code ∉ emitted := by
  intro member
  rcases step.emits _ member with ⟨_, _, same, -⟩ | ⟨_, same⟩ <;> cases same

theorem PumpStep.queued_other
    (step : PumpStep channel cancelled pump emitted after) {other : Channel}
    (different : other ≠ channel) : queued other emitted = [] := by
  cases step with
  | send =>
      rw [queued, List.flatMap_singleton, ConsoleEvent.bytes,
        if_neg different.symm]
  | _ => rfl

theorem Pump.left_after (source : Source) (error : Option Stream.Error) :
    Pump.left ⟨source, .after error⟩ = source.bytes := by
  rcases error with _ | _ | _ | _ <;> rfl

/-- Without cancellation nothing is lost. -/
theorem PumpStep.keeps (step : PumpStep channel false pump emitted after) :
    queued channel emitted ++ after.left = pump.left := by
  cases step with
  | @read source =>
      have reads := source.read_reads (maxDataBytes - 1)
      show [] ++ Pump.left ⟨_, .afterRead _⟩ = source.bytes
      rw [List.nil_append, reads.bytes]
      unfold PumpPhase.afterRead
      split
      · rename_i empty
        rw [empty, Pump.left_after]
        rfl
      · rfl
  | @send source chunk error =>
      rw [Pump.left_after, queued, List.flatMap_singleton, ConsoleEvent.bytes,
        if_pos rfl]
      rfl
  | sendFailure => rfl
  | interrupted _ impossible | drop impossible | dropFailure impossible =>
      cases impossible

theorem Pump.sound_after {source : Source} {error : Option Stream.Error}
    (finished : error.isSome → source.bytes = [] ∨ cancelled = true) :
    Pump.Sound cancelled ⟨source, .after error⟩ := by
  rcases error with _ | _ | _ | _
  · exact ⟨nofun, fun | .inl done => nomatch done
                      | .inr ⟨_, failing⟩ => nomatch failing⟩
  all_goals exact ⟨nofun, fun _ => finished rfl⟩

theorem PumpStep.sound (step : PumpStep channel cancelled pump emitted after)
    (sound : pump.Sound cancelled) : after.Sound cancelled := by
  cases step with
  | @read source =>
      have reads := source.read_reads (maxDataBytes - 1)
      have finished : (source.read (maxDataBytes - 1)).error.isSome →
          (source.read (maxDataBytes - 1)).rest.bytes = [] := by
        intro reported
        obtain ⟨error, same⟩ := Option.isSome_iff_exists.mp reported
        exact (reads.last error same).2
      unfold PumpPhase.afterRead
      split
      · exact Pump.sound_after fun reported => .inl (finished reported)
      · refine ⟨?_, fun | .inl done => nomatch done
                        | .inr ⟨_, failing⟩ => nomatch failing⟩
        rintro chunk error ⟨rfl, rfl⟩
        have length := reads.length
        refine ⟨?_, finished⟩
        simp only [maxDataBytes] at length ⊢
        omega
  | interrupted error stopped => exact ⟨nofun, fun _ => .inr stopped⟩
  | send | drop =>
      exact Pump.sound_after fun reported =>
        .inl ((sound.pending _ _ rfl).2 reported)
  | sendFailure | dropFailure =>
      exact ⟨nofun, fun _ => sound.ended (.inr ⟨_, rfl⟩)⟩

end Pumps

section Steps

variable {tty : Bool} {sources : Channel → Source} {state next : Bridge}

theorem invariant_initial :
    BridgeInvariant tty sources (.initial tty sources) where
  off channel := by
    cases channel <;> cases tty <;> simp [Bridge.initial]
  pumps channel := by
    cases channel <;> cases tty <;>
      exact ⟨nofun, fun | .inl done => nomatch done
                        | .inr ⟨_, failing⟩ => nomatch failing⟩
  carried := nofun
  accounts _ _ := by
    refine ⟨[], [], rfl, .inl ⟨rfl, rfl⟩, nofun, ?_⟩
    intro channel
    cases channel <;> cases tty <;> rfl
  settled := by
    rintro (calling | ⟨_, sending⟩ | ⟨_, member⟩) <;> contradiction
  outcome := nofun
  status := by
    rintro code (sending | member) <;> contradiction
  last := nofun
  concluding := trivial
  honest := every_nil _

theorem Pump.Sound.cancel {cancelled : Bool} {pump : Pump}
    (sound : pump.Sound cancelled) : pump.Sound true :=
  ⟨sound.pending, fun _ => .inr rfl⟩

theorem invariant_cancel (invariant : BridgeInvariant tty sources state) :
    BridgeInvariant tty sources { state with cancelled := true } where
  off := invariant.off
  pumps channel := (invariant.pumps channel).cancel
  carried := invariant.carried
  accounts kept streaming := by
    rcases kept with running | exiting
    · cases running
    · obtain ⟨frames, flight, sent, loop, allowed, bytes⟩ :=
        invariant.accounts (.inr exiting) streaming
      exact ⟨frames, flight, sent, loop, allowed, bytes⟩
  settled := invariant.settled
  outcome := invariant.outcome
  status := invariant.status
  last := invariant.last
  concluding := invariant.concluding
  honest := invariant.honest

theorem invariant_pump (invariant : BridgeInvariant tty sources state)
    {channel : Channel} {emitted : List ConsoleEvent} {after : Pump}
    (step : PumpStep channel state.cancelled (state.pumps channel) emitted
      after) :
    BridgeInvariant tty sources
      { state with
        pumps := Function.update state.pumps channel after
        events := state.events ++ emitted } := by
  -- a pump that runs holds the waiter back
  have notExiting : ¬ Exiting state := fun exiting =>
    step.running (invariant.settled exiting channel).1
  have oldEvent : ∀ {code : Int}, .exit code ∈ state.events ++ emitted →
      .exit code ∈ state.events := fun {code} member =>
    (List.mem_append.mp member).resolve_right (step.no_exit code)
  have stillNot : ∀ {state' : Bridge}, state'.waiter = state.waiter →
      state'.events = state.events ++ emitted → ¬ Exiting state' := by
    rintro state' waiter events (calling | ⟨code, sending⟩ | ⟨code, member⟩)
    · exact notExiting (.inl (waiter ▸ calling))
    · exact notExiting (.inr (.inl ⟨code, waiter ▸ sending⟩))
    · exact notExiting (.inr (.inr ⟨code, oldEvent (events ▸ member)⟩))
  refine ⟨?_, ?_, ?_, ?_, ?_, invariant.outcome, ?_, ?_, invariant.concluding,
    invariant.honest⟩
  · intro other
    by_cases same : other = channel
    · subst same
      have running : (state.pumps other).phase ≠ .off := fun off =>
        step.running (.inl off)
      dsimp only
      rw [Function.update_self]
      exact iff_of_false step.on fun terminal =>
        running ((invariant.off other).mpr terminal)
    · dsimp only
      rw [Function.update_of_ne same]
      exact invariant.off other
  · intro other
    by_cases same : other = channel
    · subst same
      dsimp only
      rw [Function.update_self]
      exact step.sound (invariant.pumps other)
    · dsimp only
      rw [Function.update_of_ne same]
      exact invariant.pumps other
  · intro other chunk member
    rcases List.mem_append.mp member with old | new
    · exact invariant.carried other chunk old
    · rcases step.emits _ new with ⟨chunk, error, same, sending⟩ | ⟨_, same⟩
      · cases same
        refine ⟨((invariant.pumps channel).pending _ _ sending).1, ?_⟩
        intro terminal
        cases channel with
        | stdout => rfl
        | stderr =>
            have off := (invariant.off .stderr).mpr ⟨terminal, rfl⟩
            cases sending.symm.trans off
      · cases same
  · rintro (running | exiting) streaming
    · obtain ⟨frames, flight, sent, loop, allowed, bytes⟩ :=
        invariant.accounts (.inl running) streaming
      refine ⟨frames, flight, sent, loop, allowed, ?_⟩
      intro other
      rw [← bytes other]
      dsimp only at running ⊢
      rw [running] at step
      rw [queued_append, List.append_assoc (queued other state.events)]
      by_cases same : other = channel
      · subst same
        rw [Function.update_self, step.keeps]
      · rw [Function.update_of_ne same, step.queued_other same,
          List.nil_append]
    · exact absurd exiting (stillNot rfl rfl)
  · exact fun exiting => absurd exiting (stillNot rfl rfl)
  · rintro code (sending | member)
    · exact invariant.status code (.inl sending)
    · exact invariant.status code (.inr (oldEvent member))
  · exact fun code member =>
      absurd (.inr (.inr ⟨code, oldEvent member⟩)) notExiting

theorem Accounts.carry {frames flight : List Frame}
    (accounts : Accounts tty sources state frames flight)
    (sent : sentMessages next.log = sentMessages state.log)
    (loop : next.loop = state.loop)
    (bytes : ∀ channel,
      queued channel next.events ++ (next.pumps channel).left =
        queued channel state.events ++ (state.pumps channel).left) :
    Accounts tty sources next frames flight where
  sent := sent.trans accounts.sent
  loop := loop ▸ accounts.loop
  allowed := accounts.allowed
  bytes channel := bytes channel ▸ accounts.bytes channel

/-- A pump that has finished with a live context has nothing left. -/
theorem Pump.Sound.left_nil {pump : Pump} (sound : pump.Sound false)
    (finished : pump.phase.Finished) : pump.left = [] := by
  rcases finished with off | done
  · rw [Pump.left, off]
  · rw [Pump.left, done]
    exact (sound.ended (.inl done)).resolve_right nofun

theorem statusEvent_exit {code reported : Int}
    (same : statusEvent code = .exit reported) :
    reported = code ∧ 0 ≤ code ∧ code ≤ 255 := by
  unfold statusEvent at same
  split at same
  · cases same
  · cases same
    omega

theorem statusEvent_cases (code : Int) :
    (∃ reported, statusEvent code = .exit reported) ∨
      ∃ failure, statusEvent code = .failure failure := by
  unfold statusEvent
  split
  · exact .inr ⟨_, rfl⟩
  · exact .inl ⟨_, rfl⟩

/-- Only the waiter puts an exit into the channel, and it ends with it. -/
theorem BridgeInvariant.no_exit (invariant : BridgeInvariant tty sources state)
    (active : state.waiter ≠ .done) (code : Int) :
    .exit code ∉ state.events := fun member =>
  active (invariant.last code member).1

theorem invariant_call (invariant : BridgeInvariant tty sources state)
    (waiting : state.waiter = .waiting)
    (finished : ∀ channel, (state.pumps channel).phase.Finished) :
    BridgeInvariant tty sources
      { state with waiter := .calling state.cancelled } := by
  have none : ∀ code, .exit code ∉ state.events :=
    invariant.no_exit (by rw [waiting]; nofun)
  have live : Exiting { state with waiter := .calling state.cancelled } →
      state.cancelled = false := by
    rintro (calling | ⟨_, sending⟩ | ⟨code, member⟩)
    · exact WaiterPhase.calling.inj calling
    · cases sending
    · exact absurd member (none code)
  refine ⟨invariant.off, invariant.pumps, invariant.carried, ?_, ?_, nofun, ?_,
    fun code member => absurd member (none code), invariant.concluding,
    invariant.honest⟩
  · intro kept streaming
    obtain ⟨frames, flight, accounts⟩ :=
      invariant.accounts (.inl (kept.elim id live)) streaming
    exact ⟨frames, flight, accounts.carry rfl rfl fun _ => rfl⟩
  · intro exiting channel
    have sound := invariant.pumps channel
    rw [live exiting] at sound
    exact ⟨finished channel, sound.left_nil (finished channel)⟩
  · rintro code (sending | member)
    · cases sending
    · exact absurd member (none code)

theorem invariant_returns (invariant : BridgeInvariant tty sources state)
    (calling : state.waiter = .calling false) (code : Int) :
    BridgeInvariant tty sources
      { state with
        waiter := .sending (statusEvent code)
        log := state.log ++ [.waited code] } := by
  have none : ∀ code, .exit code ∉ state.events :=
    invariant.no_exit (by rw [calling]; nofun)
  refine ⟨invariant.off, invariant.pumps, invariant.carried, ?_, ?_, ?_, ?_,
    fun code member => absurd member (none code),
    invariant.concluding.grow rfl rfl rfl,
    invariant.honest.append (noExit_of_silent rfl)⟩
  · intro _ streaming
    obtain ⟨frames, flight, accounts⟩ :=
      invariant.accounts (.inr (.inl calling)) streaming
    refine ⟨frames, flight, accounts.carry ?_ rfl fun _ => rfl⟩
    exact (sentMessages_append _ _).trans (List.append_nil _)
  · exact fun _ => invariant.settled (.inl calling)
  · intro event sending
    cases sending
    exact statusEvent_cases code
  · rintro reported (sending | member)
    · obtain ⟨rfl, range⟩ := statusEvent_exit (WaiterPhase.sending.inj sending)
      exact ⟨List.mem_append_right _ (List.mem_singleton_self _), range⟩
    · exact absurd member (none reported)

theorem invariant_fails (invariant : BridgeInvariant tty sources state)
    {cancelled : Bool} (calling : state.waiter = .calling cancelled) :
    BridgeInvariant tty sources
      { state with waiter := .sending (.failure .wait) } := by
  have none : ∀ code, .exit code ∉ state.events :=
    invariant.no_exit (by rw [calling]; nofun)
  have notExiting :
      ¬ Exiting { state with waiter := .sending (.failure .wait) } := by
    rintro (calling | ⟨_, sending⟩ | ⟨code, member⟩)
    · cases calling
    · cases sending
    · exact none code member
  refine ⟨invariant.off, invariant.pumps, invariant.carried, ?_,
    fun exiting => absurd exiting notExiting, ?_, ?_,
    fun code member => absurd member (none code), invariant.concluding,
    invariant.honest⟩
  · intro kept streaming
    obtain ⟨frames, flight, accounts⟩ :=
      invariant.accounts (.inl (kept.resolve_right notExiting)) streaming
    exact ⟨frames, flight, accounts.carry rfl rfl fun _ => rfl⟩
  · intro event sending
    cases sending
    exact .inr ⟨_, rfl⟩
  · rintro code (sending | member)
    · cases sending
    · exact absurd member (none code)

theorem invariant_send (invariant : BridgeInvariant tty sources state)
    {event : ConsoleEvent} (sending : state.waiter = .sending event) :
    BridgeInvariant tty sources
      { state with waiter := .done, events := state.events ++ [event] } := by
  have none : ∀ code, .exit code ∉ state.events :=
    invariant.no_exit (by rw [sending]; nofun)
  have noData : ∀ channel chunk, event ≠ .data channel chunk := by
    rintro channel chunk rfl
    rcases invariant.outcome _ sending with ⟨_, same⟩ | ⟨_, same⟩ <;> cases same
  have noBytes : ∀ channel, queued channel (state.events ++ [event]) =
      queued channel state.events := by
    intro channel
    rcases invariant.outcome _ sending with ⟨_, rfl⟩ | ⟨_, rfl⟩ <;>
      exact (queued_append _ _ _).trans (List.append_nil _)
  have sent : ∀ {code : Int}, .exit code ∈ state.events ++ [event] →
      event = .exit code := by
    intro code member
    rcases List.mem_append.mp member with old | new
    · exact absurd old (none code)
    · exact (List.mem_singleton.mp new).symm
  have earlier : Exiting
      { state with waiter := .done, events := state.events ++ [event] } →
      Exiting state := by
    rintro (calling | ⟨_, other⟩ | ⟨code, member⟩)
    · cases calling
    · cases other
    · exact .inr (.inl ⟨code, sent member ▸ sending⟩)
  refine ⟨invariant.off, invariant.pumps, ?_, ?_,
    fun exiting => invariant.settled (earlier exiting), nofun, ?_, ?_,
    invariant.concluding, invariant.honest⟩
  · intro channel chunk member
    rcases List.mem_append.mp member with old | new
    · exact invariant.carried channel chunk old
    · exact absurd (List.mem_singleton.mp new).symm (noData channel chunk)
  · intro kept streaming
    obtain ⟨frames, flight, accounts⟩ :=
      invariant.accounts (kept.imp_right earlier) streaming
    refine ⟨frames, flight, accounts.carry rfl rfl fun channel => ?_⟩
    dsimp only
    rw [noBytes]
  · rintro code (other | member)
    · cases other
    · exact invariant.status code (.inl (sent member ▸ sending))
  · intro code member
    cases sent member
    exact ⟨rfl, state.events, rfl, none⟩

theorem invariant_drop (invariant : BridgeInvariant tty sources state)
    {event : ConsoleEvent} (sending : state.waiter = .sending event)
    (cancelled : state.cancelled = true) :
    BridgeInvariant tty sources { state with waiter := .done } := by
  have none : ∀ code, .exit code ∉ state.events :=
    invariant.no_exit (by rw [sending]; nofun)
  have notExiting : ¬ Exiting { state with waiter := .done } := by
    rintro (calling | ⟨_, sending⟩ | ⟨code, member⟩)
    · cases calling
    · cases sending
    · exact none code member
  refine ⟨invariant.off, invariant.pumps, invariant.carried, ?_,
    fun exiting => absurd exiting notExiting, nofun, ?_,
    fun code member => absurd member (none code), invariant.concluding,
    invariant.honest⟩
  · rintro (live | exiting) _
    · cases live.symm.trans cancelled
    · exact absurd exiting notExiting
  · rintro code (sending | member)
    · cases sending
    · exact absurd member (none code)

theorem invariant_waiter (invariant : BridgeInvariant tty sources state)
    {event : BridgeEvent} {emitted : List ConsoleEvent}
    {actions : List BridgeAction} {after : WaiterPhase}
    (step : WaiterStep state event state.waiter emitted actions after) :
    BridgeInvariant tty sources
      { state with
        waiter := after
        events := state.events ++ emitted
        log := state.log ++ actions } := by
  generalize phase : state.waiter = waiter at step
  cases step with
  | call finished =>
      rw [List.append_nil, List.append_nil]
      exact invariant_call invariant phase finished
  | returns =>
      rw [List.append_nil]
      exact invariant_returns invariant phase _
  | fails =>
      rw [List.append_nil, List.append_nil]
      exact invariant_fails invariant phase
  | send =>
      rw [List.append_nil]
      exact invariant_send invariant phase
  | drop cancelled =>
      rw [List.append_nil, List.append_nil]
      exact invariant_drop invariant phase cancelled

theorem InputStep.silent {cancelled : Bool} {event : BridgeEvent}
    {phase after : InputPhase} {actions : List BridgeAction}
    (step : InputStep tty cancelled event phase actions after) :
    sentMessages actions = [] := by
  cases step with
  | accepted | refused | interrupted => rfl
  | disconnected closing reason =>
      rcases reason with rfl | ⟨_, rfl⟩ <;> rfl

theorem invariant_input (invariant : BridgeInvariant tty sources state)
    {event : BridgeEvent} {actions : List BridgeAction} {after : InputPhase}
    (step : InputStep tty state.cancelled event state.input actions after) :
    BridgeInvariant tty sources
      { state with input := after, log := state.log ++ actions } := by
  have silent : sentMessages actions = [] := step.silent
  refine ⟨invariant.off, invariant.pumps, invariant.carried, ?_,
    invariant.settled, invariant.outcome, ?_, invariant.last,
    invariant.concluding.grow rfl rfl silent,
    invariant.honest.append (noExit_of_silent silent)⟩
  · intro kept streaming
    obtain ⟨frames, flight, accounts⟩ := invariant.accounts kept streaming
    refine ⟨frames, flight, accounts.carry ?_ rfl fun _ => rfl⟩
    dsimp only
    rw [sentMessages_append, silent, List.append_nil]
  · intro code pending
    obtain ⟨waited, range⟩ := invariant.status code pending
    exact ⟨List.mem_append_left _ waited, range⟩

/-- What the loop has to show for a step: the rest follows from what it leaves
alone. -/
theorem BridgeInvariant.advance (invariant : BridgeInvariant tty sources state)
    {taken : List ConsoleEvent} {actions : List BridgeAction}
    (pumps : next.pumps = state.pumps) (waiter : next.waiter = state.waiter)
    (cancelled : next.cancelled = false → state.cancelled = false)
    (events : state.events = taken ++ next.events)
    (log : next.log = state.log ++ actions)
    (accounts : (next.cancelled = false ∨ Exiting state) → Streaming next →
      ∃ frames flight, Accounts tty sources next frames flight)
    (concluding : Concluding tty sources next)
    (honest : Honest tty sources next.log) :
    BridgeInvariant tty sources next := by
  have old : ∀ {event}, event ∈ next.events → event ∈ state.events := by
    intro event member
    rw [events]
    exact List.mem_append_right _ member
  have earlier : Exiting next → Exiting state := by
    rintro (calling | ⟨code, sending⟩ | ⟨code, member⟩)
    · exact .inl (waiter ▸ calling)
    · exact .inr (.inl ⟨code, waiter ▸ sending⟩)
    · exact .inr (.inr ⟨code, old member⟩)
  refine ⟨?_, ?_, fun channel chunk member =>
    invariant.carried channel chunk (old member),
    fun kept => accounts (kept.imp_right earlier), ?_, ?_, ?_, ?_, concluding,
    honest⟩
  · rw [pumps]
    exact invariant.off
  · intro channel
    rw [pumps]
    cases live : next.cancelled with
    | true => exact (invariant.pumps channel).cancel
    | false =>
        rw [← cancelled live]
        exact invariant.pumps channel
  · rw [pumps]
    exact fun exiting => invariant.settled (earlier exiting)
  · rw [waiter]
    exact invariant.outcome
  · intro code pending
    rw [waiter] at pending
    obtain ⟨waited, range⟩ := invariant.status code (pending.imp_right old)
    rw [log]
    exact ⟨List.mem_append_left _ waited, range⟩
  · intro code member
    obtain ⟨done, front, final, first⟩ := invariant.last code (old member)
    refine ⟨waiter.trans done, ?_⟩
    rcases List.eq_nil_or_concat next.events with empty | ⟨rest, event, same⟩
    · rw [empty] at member
      cases member
    · rw [same, final, List.concat_eq_append, ← List.append_assoc] at events
      obtain ⟨rfl, single⟩ := List.append_inj' events rfl
      cases single
      exact ⟨rest, same.trans List.concat_eq_append, fun other inside =>
        first other (List.mem_append_right _ inside)⟩

theorem outputFrame_ok {channel : Channel} {chunk raw : Bytes}
    (framed : outputFrame channel.byte chunk = .ok raw) :
    raw = channel.byte :: chunk := by
  unfold outputFrame frame at framed
  split at framed
  · cases framed
  · split at framed
    · cases framed
    · cases framed
      rfl

theorem payloads_append (channel : Channel) (front back : List Frame) :
    payloads channel (front ++ back) =
      payloads channel front ++ payloads channel back := by
  rw [payloads, List.filter_append, List.flatMap_append]
  rfl

theorem payloads_singleton (channel : Channel) (frame : Frame) :
    payloads channel [frame] =
      ConsoleEvent.bytes channel (.data frame.channel frame.payload) := by
  by_cases same : frame.channel = channel <;>
    simp [payloads, ConsoleEvent.bytes, same]

/-- While the loop selects, no frame is under way. -/
theorem Accounts.idle {frames flight : List Frame}
    (accounts : Accounts tty sources state frames flight)
    (selecting : state.loop = .selecting) : flight = [] := by
  rcases accounts.loop with ⟨-, none⟩ | ⟨_, writing, -⟩
  · exact none
  · cases selecting.symm.trans writing

theorem invariant_takeData (invariant : BridgeInvariant tty sources state)
    {channel : Channel} {chunk raw : Bytes} {rest : List ConsoleEvent}
    (selecting : state.loop = .selecting)
    (events : state.events = .data channel chunk :: rest)
    (framed : outputFrame channel.byte chunk = .ok raw) :
    BridgeInvariant tty sources (state.take rest (.writing raw)) := by
  have taken : state.events = [.data channel chunk] ++ rest := events
  refine invariant.advance rfl rfl id taken (List.append_nil _).symm ?_ trivial
    invariant.honest
  intro kept _
  obtain ⟨frames, flight, accounts⟩ :=
    invariant.accounts kept (.inl selecting)
  cases accounts.idle selecting
  obtain ⟨sent, -, allowed, bytes⟩ := accounts
  rw [List.append_nil] at allowed bytes
  obtain ⟨bounded, single⟩ :=
    invariant.carried channel chunk (events ▸ List.mem_cons_self)
  have fits : chunk.length < 2 ^ 32 := Nat.lt_trans bounded (by decide)
  refine ⟨frames, [⟨channel, chunk, fits⟩], sent,
    .inr ⟨_, congrArg _ (outputFrame_ok framed), rfl⟩, ?_, ?_⟩
  · intro frame member
    rcases List.mem_append.mp member with before | added
    · exact allowed frame before
    · cases List.mem_singleton.mp added
      exact ⟨bounded, single⟩
  · intro other
    rw [← bytes other, events, payloads_append, payloads_singleton,
      List.append_assoc]
    show _ = _ ++ ((ConsoleEvent.bytes other _ ++ queued other rest) ++ _)
    rw [List.append_assoc (ConsoleEvent.bytes other _)]
    rfl

theorem invariant_takeExit (invariant : BridgeInvariant tty sources state)
    {code : Int} {rest : List ConsoleEvent}
    (selecting : state.loop = .selecting)
    (events : state.events = .exit code :: rest) :
    BridgeInvariant tty sources
      (state.take rest (.closingSession code)) := by
  have member : .exit code ∈ state.events := events ▸ List.mem_cons_self
  have exiting : Exiting state := .inr (.inr ⟨code, member⟩)
  have taken : state.events = [.exit code] ++ rest := events
  refine invariant.advance rfl rfl id taken (List.append_nil _).symm
    (fun _ streaming => ?_) ?_ invariant.honest
  · rcases streaming with same | ⟨_, same⟩ <;> cases same
  · obtain ⟨frames, flight, accounts⟩ :=
      invariant.accounts (.inr exiting) (.inl selecting)
    cases accounts.idle selecting
    obtain ⟨sent, -, allowed, bytes⟩ := accounts
    rw [List.append_nil] at allowed bytes
    obtain ⟨waited, lower, upper⟩ := invariant.status code (.inr member)
    obtain ⟨-, front, final, first⟩ := invariant.last code member
    -- nothing stands behind an exit
    have single : state.events = [.exit code] := by
      cases front with
      | nil => exact final
      | cons event front =>
          rw [final, List.cons_append] at events
          cases (List.cons.inj events).1
          exact absurd List.mem_cons_self (first code)
    refine ⟨⟨frames, sent, allowed, fun channel => ?_⟩, waited, lower, upper⟩
    have all := bytes channel
    rw [single, (invariant.settled exiting channel).2] at all
    exact (List.append_nil _).symm.trans all

theorem invariant_write (invariant : BridgeInvariant tty sources state)
    {raw : Bytes} (writing : state.loop = .writing raw) :
    BridgeInvariant tty sources
      (state.record [.sent ⟨.binary, raw⟩] .selecting) := by
  refine invariant.advance rfl rfl id (List.nil_append _).symm rfl ?_ trivial
    (invariant.honest.append (noExit_binary raw))
  intro kept _
  obtain ⟨frames, flight, sent, loop, allowed, bytes⟩ :=
    invariant.accounts kept (.inr ⟨raw, writing⟩)
  rcases loop with ⟨selecting, -⟩ | ⟨frame, same, rfl⟩
  · cases selecting.symm.trans writing
  · cases same.symm.trans writing
    refine ⟨frames ++ [frame], [], ?_, .inl ⟨rfl, rfl⟩, ?_, ?_⟩
    · show sentMessages (state.log ++ _) = _
      rw [sentMessages_append, sent, List.map_append]
      rfl
    · rw [List.append_nil]
      exact allowed
    · rw [List.append_nil]
      exact bytes

/-- A step with which the loop gives up. -/
theorem invariant_giveUp (invariant : BridgeInvariant tty sources state)
    {taken : List ConsoleEvent} {actions : List BridgeAction}
    (pumps : next.pumps = state.pumps) (waiter : next.waiter = state.waiter)
    (cancelled : next.cancelled = false → state.cancelled = false)
    (events : state.events = taken ++ next.events)
    (log : next.log = state.log ++ actions)
    (loop : (∃ failure, next.loop = .reporting failure) ∨
      next.loop = .refusing ∨ next.loop = .returned)
    (honest : Honest tty sources next.log) :
    BridgeInvariant tty sources next := by
  refine invariant.advance pumps waiter cancelled events log
    (fun _ streaming => ?_) ?_ honest
  · rcases loop with ⟨_, same⟩ | same | same <;>
      rcases streaming with other | ⟨_, other⟩ <;>
      cases same.symm.trans other
  · unfold Concluding
    rcases loop with ⟨_, same⟩ | same | same <;> rw [same] <;> trivial

theorem invariant_loop (invariant : BridgeInvariant tty sources state)
    {text : BridgeFailure → Bytes} {succeeds : Bool}
    (step : LoopStep tty text state succeeds next) :
    BridgeInvariant tty sources next := by
  have same : state.events = [] ++ state.events := rfl
  have nothing : state.log = state.log ++ [] := (List.append_nil _).symm
  have leaves : ∀ {kept : Prop}, next.loop ≠ .selecting →
      (∀ raw, next.loop ≠ .writing raw) → kept → Streaming next →
      ∃ frames flight, Accounts tty sources next frames flight := by
    rintro kept selecting writing _ (same | ⟨raw, same⟩)
    · exact absurd same selecting
    · exact absurd same (writing raw)
  have concluded : ∀ {code}, state.loop = .writingExit code →
      Concluded tty sources state.log code := by
    intro code writing
    have concluding := invariant.concluding
    rw [Concluding, writing] at concluding
    exact concluding
  have quiet : ∀ {actions}, sentMessages actions = [] →
      Honest tty sources (state.log ++ actions) := fun silent =>
    invariant.honest.append (noExit_of_silent silent)
  have closing : ∀ delivered status, Honest tty sources
      (state.log ++ attempt delivered (.closedConnection status)) := by
    intro delivered status
    refine invariant.honest.append (noExit_attempt ?_ delivered)
    exact noExit_of_silent rfl
  cases step with
  | takeInput | takeDone =>
      exact invariant_giveUp invariant rfl rfl id same nothing
        (.inl ⟨_, rfl⟩) invariant.honest
  | @takeFailure failure rest _ events =>
      have taken : state.events = [.failure failure] ++ rest := events
      exact invariant_giveUp invariant rfl rfl id taken nothing
        (.inl ⟨_, rfl⟩) invariant.honest
  | takeExit selecting events =>
      exact invariant_takeExit invariant selecting events
  | takeData selecting events _ framed =>
      exact invariant_takeData invariant selecting events framed
  | @takeSeparate chunk rest _ events _ =>
      have taken : state.events = [.data .stderr chunk] ++ rest := events
      exact invariant_giveUp invariant rfl rfl id taken nothing
        (.inl ⟨_, rfl⟩) invariant.honest
  | @takeOversized channel chunk error rest _ events =>
      have taken : state.events = [.data channel chunk] ++ rest := events
      exact invariant_giveUp invariant rfl rfl id taken nothing
        (.inl ⟨_, rfl⟩) invariant.honest
  | write writing => exact invariant_write invariant writing
  | writeFails delivered =>
      exact invariant_giveUp invariant rfl rfl id same rfl (.inl ⟨_, rfl⟩)
        (invariant.honest.append
          (noExit_attempt (noExit_binary _) delivered))
  | @closeSession code closing =>
      have complete : Complete tty sources state.log code := by
        have concluding := invariant.concluding
        rw [Concluding, closing] at concluding
        exact concluding
      exact invariant.advance rfl rfl id same rfl (leaves nofun nofun)
        ⟨state.log, [], rfl, complete, rfl⟩ (quiet rfl)
  | closeSessionFails =>
      exact invariant_giveUp invariant rfl rfl id same rfl (.inl ⟨_, rfl⟩)
        (quiet rfl)
  | writeExit writing =>
      exact invariant.advance rfl rfl id same rfl (leaves nofun nofun)
        trivial (invariant.honest.exit (concluded writing))
  | writeExitFails delivered writing =>
      refine invariant_giveUp invariant rfl rfl id same rfl (.inl ⟨_, rfl⟩) ?_
      cases delivered with
      | false => exact quiet rfl
      | true => exact invariant.honest.exit (concluded writing)
  | closeConnection =>
      exact invariant.advance rfl rfl nofun same rfl (leaves nofun nofun)
        trivial (quiet rfl)
  | closeConnectionFails delivered =>
      exact invariant.advance rfl rfl id same rfl (leaves nofun nofun)
        trivial (closing delivered _)
  | report =>
      refine invariant_giveUp invariant rfl rfl id same rfl
        (.inr (.inl rfl)) (invariant.honest.append
          (noExit_attempt ?_ succeeds))
      intro raw code member
      cases List.mem_singleton.mp member
      exact writeConsoleError_no_exit _ code
  | refuse =>
      exact invariant_giveUp invariant rfl rfl nofun same rfl
        (.inr (.inr rfl)) (closing succeeds _)

theorem BridgeStep.invariant {text : BridgeFailure → Bytes}
    {event : BridgeEvent} (step : BridgeStep tty text state event next)
    (invariant : BridgeInvariant tty sources state) :
    BridgeInvariant tty sources next := by
  cases step with
  | cancel => exact invariant_cancel invariant
  | pump moved _ => exact invariant_pump invariant moved
  | waiter moved _ => exact invariant_waiter invariant moved
  | input moved => exact invariant_input invariant moved
  | loop moved => exact invariant_loop invariant moved

theorem bridge_invariant {text : BridgeFailure → Bytes}
    (reachable : (bridgeSystem tty text sources).Reachable state) :
    BridgeInvariant tty sources state := by
  refine reachable.invariant (BridgeInvariant tty sources) ?_ ?_
  · rintro _ rfl
    exact invariant_initial
  · intro state event next invariant step
    exact step.invariant invariant

end Steps

theorem kind_of_frames {frames : List Frame} {message : Message}
    (member : message ∈ frames.map Frame.message) : message.kind = .binary := by
  obtain ⟨frame, -, rfl⟩ := List.mem_map.mp member
  rfl

theorem sentMessages_last {log : List BridgeAction} {front : List Message}
    {message : Message} (sent : sentMessages log = front ++ [message]) :
    ∃ before after, log = before ++ .sent message :: after ∧
      sentMessages before = front ∧ sentMessages after = [] := by
  obtain ⟨before, rest, rfl, first, last⟩ :=
    List.filterMap_eq_append_iff.mp sent
  obtain ⟨silent, action, after, rfl, none, sends, nothing⟩ :=
    List.filterMap_eq_cons_iff.mp last
  refine ⟨before ++ silent, after, ?_, ?_, nothing⟩
  · cases action with
    | sent other =>
        cases sends
        rw [List.append_assoc]
    | waited | closedSession | closedConnection => cases sends
  · rw [sentMessages_append, sentMessages, first, sentMessages,
      List.filterMap_eq_nil_iff.mpr none, List.append_nil]

/-- If the client returns a status, it has written all the output, the command
has ended with that status, and the session had been closed before the status
was sent. -/
theorem reported_status_genuine {tty : Bool} {text : BridgeFailure → Bytes}
    {sources : Channel → Source} {state : Bridge}
    (reachable : (bridgeSystem tty text sources).Reachable state)
    {messages : List Message} {ending : ReadError}
    (view : ClientView state.log messages ending)
    {answers : Nat → WriteAnswer} {code : Int} {output : Output}
    (success : readRemoteConsole tty answers ending messages .initial =
      (.ok code, output)) :
    output = ⟨(sources .stdout).bytes,
        if tty then [] else (sources .stderr).bytes⟩ ∧
      0 ≤ code ∧ code ≤ 255 ∧
      ∃ front back, state.log = front ++ .closedSession :: back ∧
        .waited code ∈ front ∧
        (∀ message ∈ sentMessages front, message.kind = .binary) ∧
        exitMessage code ∈ sentMessages back := by
  have invariant := bridge_invariant reachable
  cases view with
  | failed =>
      obtain ⟨frames, rest, front⟩ := exists_outputFront tty messages
      obtain ⟨-, -, closed⟩ := ((readRemoteConsole_front front).2 code).mp
        (congrArg Prod.fst success)
      cases closed
  | @closed before after status log =>
      obtain ⟨frames, rest, split⟩ :=
        exists_outputFront tty (sentMessages before)
      obtain ⟨-, ⟨raw, rfl, parsed⟩, normal⟩ :=
        ((readRemoteConsole_front split).2 code).mp (congrArg Prod.fst success)
      cases normal
      obtain ⟨ahead, behind, rfl, sent, nothing⟩ :=
        sentMessages_last split.split
      rw [List.append_assoc] at log
      obtain ⟨rfl, front, back, rfl, complete, silent⟩ :=
        invariant.honest ahead _ _ log raw code rfl parsed
      obtain ⟨⟨frames, framed, allowed, bytes⟩, waited, lower, upper⟩ :=
        complete
      have outputFront : OutputFront tty (sentMessages
          ((front ++ .closedSession :: back) ++
            .sent (exitMessage code) :: behind)) frames
          [exitMessage code] := by
        refine ⟨?_, allowed, noOutput_text tty _⟩
        rw [sentMessages_append, sentMessages_append, framed]
        show _ ++ sentMessages back ++
          (exitMessage code :: sentMessages behind) = _
        rw [silent, nothing, List.append_nil]
      obtain ⟨all, reports⟩ := @readRemoteConsole_front tty answers
        (.closed statusNormalClosure) _ _ _ outputFront
      obtain ⟨written, -, -⟩ := (reports code).mp (congrArg Prod.fst success)
      refine ⟨?_, lower, upper, front, back ++ .sent (exitMessage code) ::
        (behind ++ .closedConnection statusNormalClosure :: after), ?_,
        waited, ?_, ?_⟩
      · calc output
            _ = received frames :=
              (congrArg Prod.snd success).symm.trans (all written)
            _ = _ := congrArg₂ Output.mk (bytes .stdout) (bytes .stderr)
      · rw [log, List.append_assoc]
        rfl
      · intro message member
        rw [framed] at member
        exact kind_of_frames member
      · rw [sentMessages_append]
        exact List.mem_append_right _ List.mem_cons_self

/-- A command that writes one byte and succeeds. -/
def greeting : Channel → Source
  | .stdout => ⟨[[104]], true, .eof⟩
  | .stderr => ⟨[], true, .eof⟩

def greetingLog : List BridgeAction :=
  [.waited 0, .sent ⟨.binary, [1, 104]⟩, .closedSession,
    .sent (exitMessage 0), .closedConnection statusNormalClosure]

/-- The reader of the input waits for the client until the context ends. -/
theorem greeting_reachable (text : BridgeFailure → Bytes) : ∃ state,
    (bridgeSystem false text greeting).Reachable state ∧
      state.log = greetingLog ∧ state.loop = .returned ∧
      (∀ channel, (state.pumps channel).phase = .done) ∧
      state.waiter = .done ∧ state.input = .finished .disconnected := by
  have start : (bridgeSystem false text greeting).Reachable
      (.initial false greeting) := .initial rfl
  have read := start.step
    (@BridgeStep.pump _ _ _ .stdout _ _ .read (by decide))
  have queued := read.step
    (@BridgeStep.pump _ _ _ .stdout _ _ .send (by decide))
  have silent := queued.step
    (@BridgeStep.pump _ _ _ .stderr _ _ .read (by decide))
  have called := silent.step (.waiter (.call (by
    intro channel
    cases channel <;> exact .inr rfl)) (by decide))
  have waited := called.step (.waiter (@WaiterStep.returns _ 0 (by
    intro channel _
    cases channel <;> rfl)) (by decide))
  have taken := waited.step (.loop (.takeData rfl rfl (by decide) rfl))
  have written := taken.step (.loop (.write rfl))
  have status := written.step (.waiter .send (by decide))
  have exit := status.step (.loop (.takeExit rfl rfl))
  have closed := exit.step (.loop (.closeSession rfl))
  have sent := closed.step (.loop (.writeExit rfl))
  have returned := sent.step (.loop (.closeConnection rfl))
  refine ⟨_, returned.step (.input (.interrupted rfl List.mem_cons_self)),
    rfl, rfl, ?_, rfl, rfl⟩
  intro channel
  cases channel <;> rfl

theorem greeting_genuine :
    ∃ state, (bridgeSystem false (fun _ => []) greeting).Reachable state ∧
      ClientView state.log [⟨.binary, [1, 104]⟩, exitMessage 0]
        (.closed statusNormalClosure) ∧
      readRemoteConsole false (fun _ => ⟨1, false⟩)
        (.closed statusNormalClosure) [⟨.binary, [1, 104]⟩, exitMessage 0]
        .initial = (.ok 0, ⟨[104], []⟩) ∧
      ∃ front back, state.log = front ++ .closedSession :: back ∧
        .waited 0 ∈ front := by
  obtain ⟨state, reachable, log, -⟩ := greeting_reachable fun _ => []
  have view : ClientView state.log [⟨.binary, [1, 104]⟩, exitMessage 0]
      (.closed statusNormalClosure) :=
    @ClientView.closed _ greetingLog.dropLast [] _ log
  have success : readRemoteConsole false (fun _ => ⟨1, false⟩)
      (.closed statusNormalClosure) [⟨.binary, [1, 104]⟩, exitMessage 0]
      .initial = (.ok 0, ⟨[104], []⟩) := by decide
  obtain ⟨-, -, -, front, back, split, waited, -⟩ :=
    reported_status_genuine reachable view success
  exact ⟨state, reachable, view, success, front, back, split, waited⟩

end Nephos.Console
