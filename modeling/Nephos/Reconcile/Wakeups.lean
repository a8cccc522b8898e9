import Mathlib.Logic.Function.Basic
import Nephos.Reconcile.Queue

/-!
# Waking a controller

`Enqueue` first adds the id under the lock and then sends on a channel with one
slot, without blocking.  `Run` takes ids until nothing is pending and then
waits for the channel, a tick, the resync or the end of its context.  The two
controllers differ in when they look at their context, which here is one of
the ways to return while an id is worked on.
-/

namespace Nephos

open Transition

/-- Where a goroutine that calls `Enqueue` is. -/
inductive CallStage where
  | idle
  | entering (id : ID)
  /-- Between its insertion and its send. -/
  | sending
deriving DecidableEq, Repr

/-- Where the loop is. -/
inductive RunStage where
  /-- Before its next `pop`. -/
  | draining
  /-- In `reconcileLocked`, called by the loop or by `Sweep`. -/
  | working (id : ID) (swept : Bool)
  /-- In an `Enqueue` of its own, between the insertion and the send. -/
  | hinting (id : ID) (swept : Bool)
  /-- In `Sweep`, between two ids. -/
  | sweeping
  /-- In `select`. -/
  | blocked
  | returned
deriving DecidableEq, Repr

/-- A controller's queue, its channel, its loop and the goroutines that call
`Enqueue`. -/
structure Hints (Goroutine : Type) where
  queue : Queue
  wake : Bool
  run : RunStage
  callers : Goroutine → CallStage

inductive HintEvent (Goroutine : Type) where
  | call (caller : Goroutine) (id : ID)
  | insert (caller : Goroutine)
  | send (caller : Goroutine)
  /-- `retry` or `clearRetry` in the sweep at the daemon's start. -/
  | startup (id : ID)
  | pop (id : ID)
  | work
  | finish
  | fail
  | wake
  | tick (order : List ID)
  | resync
  | cancel
deriving DecidableEq, Repr

section System

variable {Goroutine : Type} [DecidableEq Goroutine]

inductive HintStep (state : Hints Goroutine) :
    HintEvent Goroutine → Hints Goroutine → Prop where
  /-- An empty id is not entered. -/
  | call {caller : Goroutine} {id : ID} : state.callers caller = .idle →
      id ≠ "" → HintStep state (.call caller id)
        { state with
          callers := Function.update state.callers caller (.entering id) }
  | insert {caller : Goroutine} {id : ID} :
      state.callers caller = .entering id →
      HintStep state (.insert caller)
        { state with
          queue := state.queue.enqueue id
          callers := Function.update state.callers caller .sending }
  /-- The channel holds a token afterwards, the new one or the old one. -/
  | send {caller : Goroutine} : state.callers caller = .sending →
      HintStep state (.send caller)
        { state with
          wake := true
          callers := Function.update state.callers caller .idle }
  | startupRetry {id : ID} (now : Int) : id ≠ "" →
      HintStep state (.startup id)
        { state with queue := state.queue.retry now id }
  | startupClear {id : ID} :
      HintStep state (.startup id)
        { state with queue := state.queue.clearRetry id }
  | pop {id : ID} : state.run = .draining → id ∈ state.queue.pending →
      id ≠ "" → HintStep state (.pop id)
        { state with
          queue := state.queue.pop id
          run := .working id false }
  /-- The empty id ends the inner loop like an empty queue. -/
  | popEmptyID : state.run = .draining → "" ∈ state.queue.pending →
      HintStep state (.pop "")
        { state with queue := state.queue.pop "", run := .blocked }
  | popNothing : state.run = .draining → state.queue.pending = ∅ →
      HintStep state (.pop "") { state with run := .blocked }
  | workEnqueue {id : ID} {swept : Bool} : state.run = .working id swept →
      HintStep state .work
        { state with
          queue := state.queue.enqueue id
          run := .hinting id swept }
  | workSend {id : ID} {swept : Bool} : state.run = .hinting id swept →
      HintStep state .work
        { state with wake := true, run := .working id swept }
  | workRetry {id : ID} {swept : Bool} (now : Int) :
      state.run = .working id swept →
      HintStep state .work { state with queue := state.queue.retry now id }
  | workClear {id : ID} {swept : Bool} : state.run = .working id swept →
      HintStep state .work { state with queue := state.queue.clearRetry id }
  | finishPopped {id : ID} : state.run = .working id false →
      HintStep state .finish { state with run := .draining }
  | finishSwept {id : ID} : state.run = .working id true →
      HintStep state .finish { state with run := .sweeping }
  | sweepNext {id : ID} : state.run = .sweeping → id ≠ "" →
      HintStep state .work { state with run := .working id true }
  | sweepDone : state.run = .sweeping →
      HintStep state .finish { state with run := .draining }
  | failWork {id : ID} {swept : Bool} : state.run = .working id swept →
      HintStep state .fail { state with run := .returned }
  | failSweep : state.run = .sweeping →
      HintStep state .fail { state with run := .returned }
  | wake : state.run = .blocked → state.wake = true →
      HintStep state .wake { state with wake := false, run := .draining }
  | tick {order : List ID} (now : Int) : state.run = .blocked →
      order.Perm state.queue.retries.keys →
      HintStep state (.tick order)
        { state with
          queue := state.queue.enqueueDueRetries now order
          run := .draining }
  | resync : state.run = .blocked →
      HintStep state .resync { state with run := .sweeping }
  | cancel : state.run = .blocked →
      HintStep state .cancel { state with run := .returned }

def hintSystem (Goroutine : Type) [DecidableEq Goroutine] :
    System (Hints Goroutine) (HintEvent Goroutine) where
  Initial state := state.queue = .empty ∧ state.wake = false ∧
    state.run = .draining ∧ ∀ caller, state.callers caller = .idle
  Step := HintStep

end System

/-- The empty id, which `pop` returns for an empty queue, is nowhere in the
queue. -/
def Queue.Named (queue : Queue) : Prop :=
  "" ∉ queue.pending ∧ "" ∉ queue.retries

namespace Queue

variable {queue : Queue} {now : Int} {id : ID}

theorem Named.enqueue (named : queue.Named) : (queue.enqueue id).Named := by
  unfold Queue.enqueue
  split
  · exact named
  · rename_i nonempty
    split
    · refine ⟨?_, named.2⟩
      rw [Finset.mem_insert, not_or]
      exact ⟨Ne.symm nonempty, named.1⟩
    · exact named

theorem Named.retry (named : queue.Named) (nonempty : id ≠ "") :
    (queue.retry now id).Named := by
  unfold Queue.retry
  split
  · exact named
  · refine ⟨named.1, ?_⟩
    rw [AList.mem_insert, not_or]
    exact ⟨Ne.symm nonempty, named.2⟩

theorem Named.clearRetry (named : queue.Named) :
    (queue.clearRetry id).Named :=
  ⟨named.1, fun member => named.2 (AList.mem_erase.mp member).2⟩

theorem Named.pop (named : queue.Named) : (queue.pop id).Named :=
  ⟨fun member => named.1 (Finset.mem_of_mem_erase member), named.2⟩

theorem Named.visit (named : queue.Named) : (queue.visit now id).Named := by
  unfold Queue.visit
  split
  · exact named
  · rename_i entry found
    split
    · have nonempty : id ≠ "" := by
        rintro rfl
        rw [AList.lookup_eq_none.mpr named.2] at found
        cases found
      constructor
      · rw [Finset.mem_insert, not_or]
        exact ⟨Ne.symm nonempty, named.1⟩
      · rw [AList.mem_insert, not_or]
        exact ⟨Ne.symm nonempty, named.2⟩
    · exact named

theorem Named.enqueueDueRetries {order : List ID} (named : queue.Named) :
    (queue.enqueueDueRetries now order).Named := by
  unfold Queue.enqueueDueRetries
  induction order generalizing queue with
  | nil => exact named
  | cons first order induction => exact induction named.visit

end Queue

def RunStage.Named : RunStage → Prop
  | .working id _ | .hinting id _ => id ≠ ""
  | _ => True

section Invariant

variable {Goroutine : Type} [DecidableEq Goroutine]
variable {state next : Hints Goroutine} {event : HintEvent Goroutine}

theorem HintStep.named (queue : state.queue.Named) (stage : state.run.Named)
    (step : HintStep state event next) :
    next.queue.Named ∧ next.run.Named := by
  cases step with
  | call idle nonempty => exact ⟨queue, stage⟩
  | insert entering => exact ⟨queue.enqueue, stage⟩
  | send sending => exact ⟨queue, stage⟩
  | startupRetry now nonempty => exact ⟨queue.retry nonempty, stage⟩
  | startupClear => exact ⟨queue.clearRetry, stage⟩
  | pop draining member nonempty => exact ⟨queue.pop, nonempty⟩
  | popEmptyID draining member => exact absurd member queue.1
  | popNothing draining none => exact ⟨queue, trivial⟩
  | workEnqueue working =>
      rw [working] at stage
      exact ⟨queue.enqueue, stage⟩
  | workSend hinting =>
      rw [hinting] at stage
      exact ⟨queue, stage⟩
  | workRetry now working =>
      have nonempty := stage
      rw [working] at nonempty
      exact ⟨queue.retry nonempty, stage⟩
  | workClear working => exact ⟨queue.clearRetry, stage⟩
  | finishPopped | finishSwept | sweepDone | failWork | failSweep | wake
  | resync | cancel => exact ⟨queue, trivial⟩
  | sweepNext sweeping nonempty => exact ⟨queue, nonempty⟩
  | tick now blocked visited => exact ⟨queue.enqueueDueRetries, trivial⟩

/-- While the loop waits with something pending, the channel holds a token or
will be given one. -/
def Hints.Signalled (state : Hints Goroutine) : Prop :=
  state.run = .blocked → state.queue.pending.Nonempty →
    state.wake = true ∨ ∃ caller, state.callers caller = .sending

omit [DecidableEq Goroutine] in
theorem Hints.Signalled.of_eq (signalled : state.Signalled)
    (run : next.run = state.run)
    (pending : next.queue.pending = state.queue.pending)
    (wake : next.wake = state.wake) (callers : next.callers = state.callers) :
    next.Signalled := by
  unfold Hints.Signalled at signalled ⊢
  rw [run, pending, wake, callers]
  exact signalled

theorem HintStep.signalled (queue : state.queue.Named)
    (signalled : state.Signalled) (step : HintStep state event next) :
    next.Signalled := by
  cases step with
  | @call caller id idle nonempty =>
      intro blocked pending
      refine (signalled blocked pending).imp_right ?_
      rintro ⟨other, sending⟩
      have differ : other ≠ caller := by
        rintro rfl
        rw [idle] at sending
        cases sending
      exact ⟨other, (Function.update_of_ne differ _ _).trans sending⟩
  | @insert caller id entering =>
      intro _ _
      exact .inr ⟨caller, Function.update_self caller _ _⟩
  | send sending =>
      intro _ _
      exact .inl rfl
  | startupRetry now nonempty =>
      exact signalled.of_eq rfl Queue.retry_pending rfl rfl
  | startupClear => exact signalled.of_eq rfl rfl rfl rfl
  | popEmptyID draining member => exact absurd member queue.1
  | popNothing draining none =>
      intro _ pending
      rw [none] at pending
      exact absurd pending Finset.not_nonempty_empty
  | workRetry now working =>
      exact signalled.of_eq rfl Queue.retry_pending rfl rfl
  | workClear working => exact signalled.of_eq rfl rfl rfl rfl
  -- After every other step the loop is not in `select`.
  | pop | workEnqueue | workSend | finishPopped | finishSwept | sweepNext
  | sweepDone | failWork | failSweep | wake | tick | resync | cancel =>
      intro blocked
      cases blocked

theorem hintSystem_invariant
    (reachable : (hintSystem Goroutine).Reachable state) :
    (state.queue.Named ∧ state.run.Named) ∧ state.Signalled := by
  refine reachable.invariant
    (fun state => (state.queue.Named ∧ state.run.Named) ∧ state.Signalled)
    ?_ ?_
  · rintro state ⟨queue, wake, run, idle⟩
    refine ⟨⟨?_, ?_⟩, ?_⟩
    · rw [queue]
      exact ⟨Finset.notMem_empty "", AList.notMem_empty ""⟩
    · rw [run]
      trivial
    · intro blocked
      rw [run] at blocked
      cases blocked
  · rintro state event next ⟨named, signalled⟩ step
    exact ⟨HintStep.named named.1 named.2 step,
      HintStep.signalled named.1 signalled step⟩

end Invariant

/-- Whenever the loop waits with something pending, the channel holds a token
or some `Enqueue` is between its insertion and its send.  So when every call
has returned, a loop with something pending can go on at once, and a loop that
only a tick, the resync or its context can move has nothing pending. -/
theorem no_lost_hint (Goroutine : Type) [DecidableEq Goroutine]
    (state : Hints Goroutine)
    (reachable : (hintSystem Goroutine).Reachable state)
    (blocked : state.run = .blocked) :
    (state.queue.pending.Nonempty →
        state.wake = true ∨ ∃ caller, state.callers caller = .sending) ∧
      ((∀ caller, state.callers caller = .idle) →
        (state.queue.pending.Nonempty →
          (hintSystem Goroutine).Step state .wake
            { state with wake := false, run := .draining }) ∧
          (state.wake = false → state.queue.pending = ∅)) := by
  obtain ⟨-, signalled⟩ := hintSystem_invariant reachable
  refine ⟨signalled blocked, ?_⟩
  intro returned
  have token : state.queue.pending.Nonempty → state.wake = true := by
    intro pending
    rcases signalled blocked pending with wake | ⟨caller, sending⟩
    · exact wake
    · rw [returned caller] at sending
      cases sending
  refine ⟨fun pending => .wake blocked (token pending), ?_⟩
  intro silent
  by_contra pending
  have wake := token (Finset.nonempty_iff_ne_empty.mpr pending)
  rw [silent] at wake
  cases wake

/-- A hint that arrives while the loop waits. -/
def hintedState : Hints Unit :=
  { queue := Queue.empty.enqueue "vpc-1"
    wake := true
    run := .blocked
    callers := fun _ => .idle }

theorem hintedState_woken :
    (hintSystem Unit).Step hintedState .wake
      { hintedState with wake := false, run := .draining } := by
  have reachable : (hintSystem Unit).Reachable hintedState :=
    ⟨{ queue := .empty, wake := false, run := .draining
       callers := fun _ => .idle },
      [.pop "", .call () "vpc-1", .insert (), .send ()],
      ⟨rfl, rfl, rfl, fun _ => rfl⟩,
      .cons (.popNothing rfl rfl) (.cons (.call rfl (by decide))
        (.cons (.insert rfl) (.single (.send rfl))))⟩
  exact ((no_lost_hint Unit hintedState reachable rfl).2
    (fun _ => rfl)).1 ⟨"vpc-1", by decide⟩

end Nephos
