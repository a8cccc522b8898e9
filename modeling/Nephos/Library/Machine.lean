import Nephos.Library.Trace

/-!
# Machines

A machine answers every call of a program from its state, and the answer
leaves it in another state.  A run may refuse calls: a refused call fails
and has no effect.  Which calls are refused is the choice of a schedule,
which knows how many calls came before.

A run is an execution in the sense of `Nephos.Library.Trace`, alone on its
machine, so that the judgement of `Nephos.Library.Program` speaks about it.
-/

namespace Effects

structure Machine (Op : Type) (Res : Op → Type) (σ : Type) where
  answer : σ → (op : Op) → Res op × σ
  refuse : (op : Op) → Res op

structure Run (Op : Type) (Res : Op → Type) (σ α : Type) where
  value : α
  final : σ
  events : List (Event Op Res σ)

namespace Machine

variable {Op : Type} {Res : Op → Type} {σ α β : Type}
  (machine : Machine Op Res σ) (refused : Nat → Op → Bool)

/-- The call with this number. -/
def step (call : Nat) (state : σ) (op : Op) : Res op × σ :=
  if refused call op then (machine.refuse op, state)
  else machine.answer state op

/-- The run of a program that has made some calls already. -/
def run (call : Nat) : Program Op Res α → σ → Run Op Res σ α
  | .done value, state => { value, final := state, events := [] }
  | .call op next, state =>
      let step := machine.step refused call state op
      let rest := run (call + 1) (next step.1) step.2
      { rest with events := ⟨state, op, step.1, step.2⟩ :: rest.events }

/-- All ways in which a machine may answer or refuse, with nobody else on
it. -/
def setting (refusable : Op → Prop) : Setting Op Res σ where
  others := Eq
  behaviour before op result after :=
    (result, after) = machine.answer before op ∨
      (refusable op ∧ result = machine.refuse op ∧ after = before)
  refl _ := rfl
  trans := Eq.trans

/-- The contract of a program that is alone on the machine and keeps an
invariant. -/
def contract (refusable : Op → Prop) (holds : σ → Prop) :
    Contract Op Res σ where
  invariant := holds
  change _ := Eq
  behaviour := (machine.setting refusable).behaviour
  outstanding _ _ := True
  refl _ _ := rfl
  trans := Eq.trans

variable {machine refused} {refusable : Op → Prop}

theorem step_behaves {call : Nat} {state : σ} {op : Op}
    (within : refused call op = true → refusable op) :
    (machine.setting refusable).behaviour state op
      (machine.step refused call state op).1
      (machine.step refused call state op).2 := by
  rw [step]
  split
  · rename_i refusal
    exact .inr ⟨within refusal, rfl, rfl⟩
  · exact .inl rfl

/-- The rule for one call. -/
theorem safe_call {holds : σ → Prop} {post : α → σ → Prop} {op : Op}
    {next : Res op → Program Op Res α} {state : σ}
    (answered : holds state →
      holds (machine.answer state op).2 ∧
        (machine.contract refusable holds).Safe post
          (next (machine.answer state op).1) (machine.answer state op).2)
    (refuses : holds state → refusable op →
      (machine.contract refusable holds).Safe post (next (machine.refuse op))
        state) :
    (machine.contract refusable holds).Safe post (.call op next) state := by
  rintro later kept rfl
  refine ⟨trivial, ?_⟩
  rintro result final (answer | ⟨within, rfl, rfl⟩)
  · obtain ⟨rfl, rfl⟩ := Prod.mk.inj answer
    exact answered kept
  · exact ⟨kept, refuses kept within⟩

/-- What every call of a program keeps is there at its end. -/
theorem safe_uses {holds keeps : σ → Prop} {program : Program Op Res α}
    {state : σ}
    (fine : program.Uses fun op => ∀ state, holds state → keeps state →
      holds (machine.answer state op).2 ∧ keeps (machine.answer state op).2)
    (now : keeps state) :
    (machine.contract refusable holds).Safe (fun _ => keeps) program
      state := by
  induction program generalizing state with
  | done value => exact now
  | call op next induction =>
      refine safe_call (fun kept => ?_) fun _ _ => induction _ (fine.2 _) now
      obtain ⟨held, later⟩ := fine.1 state kept now
      exact ⟨held, induction _ (fine.2 _) later⟩

/-- An invariant holds at every moment of a run. -/
theorem run_keeps {holds : σ → Prop} {post : α → σ → Prop}
    {program : Program Op Res α} {state : σ}
    (within : ∀ call op, refused call op = true → refusable op)
    (safe : (machine.contract refusable holds).Safe post program state)
    (initially : holds state) (call : Nat) :
    (∀ event ∈ (machine.run refused call program state).events,
        holds event.after) ∧
      holds (machine.run refused call program state).final ∧
      post (machine.run refused call program state).value
        (machine.run refused call program state).final := by
  induction program generalizing state call with
  | done value => exact ⟨nofun, initially, safe⟩
  | call op next induction =>
      obtain ⟨kept, onward⟩ := safe.complete initially
        (step_behaves (within call op))
      obtain ⟨moments, final, ends⟩ := induction _ onward kept (call + 1)
      exact ⟨List.forall_mem_cons.mpr ⟨kept, moments⟩, final, ends⟩

/-- The state and history after one more call. -/
def advance (machine : Machine Op Res σ) (refused : Nat → Op → Bool)
    (traced : Traced Op Res σ) (op : Op) : Traced Op Res σ :=
  let step := machine.step refused traced.history.length traced.state op
  ⟨step.2, traced.history ++ [⟨traced.state, op, step.1, step.2⟩]⟩

/-- The contract of the one run with these refusals, over states that carry
their history. -/
def exactly (machine : Machine Op Res σ) (refused : Nat → Op → Bool) :
    Contract Op Res (Traced Op Res σ) where
  invariant _ := True
  change _ := Eq
  behaviour traced op result after :=
    result =
      (machine.step refused traced.history.length traced.state op).1 ∧
    after = machine.advance refused traced op
  outstanding _ _ := True
  refl _ _ := rfl
  trans := Eq.trans

/-- What is proved of the run holds of it. -/
theorem run_exactly {post : α → Traced Op Res σ → Prop}
    {program : Program Op Res α} {state : σ}
    {history : List (Event Op Res σ)}
    (safe : (machine.exactly refused).Safe post program ⟨state, history⟩) :
    post (machine.run refused history.length program state).value
      ⟨(machine.run refused history.length program state).final,
        history ++
          (machine.run refused history.length program state).events⟩ := by
  induction program generalizing state history with
  | done value =>
      simp only [run, List.append_nil]
      exact safe
  | call op next induction =>
      obtain ⟨-, onward⟩ := safe.complete trivial ⟨rfl, rfl⟩
      have rest := induction _ onward
      rw [List.length_append, List.append_assoc] at rest
      exact rest

theorem exactly_call {post : α → Traced Op Res σ → Prop} {op : Op}
    {next : Res op → Program Op Res α} {traced : Traced Op Res σ}
    (onward : (machine.exactly refused).Safe post
      (next (machine.step refused traced.history.length traced.state op).1)
      (machine.advance refused traced op)) :
    (machine.exactly refused).Safe post (.call op next) traced := by
  rintro later - rfl
  refine ⟨trivial, ?_⟩
  rintro result final ⟨rfl, rfl⟩
  exact ⟨trivial, onward⟩

/-- A call is refused, or the machine answers it. -/
theorem exactly_cases {post : α → Traced Op Res σ → Prop} {op : Op}
    {next : Res op → Program Op Res α} {traced : Traced Op Res σ}
    (refuses : refused traced.history.length op = true →
      (machine.exactly refused).Safe post (next (machine.refuse op))
        ⟨traced.state, traced.history ++
          [⟨traced.state, op, machine.refuse op, traced.state⟩]⟩)
    (answers : ∀ {result after}, refused traced.history.length op = false →
      machine.answer traced.state op = (result, after) →
      (machine.exactly refused).Safe post (next result)
        ⟨after, traced.history ++ [⟨traced.state, op, result, after⟩]⟩) :
    (machine.exactly refused).Safe post (.call op next) traced := by
  refine exactly_call ?_
  unfold advance step
  cases refusal : refused traced.history.length op with
  | true => exact refuses refusal
  | false => exact answers refusal rfl

/-- What every call of a program keeps is there at its end. -/
theorem exactly_uses {keeps : Traced Op Res σ → Prop}
    {program : Program Op Res α} {traced : Traced Op Res σ}
    (fine : program.Uses fun op => ∀ traced, keeps traced →
      keeps (machine.advance refused traced op))
    (now : keeps traced) :
    (machine.exactly refused).Safe (fun _ => keeps) program traced := by
  induction program generalizing traced with
  | done value => exact now
  | call op next induction =>
      exact exactly_call (induction _ (fine.2 _) (fine.1 traced now))

/-- What has happened stays in the history. -/
theorem exactly_remembers {event : Event Op Res σ}
    (program : Program Op Res α) {traced : Traced Op Res σ}
    (member : event ∈ traced.history) :
    (machine.exactly refused).Safe (fun _ later => event ∈ later.history)
      program traced := by
  induction program generalizing traced with
  | done value => exact member
  | call op next induction =>
      exact exactly_call (induction _ (List.mem_append_left _ member))

end Machine

/-- A program that returns with its first error. -/
abbrev Task (ε : Type) (Op : Type) (Res : Op → Type) (α : Type) :=
  ExceptT ε (Program Op Res) α

namespace Task

variable {Op : Type} {Res : Op → Type} {σ ε α β : Type}
  {contract : Contract Op Res σ} {post : Except ε β → σ → Prop} {state : σ}

/-- One call, with its result as the task's own. -/
def attempt (op : Op) : Task ε Op Res (Res op) :=
  ExceptT.lift (Program.perform op)

/-- The same task with another error. -/
def mapError (change : ε → ε) (task : Task ε Op Res α) : Task ε Op Res α :=
  ExceptT.mk (task.run >>= fun result => pure (result.mapError change))

theorem safe_pure {value : β} (holds : post (.ok value) state) :
    contract.Safe post (pure value : Task ε Op Res β).run state :=
  holds

theorem safe_throw {error : ε} (holds : post (.error error) state) :
    contract.Safe post (throw error : Task ε Op Res β).run state :=
  holds

theorem uses_pure {allowed : Op → Prop} (value : β) :
    (pure value : Task ε Op Res β).run.Uses allowed :=
  trivial

theorem uses_throw {allowed : Op → Prop} (error : ε) :
    (throw error : Task ε Op Res β).run.Uses allowed :=
  trivial

theorem uses_attempt {allowed : Op → Prop} {op : Op} (fine : allowed op) :
    (attempt op : Task ε Op Res (Res op)).run.Uses allowed :=
  ⟨fine, fun _ => trivial⟩

theorem uses_bind {allowed : Op → Prop} {task : Task ε Op Res α}
    {rest : α → Task ε Op Res β} (first : task.run.Uses allowed)
    (second : ∀ value, (rest value).run.Uses allowed) :
    (task >>= rest).run.Uses allowed := by
  rw [ExceptT.run_bind]
  refine Program.Uses.bind first fun result => ?_
  cases result with
  | ok value => exact second value
  | error error => trivial

/-- Sequencing: the rest is only reached without an error. -/
theorem safe_bind {middle : Except ε α → σ → Prop} {task : Task ε Op Res α}
    {rest : α → Task ε Op Res β}
    (first : contract.Safe middle task.run state)
    (kept : contract.invariant state)
    (failed : ∀ {error later}, contract.invariant later →
      middle (.error error) later → post (.error error) later)
    (onward : ∀ {value later}, contract.invariant later →
      middle (.ok value) later → contract.Safe post (rest value).run later) :
    contract.Safe post (task >>= rest).run state := by
  rw [ExceptT.run_bind]
  refine first.bind kept fun {result later} laterKept ends => ?_
  cases result with
  | ok value => exact onward laterKept ends
  | error error => exact failed laterKept ends

theorem safe_mapError {change : ε → ε} {task : Task ε Op Res β}
    (first : contract.Safe
      (fun result => post (result.mapError change)) task.run state)
    (kept : contract.invariant state) :
    contract.Safe post (task.mapError change).run state :=
  first.bind kept fun _ ends => ends

/-- A postcondition with one part for every error. -/
def Ends (fails : σ → Prop) (post : α → σ → Prop) :
    Except ε α → σ → Prop
  | .ok value => post value
  | .error _ => fails

/-- What follows from success does not depend on the texts of errors. -/
theorem safe_mapError_success {holds : σ → Prop} {change : ε → ε}
    {task : Task ε Op Res Unit}
    (first : contract.Safe
      (fun result now => result = .ok () → holds now) task.run state)
    (kept : contract.invariant state) :
    contract.Safe (fun result now => result = .ok () → holds now)
      (task.mapError change).run state := by
  refine safe_mapError (first.mono kept ?_) kept
  intro result later _ ends success
  cases result with
  | ok value => exact ends rfl
  | error error => cases success

/-- A postcondition for a task that ends without an error. -/
def OnSuccess (post : α → σ → Prop) (result : Except ε α) (state : σ) : Prop :=
  ∀ value, result = .ok value → post value state

theorem succeeds_pure {ends : β → σ → Prop} {value : β}
    (holds : ends value state) :
    contract.Safe (OnSuccess ends) (pure value : Task ε Op Res β).run
      state := by
  rintro _ ⟨⟩
  exact holds

theorem succeeds_throw {ends : β → σ → Prop} {error : ε} :
    contract.Safe (OnSuccess ends) (throw error : Task ε Op Res β).run
      state :=
  nofun

theorem succeeds_bind {middle : α → σ → Prop} {ends : β → σ → Prop}
    {task : Task ε Op Res α} {rest : α → Task ε Op Res β}
    (first : contract.Safe (OnSuccess middle) task.run state)
    (kept : contract.invariant state)
    (onward : ∀ {value later}, contract.invariant later →
      middle value later →
        contract.Safe (OnSuccess ends) (rest value).run later) :
    contract.Safe (OnSuccess ends) (task >>= rest).run state :=
  safe_bind first kept (fun _ _ => nofun)
    fun laterKept success => onward laterKept (success _ rfl)

end Task

end Effects
