import Mathlib.Logic.Relation

/-!
# Effectful programs under interference

A `Program` is a finite tree of calls: each node names the operation that is
outstanding and says how the program goes on with any result of it.  Nothing
is said about what a call does; that is the business of the `Contract` a
program is run under.  While a call is outstanding other parties may act:
they keep the contract's invariant and stay within its `change` relation.

`Safe` is the rely/guarantee judgement for such programs.  It says that the
contract's assertion about an outstanding call holds for as long as the call
is outstanding, that every completed call keeps the invariant, and that the
program ends in its postcondition.
-/

namespace Effects

variable {Op : Type} {Res : Op → Type} {σ α β : Type}

inductive Program (Op : Type) (Res : Op → Type) (α : Type) where
  | done (value : α)
  | call (op : Op) (next : Res op → Program Op Res α)

namespace Program

def bind : Program Op Res α → (α → Program Op Res β) → Program Op Res β
  | .done value, rest => rest value
  | .call op next, rest => .call op (fun result => (next result).bind rest)

instance : Monad (Program Op Res) where
  pure := .done
  bind := bind

/-- One call, with its result as the program's own. -/
def perform (op : Op) : Program Op Res (Res op) := .call op .done

/-- The operation a program is waiting for. -/
def outstanding : Program Op Res α → Option Op
  | .done _ => none
  | .call op _ => some op

/-- The program makes only calls that are allowed. -/
def Uses (allowed : Op → Prop) : Program Op Res α → Prop
  | .done _ => True
  | .call op next => allowed op ∧ ∀ result, Uses allowed (next result)

theorem Uses.outstanding {allowed : Op → Prop} {program : Program Op Res α}
    {op : Op} (uses : program.Uses allowed)
    (waits : program.outstanding = some op) : allowed op := by
  cases program with
  | done value => cases waits
  | call other next =>
      cases waits
      exact uses.1

theorem Uses.mono {narrow wide : Op → Prop} {program : Program Op Res α}
    (uses : program.Uses narrow) (implies : ∀ op, narrow op → wide op) :
    program.Uses wide := by
  induction program with
  | done value => trivial
  | call op next induction =>
      exact ⟨implies op uses.1, fun result => induction result
        (uses.2 result)⟩

theorem Uses.bind {allowed : Op → Prop} {program : Program Op Res α}
    {rest : α → Program Op Res β} (first : program.Uses allowed)
    (second : ∀ value, (rest value).Uses allowed) :
    (program >>= rest).Uses allowed := by
  induction program with
  | done value => exact second value
  | call op next induction =>
      exact ⟨first.1, fun result => induction result (first.2 result)⟩

/-- The rule holds of every call, any result of it and what the program waits
for next. -/
def Follows (rule : (op : Op) → Res op → Option Op → Prop) :
    Program Op Res α → Prop
  | .done _ => True
  | .call op next => ∀ result,
      rule op result (next result).outstanding ∧ Follows rule (next result)

theorem Follows.bind {rule : (op : Op) → Res op → Option Op → Prop}
    {program : Program Op Res α} {rest : α → Program Op Res β}
    (free : ∀ op result next, rule op result none → rule op result next)
    (first : program.Follows rule)
    (second : ∀ value, (rest value).Follows rule) :
    (program >>= rest).Follows rule := by
  induction program with
  | done value => exact second value
  | call op next induction =>
      intro result
      refine ⟨?_, induction result (first result).2⟩
      have holds := (first result).1
      change rule op result ((next result).bind rest).outstanding
      cases after : next result with
      | done value =>
          rw [after] at holds
          exact free op result _ holds
      | call other onward =>
          rw [after] at holds
          exact holds

end Program

/-- What a program may assume of its surroundings while a call of it is
outstanding, and has to keep itself. -/
structure Contract (Op : Type) (Res : Op → Type) (σ : Type) where
  invariant : σ → Prop
  change : Op → σ → σ → Prop
  behaviour : σ → (op : Op) → Res op → σ → Prop
  outstanding : Op → σ → Prop
  refl : ∀ op state, change op state state
  trans : ∀ {op first second third},
    change op first second → change op second third → change op first third

namespace Contract

variable (contract : Contract Op Res σ)

def Safe (post : α → σ → Prop) : Program Op Res α → σ → Prop
  | .done value, state => post value state
  | .call op next, state => ∀ later, contract.invariant later →
      contract.change op state later →
        contract.outstanding op later ∧
          ∀ result final, contract.behaviour later op result final →
            contract.invariant final ∧ Safe post (next result) final

/-- A program that is safe, and whose end nobody waits for. -/
abbrev Keeps (program : Program Op Res α) (state : σ) : Prop :=
  contract.Safe (fun _ _ => True) program state

/-- A call that is fine in every state. -/
def Harmless (op : Op) : Prop :=
  ∀ state, contract.invariant state → contract.outstanding op state ∧
    ∀ result final, contract.behaviour state op result final →
      contract.invariant final

/-- A call that does no more than the others may do. -/
def Quiet (op : Op) : Prop :=
  ∀ state, contract.invariant state → contract.outstanding op state ∧
    ∀ result final, contract.behaviour state op result final →
      contract.invariant final ∧ ∀ op, contract.change op state final

/-- An assertion that the others cannot break. -/
def Stable (holds : σ → Prop) : Prop :=
  ∀ {op state later}, contract.invariant later →
    contract.change op state later → holds state → holds later

variable {contract}

theorem Quiet.harmless {op : Op} (quiet : contract.Quiet op) :
    contract.Harmless op := by
  intro state kept
  obtain ⟨assertion, step⟩ := quiet state kept
  exact ⟨assertion, fun result final behaves =>
    (step result final behaves).1⟩

namespace Safe

variable {post : α → σ → Prop} {state later final : σ} {op : Op}
  {next : Res op → Program Op Res α} {program : Program Op Res α}

theorem interfere (safe : contract.Safe post (.call op next) state)
    (change : contract.change op state later) :
    contract.Safe post (.call op next) later :=
  fun last kept onward => safe last kept (contract.trans change onward)

theorem persist (safe : contract.Keeps program state)
    (change : ∀ op, program.outstanding = some op →
      contract.change op state later) :
    contract.Keeps program later := by
  cases program with
  | done value => trivial
  | call op next => exact safe.interfere (change op rfl)

theorem ready (safe : contract.Safe post (.call op next) state)
    (kept : contract.invariant state) :
    contract.outstanding op state :=
  (safe state kept (contract.refl op state)).1

theorem complete {result : Res op}
    (safe : contract.Safe post (.call op next) state)
    (kept : contract.invariant state)
    (behaves : contract.behaviour state op result final) :
    contract.invariant final ∧ contract.Safe post (next result) final :=
  (safe state kept (contract.refl op state)).2 result final behaves

/-- The rule for one call, with what the others have left of the state before
it. -/
theorem wait
    (rule : ∀ {later}, contract.invariant later →
      contract.change op state later → contract.outstanding op later ∧
        ∀ {result final}, contract.behaviour later op result final →
          contract.invariant final ∧
            contract.Safe post (next result) final) :
    contract.Safe post (.call op next) state :=
  fun _ kept change => ⟨(rule kept change).1,
    fun _ _ => (rule kept change).2⟩

/-- The rule for one call, with an assertion before it that survives what the
others do. -/
theorem call (holds : σ → Prop) (now : holds state)
    (stable : ∀ {state later}, contract.invariant later →
      contract.change op state later → holds state → holds later)
    (assertion : ∀ {later}, contract.invariant later → holds later →
      contract.outstanding op later)
    (step : ∀ {later result final}, contract.invariant later →
      holds later → contract.behaviour later op result final →
        contract.invariant final ∧
          contract.Safe post (next result) final) :
    contract.Safe post (.call op next) state := by
  intro later kept change
  have held := stable kept change now
  exact ⟨assertion kept held, fun result final behaves =>
    step kept held behaves⟩

/-- The rule for a harmless call. -/
theorem harmless (fine : contract.Harmless op)
    (step : ∀ {later result final}, contract.invariant later →
      contract.behaviour later op result final → contract.invariant final →
        contract.Safe post (next result) final) :
    contract.Safe post (.call op next) state := by
  intro later kept _
  obtain ⟨assertion, keeps⟩ := fine later kept
  refine ⟨assertion, fun result final behaves => ?_⟩
  have finalKept := keeps result final behaves
  exact ⟨finalKept, step kept behaves finalKept⟩

/-- A program of harmless calls is safe. -/
theorem uses (fine : program.Uses contract.Harmless) :
    contract.Keeps program state := by
  induction program generalizing state with
  | done value => trivial
  | call op next induction =>
      exact .harmless fine.1 fun _ _ _ => induction _ (fine.2 _)

/-- A quiet program keeps what the others cannot break. -/
theorem quiet {holds : σ → Prop} (stable : contract.Stable holds)
    (now : holds state) (fine : program.Uses contract.Quiet) :
    contract.Safe (fun _ => holds) program state := by
  induction program generalizing state with
  | done value => exact now
  | call op next induction =>
      intro later kept change
      obtain ⟨assertion, step⟩ := fine.1 later kept
      refine ⟨assertion, fun result final behaves => ?_⟩
      obtain ⟨finalKept, within⟩ := step result final behaves
      exact ⟨finalKept, induction result
        (stable finalKept (within op) (stable kept change now))
        (fine.2 result)⟩

/-- A weaker postcondition. -/
theorem mono {last : α → σ → Prop}
    (safe : contract.Safe post program state)
    (kept : contract.invariant state)
    (weaken : ∀ {value later}, contract.invariant later →
      post value later → last value later) :
    contract.Safe last program state := by
  induction program generalizing state with
  | done value => exact weaken kept safe
  | call op next induction =>
      intro later laterKept change
      obtain ⟨assertion, step⟩ := safe later laterKept change
      refine ⟨assertion, fun result final behaves => ?_⟩
      obtain ⟨finalKept, tail⟩ := step result final behaves
      exact ⟨finalKept, induction result tail finalKept⟩

theorem and {other : α → σ → Prop}
    (safe : contract.Safe post program state)
    (also : contract.Safe other program state) :
    contract.Safe (fun value state => post value state ∧ other value state)
      program state := by
  induction program generalizing state with
  | done value => exact ⟨safe, also⟩
  | call op next induction =>
      intro later kept change
      obtain ⟨assertion, step⟩ := safe later kept change
      refine ⟨assertion, fun result final behaves => ?_⟩
      obtain ⟨finalKept, tail⟩ := step result final behaves
      have second := (also later kept change).2 result final behaves
      exact ⟨finalKept, induction result tail second.2⟩

/-- Sequencing: the continuation is safe wherever the first part ends. -/
theorem bind {last : β → σ → Prop} {rest : α → Program Op Res β}
    (safe : contract.Safe post program state)
    (kept : contract.invariant state)
    (continues : ∀ {value later}, contract.invariant later →
      post value later → contract.Safe last (rest value) later) :
    contract.Safe last (program >>= rest) state := by
  induction program generalizing state with
  | done value => exact continues kept safe
  | call op next induction =>
      intro later laterKept change
      obtain ⟨assertion, step⟩ := safe later laterKept change
      refine ⟨assertion, fun result final behaves => ?_⟩
      obtain ⟨finalKept, tail⟩ := step result final behaves
      exact ⟨finalKept, induction result tail finalKept⟩

end Safe

end Contract

end Effects
