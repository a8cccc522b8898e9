import Mathlib.Logic.Relation

/-!
# Labelled transition systems

A system is a set of initial states and a labelled step relation.  The rules
below are the only inductions over runs that later modules need: an invariant
of every step is an invariant of every reachable state, and a relation that
every step respects holds between the two ends of every run.
-/

namespace Transition

universe u v

structure System (State : Type u) (Label : Type v) where
  Initial : State → Prop
  Step : State → Label → State → Prop

namespace System

variable {State : Type u} {Label : Type v}

/-- A finite run, with the labels of its steps in order. -/
inductive Run (system : System State Label) :
    State → List Label → State → Prop where
  | nil (state : State) : Run system state [] state
  | cons {state middle final : State} {label : Label} {labels : List Label} :
      system.Step state label middle →
      Run system middle labels final →
      Run system state (label :: labels) final

/-- The states some run leads to from an initial state. -/
def Reachable (system : System State Label) (state : State) : Prop :=
  ∃ start labels, system.Initial start ∧ system.Run start labels state

/-- The same system with only the steps that satisfy `allowed`. -/
def restrict (system : System State Label)
    (allowed : State → Label → State → Prop) : System State Label :=
  { Initial := system.Initial
    Step := fun state label next =>
      system.Step state label next ∧ allowed state label next }

variable {system : System State Label}

theorem Run.append
    {state middle final : State} {front back : List Label}
    (first : system.Run state front middle)
    (second : system.Run middle back final) :
    system.Run state (front ++ back) final := by
  induction first with
  | nil => exact second
  | cons step _ induction => exact .cons step (induction second)

theorem Run.single {state next : State} {label : Label}
    (step : system.Step state label next) :
    system.Run state [label] next :=
  .cons step (.nil next)

theorem Run.nil_iff {state final : State} :
    system.Run state [] final ↔ final = state := by
  constructor
  · intro run
    cases run
    rfl
  · rintro rfl
    exact .nil final

theorem Run.single_iff {state final : State} {label : Label} :
    system.Run state [label] final ↔ system.Step state label final := by
  constructor
  · intro run
    obtain - | ⟨step, rest⟩ := run
    rw [Run.nil_iff.mp rest]
    exact step
  · exact Run.single

theorem Run.invariant {state final : State} {labels : List Label}
    (run : system.Run state labels final) (holds : State → Prop)
    (preserved : ∀ {state label next},
      holds state → system.Step state label next → holds next)
    (initially : holds state) : holds final := by
  induction run with
  | nil => exact initially
  | cons step _ induction => exact induction (preserved initially step)

theorem Reachable.initial {state : State} (start : system.Initial state) :
    system.Reachable state :=
  ⟨state, [], start, .nil state⟩

theorem Reachable.run {state final : State} {labels : List Label}
    (reachable : system.Reachable state)
    (run : system.Run state labels final) :
    system.Reachable final := by
  obtain ⟨start, front, initially, first⟩ := reachable
  exact ⟨start, front ++ labels, initially, first.append run⟩

theorem Reachable.step {state next : State} {label : Label}
    (reachable : system.Reachable state)
    (step : system.Step state label next) :
    system.Reachable next :=
  reachable.run (.single step)

/-- What holds initially and survives every step holds in every reachable
state. -/
theorem Reachable.invariant {state : State}
    (reachable : system.Reachable state) (holds : State → Prop)
    (initially : ∀ {state}, system.Initial state → holds state)
    (preserved : ∀ {state label next},
      holds state → system.Step state label next → holds next) :
    holds state := by
  obtain ⟨start, labels, isInitial, run⟩ := reachable
  exact run.invariant holds preserved (initially isInitial)

/-- A run whose labels are all allowed is a run of the restricted system. -/
theorem Run.restrict_labels {allowed : Label → Prop}
    {state final : State} {labels : List Label}
    (run : system.Run state labels final)
    (all : ∀ label ∈ labels, allowed label) :
    (system.restrict fun _ label _ => allowed label).Run state labels
      final := by
  induction run with
  | nil state => exact .nil state
  | cons step _ induction =>
      rw [List.forall_mem_cons] at all
      exact .cons ⟨step, all.1⟩ (induction all.2)

/-- A step function that only takes steps of the system runs in it. -/
theorem Run.of_steps {steps : State → Label → Option State}
    (sound : ∀ {state label next}, steps state label = some next →
      system.Step state label next)
    {state final : State} {labels : List Label}
    (ran : labels.foldlM steps state = some final) :
    system.Run state labels final := by
  induction labels generalizing state with
  | nil =>
      cases ran
      exact .nil _
  | cons label labels induction =>
      rw [List.foldlM_cons] at ran
      obtain ⟨middle, stepped, rest⟩ := Option.bind_eq_some_iff.mp ran
      exact .cons (sound stepped) (induction rest)

theorem Run.restrict_forget
    {allowed : State → Label → State → Prop}
    {state final : State} {labels : List Label}
    (run : (system.restrict allowed).Run state labels final) :
    system.Run state labels final := by
  induction run with
  | nil state => exact .nil state
  | cons step _ induction => exact .cons step.1 induction

end System

end Transition
