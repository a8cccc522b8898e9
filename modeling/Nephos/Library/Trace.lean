import Mathlib.Data.List.Forall2
import Nephos.Library.Program

/-!
# Executions of programs

An execution of a program is the list of the calls that have come out, each
with the state it found and the state it left.  Between two calls other
parties change the state within the `others` relation of the `Setting`.

What is claimed about executions is proved with the judgement of
`Nephos.Library.Program`, over states that carry the history along.
-/

namespace Effects

/-- A call that has come out. -/
structure Event (Op : Type) (Res : Op → Type) (σ : Type) where
  before : σ
  op : Op
  result : Res op
  after : σ

/-- How calls come out, and what other parties do in between. -/
structure Setting (Op : Type) (Res : Op → Type) (σ : Type) where
  others : σ → σ → Prop
  behaviour : σ → (op : Op) → Res op → σ → Prop
  refl : ∀ state, others state state
  trans : ∀ {first second third},
    others first second → others second third → others first third

/-- A state with the calls that led to it. -/
structure Traced (Op : Type) (Res : Op → Type) (σ : Type) where
  state : σ
  history : List (Event Op Res σ)

variable {Op : Type} {Res : Op → Type} {σ α β : Type}

namespace Setting

/-- The program is left with `rest` after the events. -/
inductive Executes (setting : Setting Op Res σ) : Program Op Res α → σ →
    List (Event Op Res σ) → Program Op Res α → Prop where
  | stop (program : Program Op Res α) (state : σ) :
      Executes setting program state [] program
  | call {op : Op} {next : Res op → Program Op Res α}
      {state before after : σ} {result : Res op}
      {events : List (Event Op Res σ)} {rest : Program Op Res α} :
      setting.others state before →
      setting.behaviour before op result after →
      Executes setting (next result) after events rest →
      Executes setting (.call op next) state
        (⟨before, op, result, after⟩ :: events) rest

variable (setting : Setting Op Res σ)

/-- The same setting with only the calls that satisfy `allowed`. -/
def restrict (allowed : σ → (op : Op) → Res op → σ → Prop) :
    Setting Op Res σ :=
  { setting with
    behaviour := fun before op result after =>
      setting.behaviour before op result after ∧
        allowed before op result after }

/-- The contract of a program whose history satisfies `holds` throughout. -/
def contract (holds : List (Event Op Res σ) → Prop) :
    Contract Op Res (Traced Op Res σ) where
  invariant traced := holds traced.history
  change _ traced later := setting.others traced.state later.state ∧
    later.history = traced.history
  behaviour traced op result after :=
    setting.behaviour traced.state op result after.state ∧
      after.history = traced.history ++
        [⟨traced.state, op, result, after.state⟩]
  outstanding _ _ := True
  refl _ traced := ⟨setting.refl traced.state, rfl⟩
  trans first second := ⟨setting.trans first.1 second.1,
    second.2.trans first.2⟩

variable {setting}

theorem Executes.restrict {allowed : σ → (op : Op) → Res op → σ → Prop}
    {program rest : Program Op Res α} {state : σ}
    {events : List (Event Op Res σ)}
    (executes : setting.Executes program state events rest)
    (all : ∀ event ∈ events,
      allowed event.before event.op event.result event.after) :
    (setting.restrict allowed).Executes program state events rest := by
  induction executes with
  | stop program state => exact .stop program state
  | call others behaves _ induction =>
      rw [List.forall_mem_cons] at all
      exact .call others ⟨behaves, all.1⟩ (induction all.2)

end Setting

namespace Contract.Safe

variable {setting : Setting Op Res σ}
  {holds : List (Event Op Res σ) → Prop} {post : α → Traced Op Res σ → Prop}

/-- The rule for one call of a traced program. -/
theorem traced {op : Op} {next : Res op → Program Op Res α} {state : σ}
    {history : List (Event Op Res σ)}
    (rule : ∀ {before result after}, holds history →
      setting.others state before →
      setting.behaviour before op result after →
        holds (history ++ [⟨before, op, result, after⟩]) ∧
          (setting.contract holds).Safe post (next result)
            ⟨after, history ++ [⟨before, op, result, after⟩]⟩) :
    (setting.contract holds).Safe post (.call op next) ⟨state, history⟩ := by
  rintro ⟨before, earlier⟩ kept ⟨others, same⟩
  obtain rfl : earlier = history := same
  refine ⟨trivial, ?_⟩
  rintro result ⟨after, later⟩ ⟨behaves, recorded⟩
  obtain rfl : later = earlier ++ [⟨before, op, result, after⟩] := recorded
  exact rule kept others behaves

/-- What a safe program does next. -/
theorem traced_step {op : Op} {next : Res op → Program Op Res α}
    {state before after : σ} {result : Res op}
    {history : List (Event Op Res σ)}
    (safe : (setting.contract holds).Safe post (.call op next)
      ⟨state, history⟩)
    (kept : holds history) (others : setting.others state before)
    (behaves : setting.behaviour before op result after) :
    holds (history ++ [⟨before, op, result, after⟩]) ∧
      (setting.contract holds).Safe post (next result)
        ⟨after, history ++ [⟨before, op, result, after⟩]⟩ := by
  have changed := safe.interfere
    (show (setting.contract holds).change op ⟨state, history⟩
      ⟨before, history⟩ from ⟨others, rfl⟩)
  exact changed.complete kept
    (show (setting.contract holds).behaviour ⟨before, history⟩ op result
      ⟨after, history ++ [⟨before, op, result, after⟩]⟩ from
        ⟨behaves, rfl⟩)

end Contract.Safe

/-- What is proved of a program holds of its executions. -/
theorem Setting.Executes.safe {setting : Setting Op Res σ}
    {holds : List (Event Op Res σ) → Prop}
    {post : α → Traced Op Res σ → Prop} {program rest : Program Op Res α}
    {state : σ} {history events : List (Event Op Res σ)}
    (executes : setting.Executes program state events rest)
    (safe : (setting.contract holds).Safe post program ⟨state, history⟩)
    (initially : holds history) :
    holds (history ++ events) ∧ ∀ value, rest = .done value →
      ∃ final, post value ⟨final, history ++ events⟩ := by
  induction executes generalizing history with
  | stop program state =>
      rw [List.append_nil]
      refine ⟨initially, ?_⟩
      rintro value rfl
      exact ⟨state, safe⟩
  | @call op next state before after result events rest others behaves _
      induction =>
      obtain ⟨kept, onward⟩ := safe.traced_step initially others behaves
      rw [← List.singleton_append, ← List.append_assoc]
      exact induction onward kept

namespace Setting

variable (setting : Setting Op Res σ)

/-- The contract of a program that makes a call only where it is allowed. -/
def issuing (allowed : Op → σ → Prop) : Contract Op Res σ where
  invariant _ := True
  change _ := setting.others
  behaviour := setting.behaviour
  outstanding := allowed
  refl _ := setting.refl
  trans := setting.trans

/-- The state after some events. -/
def finalState (state : σ) (events : List (Event Op Res σ)) : σ :=
  events.foldl (fun _ event => event.after) state

variable {setting}

theorem Executes.issued {allowed : Op → σ → Prop} {post : α → σ → Prop}
    {program rest : Program Op Res α} {state : σ}
    {events : List (Event Op Res σ)}
    (executes : setting.Executes program state events rest)
    (safe : (setting.issuing allowed).Safe post program state) :
    (∀ event ∈ events, allowed event.op event.before) ∧
      ∀ value, rest = .done value → post value (finalState state events) := by
  induction executes with
  | stop program state =>
      refine ⟨List.forall_mem_nil _, ?_⟩
      rintro value rfl
      exact safe
  | @call op next state before after result events rest others behaves _
      induction =>
      obtain ⟨allowedNow, onward⟩ := safe before trivial others
      obtain ⟨issued, ends⟩ := induction (onward result after behaves).2
      exact ⟨List.forall_mem_cons.mpr ⟨allowedNow, issued⟩, ends⟩

/-- Events that use up room which nothing gives back. -/
theorem Executes.countP_add_le {room : σ → Nat}
    {counted : Event Op Res σ → Bool} {program rest : Program Op Res α}
    {state : σ} {events : List (Event Op Res σ)}
    (executes : setting.Executes program state events rest)
    (between : ∀ {before after}, setting.others before after →
      room after ≤ room before)
    (during : ∀ event ∈ events,
      (if counted event then 1 else 0) + room event.after ≤
        room event.before) :
    events.countP counted + room (finalState state events) ≤ room state := by
  induction executes with
  | stop program state => simp [finalState]
  | @call op next state before after result events rest others behaves _
      induction =>
      rw [List.forall_mem_cons] at during
      have now := during.1
      have later := induction during.2
      have earlier := between others
      rw [List.countP_cons, finalState, List.foldl_cons]
      unfold finalState at later
      dsimp only at now later ⊢
      omega

theorem Executes.behaves {program rest : Program Op Res α} {state : σ}
    {events : List (Event Op Res σ)}
    (executes : setting.Executes program state events rest) :
    ∀ event ∈ events, setting.behaviour event.before event.op event.result
      event.after := by
  induction executes with
  | stop program state => exact List.forall_mem_nil _
  | call others behaves _ induction =>
      exact List.forall_mem_cons.mpr ⟨behaves, induction⟩

/-- The states that a program sees, from its start to its end. -/
def states (state : σ) (events : List (Event Op Res σ)) : List σ :=
  state :: (events.flatMap fun event => [event.before, event.after]) ++
    [finalState state events]

/-- Every state that a program sees is related to those before it. -/
theorem Executes.pairwise {related : σ → σ → Prop}
    {program rest : Program Op Res α} {state : σ}
    {events : List (Event Op Res σ)}
    (executes : setting.Executes program state events rest)
    (reflexive : ∀ state, related state state)
    (transitive : ∀ {first second third}, related first second →
      related second third → related first third)
    (between : ∀ {before after}, setting.others before after →
      related before after)
    (during : ∀ {before op result after},
      setting.behaviour before op result after → related before after) :
    (states state events).Pairwise related := by
  have extend {first second : σ} {later : List σ}
      (now : related first second)
      (rest : (second :: later).Pairwise related) :
      (first :: second :: later).Pairwise related := by
    refine .cons ?_ rest
    intro third member
    rcases List.mem_cons.mp member with rfl | member
    · exact now
    · exact transitive now ((List.pairwise_cons.mp rest).1 third member)
  induction executes with
  | stop program state =>
      exact extend (reflexive state) (List.pairwise_singleton _ _)
  | call others behaves _ induction =>
      exact extend (between others) (extend (during behaves) induction)

end Setting

section Histories

variable {Item : Type} {history : List Item} {item : Item}

/-- What holds of every item and the items before it. -/
def Every (holds : List Item → Item → Prop) (history : List Item) : Prop :=
  ∀ front item back, history = front ++ item :: back → holds front item

theorem every_nil (holds : List Item → Item → Prop) : Every holds [] := by
  intro front item back same
  simp at same

theorem Every.snoc {holds : List Item → Item → Prop}
    (every : Every holds history) (last : holds history item) :
    Every holds (history ++ [item]) := by
  intro front other back same
  rcases List.eq_nil_or_concat back with rfl | ⟨middle, final, rfl⟩
  · obtain ⟨rfl, final⟩ := List.append_inj' same rfl
    cases final
    exact last
  · rw [List.concat_eq_append, ← List.cons_append, ← List.append_assoc] at same
    exact every front other middle (List.append_inj' same rfl).1

/-- There are items for the steps, one after the other. -/
def InOrder (steps : List (Item → Prop)) (history : List Item) : Prop :=
  ∃ chosen, chosen.Sublist history ∧
    List.Forall₂ (fun step item => step item) steps chosen

theorem InOrder.nil (history : List Item) : InOrder [] history :=
  ⟨[], List.nil_sublist history, .nil⟩

theorem InOrder.later {steps : List (Item → Prop)}
    (order : InOrder steps history) (item : Item) :
    InOrder steps (history ++ [item]) := by
  obtain ⟨chosen, inside, holds⟩ := order
  exact ⟨chosen, inside.trans (List.sublist_append_left history [item]),
    holds⟩

theorem InOrder.snoc {steps : List (Item → Prop)} {step : Item → Prop}
    (order : InOrder steps history) (last : step item) :
    InOrder (steps ++ [step]) (history ++ [item]) := by
  obtain ⟨chosen, inside, holds⟩ := order
  exact ⟨chosen ++ [item], inside.append (.refl _),
    List.rel_append holds (.cons last .nil)⟩

end Histories

end Effects
