import Nephos.Library.Trace
import Nephos.Reconcile.Drain

/-!
# Passes

The executions of a single pass of a controller, with whatever the other
parties do in between.
-/

namespace Nephos

open Effects

abbrev PassEvent := Effects.Event Op Op.Result World

/-- Run a pass by itself, with the given choices. -/
def World.execute {α : Type} (world : World) :
    Call α → List Choice → Option (List PassEvent × Call α)
  | thread, [] => some ([], thread)
  | .done _, _ :: _ => none
  | .call op next, choice :: choices =>
      (world.exec op choice).bind fun outcome =>
        (outcome.2.execute (next outcome.1) choices).map fun rest =>
          (⟨world, op, outcome.1, outcome.2⟩ :: rest.1, rest.2)

def Pass.succeeded : Pass → Bool
  | .done (.ok _) => true
  | _ => false

theorem Pass.succeeded_eq {pass : Pass} (succeeded : pass.succeeded = true) :
    pass = .done (.ok ()) := by
  unfold Pass.succeeded at succeeded
  split at succeeded
  · rfl
  · cases succeeded

def Pass.stops : Pass → String → Bool
  | .done (.error (.other message)), cause => message == cause
  | _, _ => false

theorem Pass.stops_eq {pass : Pass} {cause : String}
    (stops : pass.stops cause = true) :
    pass = .done (.error (.other cause)) := by
  unfold Pass.stops at stops
  split at stops
  · rw [eq_of_beq stops]
  · cases stops

theorem exists_mem_snoc {α : Type} {items : List α} {last : α}
    {holds : α → Prop} :
    (∃ item ∈ items ++ [last], holds item) ↔
      (∃ item ∈ items, holds item) ∨ holds last := by
  simp only [List.mem_append, List.mem_singleton, or_and_right, exists_or,
    exists_eq_left]

section Rules

variable {α : Type} {setting : Setting Op Op.Result World}

theorem World.execute_executes
    (behaves : ∀ {world op result after}, World.Behaves world op result after →
      setting.behaviour world op result after)
    {world : World} {thread rest : Call α} {choices : List Choice}
    {events : List PassEvent}
    (ran : world.execute thread choices = some (events, rest)) :
    setting.Executes thread world events rest := by
  induction choices generalizing world thread events with
  | nil =>
      cases thread <;> cases ran <;> exact .stop _ world
  | cons choice choices induction =>
      cases thread with
      | done value => cases ran
      | call op next =>
          obtain ⟨⟨result, after⟩, runs, ran⟩ :=
            Option.bind_eq_some_iff.mp ran
          obtain ⟨⟨later, left⟩, onward, same⟩ :=
            Option.map_eq_some_iff.mp ran
          cases same
          exact .call (setting.refl world) (behaves ⟨choice, runs⟩)
            (induction onward)

variable {holds : List PassEvent → Prop} {history : List PassEvent}
  {post : α → Traced Op Op.Result World → Prop} {world : World}

theorem traced_invoke (op : Op) {rest : op.Result → Call α}
    (rule : ∀ {before result after}, holds history →
      setting.others world before →
      setting.behaviour before op result after →
        holds (history ++ [⟨before, op, result, after⟩]) ∧
          (setting.contract holds).Safe post (rest result)
            ⟨after, history ++ [⟨before, op, result, after⟩]⟩) :
    (setting.contract holds).Safe post (invoke op >>= rest)
      ⟨world, history⟩ :=
  .traced rule

end Rules

end Nephos
