import Nephos.Library.Program

/-!
# Programs whose calls are programs

`lower` carries out every call of a program by a program over other calls.
If these programs keep what the contract of the calls says of them, a program
that is safe under that contract is safe when it is carried out.
-/

namespace Effects

variable {Op Low : Type} {Res : Op → Type} {LowRes : Low → Type}
  {σ α : Type}

def Program.lower (handler : (op : Op) → Program Low LowRes (Res op)) :
    Program Op Res α → Program Low LowRes α
  | .done value => .done value
  | .call op next => handler op >>= fun result => (next result).lower handler

namespace Contract

/-- Whatever the others do, the call may be made and keeps the invariant. -/
def Ready (contract : Contract Op Res σ) (op : Op) (state : σ) : Prop :=
  ∀ later, contract.invariant later → contract.change op state later →
    contract.outstanding op later ∧
      ∀ result final, contract.behaviour later op result final →
        contract.invariant final

/-- Each call of the one contract is carried out by a program that is safe
under the other and behaves like the call. -/
def Carries (low : Contract Low LowRes σ) (high : Contract Op Res σ)
    (handler : (op : Op) → Program Low LowRes (Res op)) : Prop :=
  ∀ op state, low.invariant state → high.Ready op state →
    low.Safe (fun result final => ∃ middle, high.invariant middle ∧
      high.change op state middle ∧ high.behaviour middle op result final)
      (handler op) state

variable {low : Contract Low LowRes σ} {high : Contract Op Res σ}
  {handler : (op : Op) → Program Low LowRes (Res op)}

theorem Safe.lower {post : α → σ → Prop} {program : Program Op Res α}
    {state : σ} (carries : low.Carries high handler)
    (kept : low.invariant state) (safe : high.Safe post program state) :
    low.Safe post (program.lower handler) state := by
  induction program generalizing state with
  | done value => exact safe
  | call op next induction =>
      have ready : high.Ready op state := by
        intro later laterKept change
        obtain ⟨outstanding, steps⟩ := safe later laterKept change
        exact ⟨outstanding, fun result final behaves =>
          (steps result final behaves).1⟩
      refine (carries op state kept ready).bind kept ?_
      rintro result final finalKept ⟨middle, middleKept, change, behaves⟩
      have onward := (safe middle middleKept change).2 result final behaves
      exact induction result finalKept onward.2

end Contract

end Effects
