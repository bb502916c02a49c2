import ClipBridge.Lib.Machine
import Mathlib.Algebra.Order.BigOperators.Group.List

/-!
# The potential method

A potential of the states of a machine that no step raises by more than what the event pays is, at
the end of a run, not higher than at its start and all payments together.

* `potential_run` — the induction, with an invariant of the states.
-/

namespace Machine

variable {σ ε M : Type*} {step : σ → ε → σ} [AddCommMonoid M] [Preorder M] [AddRightMono M]

theorem potential_run {I : σ → Prop} {potential : σ → M} {pay : ε → M}
    (hinv : ∀ s e, I s → I (step s e))
    (hstep : ∀ s e, I s → potential (step s e) ≤ potential s + pay e)
    {s : σ} (hs : I s) (es : List ε) :
    potential (run step s es) ≤ potential s + (es.map pay).sum := by
  induction es generalizing s with
  | nil => simp
  | cons e es ih =>
      calc potential (run step (step s e) es)
          ≤ potential (step s e) + (es.map pay).sum := ih (hinv s e hs)
        _ ≤ potential s + pay e + (es.map pay).sum := by gcongr; exact hstep s e hs
        _ = potential s + ((e :: es).map pay).sum := by
            rw [List.map_cons, List.sum_cons, add_assoc]

end Machine
