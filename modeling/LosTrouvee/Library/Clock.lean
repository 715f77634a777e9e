import LosTrouvee.Library.TransitionSystem
import Mathlib.Order.Defs.PartialOrder

namespace TransitionSystem

variable {σ ε τ : Type*} [Preorder τ] {T : TransitionSystem σ ε} {time : ε → Option τ}
  {s s' : σ × τ} {es : List ε}

-- The system beside a clock that never goes back. An event with a time happens when the clock shows
-- that time.
def clocked (T : TransitionSystem σ ε) (time : ε → Option τ) : TransitionSystem (σ × τ) ε where
  Init s      := T.Init s.1
  Step s e s' := T.Step s.1 e s'.1 ∧ s.2 ≤ s'.2 ∧ ∀ t ∈ time e, t = s'.2

-- Without the clock, it is a state of the system.
theorem Reachable.forget (h : (T.clocked time).Reachable s) : T.Reachable s.1 := by
  induction h
  case init h    => exact .init h
  case step h hi => exact .step hi h.left

-- A run whose events all have the same time.
theorem Run.stopped {s s' : σ} {t : τ} (r : T.Run s es s') (h : ∀ e ∈ es, ∀ u ∈ time e, u = t) :
    (T.clocked time).Run (s, t) es (s', t) := by
  induction r
  case refl        => exact .refl
  case step e _ hi =>
    have ⟨h₁, h₂⟩ := List.forall_mem_cons.mp h
    exact .step ⟨e, le_refl t, h₁⟩ (hi h₂)

end TransitionSystem
