import Mathlib.Data.List.Basic
import Mathlib.Tactic.TypeStar

-- A transition system over states `σ` whose steps are caused by events `ε`.
structure TransitionSystem (σ ε : Type*) where
  Init : σ → Prop
  Step : σ → ε → σ → Prop

namespace TransitionSystem

-- A run lists the events between its first and its last state.
inductive Run (T : TransitionSystem σ ε) : σ → List ε → σ → Prop
  | refl : Run T s [] s
  | step : T.Step s₁ e s₂ → Run T s₂ es s₃ → Run T s₁ (e :: es) s₃

inductive Reachable (T : TransitionSystem σ ε) : σ → Prop
  | init : T.Init s → Reachable T s
  | step : Reachable T s₁ → T.Step s₁ e s₂ → Reachable T s₂

variable {σ ε σ' ε' : Type*} {T : TransitionSystem σ ε} {s s₁ s₂ : σ} {e : ε} {es : List ε}

namespace Run

theorem single (h : T.Step s₁ e s₂) : T.Run s₁ [e] s₂ :=
  .step h .refl

theorem concat (r : T.Run s₁ es s₂) (h : T.Step s₂ e s) : T.Run s₁ (es ++ [e]) s := by
  induction r
  case refl          => exact single h
  case step h' _ hi  => exact .step h' (hi h)

theorem append {es' : List ε} (r : T.Run s₁ es s₂) (r' : T.Run s₂ es' s) :
    T.Run s₁ (es ++ es') s := by
  induction r
  case refl         => exact r'
  case step h _ hi  => exact .step h (hi r')

theorem reachable (r : T.Run s₁ es s₂) (h : T.Reachable s₁) : T.Reachable s₂ := by
  induction r
  case refl         => exact h
  case step e _ hi  => exact hi (.step h e)

-- What every event of a run preserves holds at its end. The events may be restricted by `P` and the
-- states before them are reachable.
theorem preserves {I : σ → Prop} {P : ε → Prop}
    (h : ∀ {s e s'}, T.Reachable s → P e → T.Step s e s' → I s → I s')
    (r : T.Run s₁ es s₂) (hr : T.Reachable s₁) (hP : ∀ e ∈ es, P e) (hI : I s₁) : I s₂ := by
  induction r
  case refl => exact hI
  case step e _ hi =>
    have ⟨hP₁, hP₂⟩ := List.forall_mem_cons.mp hP
    exact hi (.step hr e) hP₂ (h hr hP₁ e hI)

end Run

namespace Reachable

theorem of_run (h : T.Init s₁) (r : T.Run s₁ es s₂) : T.Reachable s₂ :=
  r.reachable (.init h)

end Reachable

-- An inductive invariant. Its step may use what else is known of reachable states.
structure Invariant (T : TransitionSystem σ ε) (I : σ → Prop) : Prop where
  init : ∀ {s}, T.Init s → I s
  step : ∀ {s e s'}, T.Reachable s → I s → T.Step s e s' → I s'

theorem Invariant.holds {I : σ → Prop} (i : T.Invariant I) (h : T.Reachable s) : I s := by
  induction h
  case init h       => exact i.init h
  case step h e hi  => exact i.step h hi e

-- The same system with only those steps whose event meets a condition on the state before it.
def restrict (T : TransitionSystem σ ε) (C : σ → ε → Prop) : TransitionSystem σ ε where
  Init := T.Init
  Step s e s' := C s e ∧ T.Step s e s'

theorem Run.of_restrict {C : σ → ε → Prop} (r : (T.restrict C).Run s₁ es s₂) : T.Run s₁ es s₂ := by
  induction r
  case refl        => exact .refl
  case step e _ hi => exact .step e.right hi

-- What every step that meets the condition preserves holds at the end of a run of such steps.
theorem Run.preserves_of_restrict {C : σ → ε → Prop} {I : σ → Prop}
    (h : ∀ {s e s'}, T.Reachable s → C s e → T.Step s e s' → I s → I s')
    (r : (T.restrict C).Run s₁ es s₂) (hr : T.Reachable s₁) (hI : I s₁) : I s₂ := by
  induction r
  case refl        => exact hI
  case step e _ hi => exact hi (.step hr e.right) (h hr e.left e.right hI)

theorem Reachable.of_restrict {C : σ → ε → Prop} (h : (T.restrict C).Reachable s) :
    T.Reachable s := by
  induction h
  case init h      => exact .init h
  case step h hi   => exact .step hi h.right

-- What does not hold at first but holds now was brought about by a step, and has held ever since.
theorem Reachable.established {P : σ → Prop} (hi : ∀ {s}, T.Init s → ¬P s) (h : T.Reachable s)
    (hP : P s) : ∃ s₀ e s₁ es, T.Reachable s₀ ∧ ¬P s₀ ∧ T.Step s₀ e s₁ ∧ P s₁ ∧
      (T.restrict fun s _ => P s).Run s₁ es s := by
  induction h
  case init h            => exact absurd hP (hi h)
  case step s₁ e s h he ih =>
    by_cases hP₁ : P s₁
    case neg => exact ⟨s₁, e, s, [], h, hP₁, he, hP, .refl⟩
    case pos =>
      have ⟨s₀, e₀, s₂, es, hr, hn, h₀, hs, r⟩ := ih hP₁
      exact ⟨s₀, e₀, s₂, es ++ [e], hr, hn, h₀, hs, r.concat ⟨hP₁, he⟩⟩

-- A functional forward simulation: `abs` reads an abstract state off a concrete one and `act` says
-- which abstract event a concrete event stands for.
structure Simulation (T : TransitionSystem σ ε) (A : TransitionSystem σ' ε') where
  abs  : σ → σ'
  act  : σ → ε → ε'
  init : ∀ {s}, T.Init s → A.Init (abs s)
  step : ∀ {s e s'}, T.Reachable s → T.Step s e s' → A.Step (abs s) (act s e) (abs s')

namespace Simulation

variable {A : TransitionSystem σ' ε'}

-- A run stands for the run of the events that its own events stand for.
theorem run (f : Simulation T A) (h : T.Reachable s₁) (r : T.Run s₁ es s₂) :
    ∃ es', A.Run (f.abs s₁) es' (f.abs s₂) ∧
      ∀ a ∈ es', ∃ s, ∃ e ∈ es, T.Reachable s ∧ f.act s e = a := by
  induction r
  case refl => exact ⟨[], .refl, by simp⟩
  case step s₁ e _ es _ he _ hi =>
    have ⟨es', r', ha⟩ := hi (.step h he)
    refine ⟨_ :: es', .step (f.step h he) r', List.forall_mem_cons.mpr ⟨?_, fun a hm => ?_⟩⟩
    · exact ⟨s₁, e, by simp, h, rfl⟩
    · have ⟨s, e', he', hr⟩ := ha a hm
      exact ⟨s, e', List.mem_cons_of_mem e he', hr⟩

end Simulation
end TransitionSystem
