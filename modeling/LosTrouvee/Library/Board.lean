import LosTrouvee.Library.TransitionSystem
import Mathlib.Logic.Function.Basic

-- A board on which posts are put up, taken down and replaced. The posts on it are told apart by
-- their keys.
abbrev Board (K X : Type*) :=
  K → Option X

namespace Board

-- What an event on the board means.
inductive Op (K X : Type*)
  | skip
  | post (x : X)
  | retract (k : K)
  | revise (k : K) (y : X)
  deriving DecidableEq

-- The post that an operation takes down.
def Op.target? {K X : Type*} : Op K X → Option K
  | skip | post _ => none
  | retract k | revise k _ => some k

-- A post gets a key that no post has. A revised post is a new one.
inductive Effect {K X : Type*} [DecidableEq K] : Board K X → Op K X → Board K X → Prop
  | skip {b} : Effect b .skip b
  | post {b k x} : b k = none → Effect b (.post x) (Function.update b k (some x))
  | retract {b k x} : b k = some x → Effect b (.retract k) (Function.update b k none)
  | revise {b k x j y} : b k = some x → b j = none →
    Effect b (.revise k y) (Function.update (Function.update b k none) j (some y))

-- Every board can be the first one.
def system (K X : Type*) [DecidableEq K] : TransitionSystem (Board K X) (Op K X) where
  Init _ := True
  Step   := Effect

variable {K X : Type*} [DecidableEq K] {b b' : Board K X} {op : Op K X} {k : K} {x : X}

-- A post stays as it is until it is taken down.
theorem Effect.stable (h : Effect b op b') (hx : b k = some x) (ho : op.target? ≠ some k) :
    b' k = some x := by
  have ne {j} (hj : b j = none) : k ≠ j := by
    rintro rfl
    simp [hx] at hj
  cases h
  case skip            => exact hx
  case post hj         => simp [Function.update_of_ne (ne hj), hx]
  case retract j _ hj  =>
    have hk : k ≠ j := by rintro rfl; exact ho rfl
    simp [Function.update_of_ne hk, hx]
  case revise j _ i y hj hi =>
    have hk : k ≠ j := by rintro rfl; exact ho rfl
    simp [Function.update_of_ne (ne hi), Function.update_of_ne hk, hx]

theorem run_stable {ops : List (Op K X)} (r : (system K X).Run b ops b') (hx : b k = some x)
    (ho : ∀ op ∈ ops, op.target? ≠ some k) : b' k = some x := by
  induction r
  case refl => exact hx
  case step he _ hi =>
    have ⟨ho₁, ho₂⟩ := List.forall_mem_cons.mp ho
    exact hi (Effect.stable he hx ho₁) ho₂

-- Where every post has an owner, only `u` loses posts, and a post that takes the place of another
-- one has the same owner.
def Respects {U : Type*} (owner : X → U) (u : Option U) (b b' : Board K X) : Prop :=
  ∀ k x, b k = some x → b' k = some x ∨
    b' k = none ∧ u = some (owner x) ∧ ∀ j y, b j = none → b' j = some y → owner y = owner x

variable {U : Type*} {owner : X → U} {u : Option U} {j : K} {y : X}

omit [DecidableEq K] in
theorem respects_refl (owner : X → U) (u : Option U) (b : Board K X) : Respects owner u b b :=
  fun _ _ h => .inl h

theorem respects_post (hj : b j = none) :
    Respects owner u b (Function.update b j (some y)) := by
  intro k x hx
  have hk : k ≠ j := by
    rintro rfl
    simp [hx] at hj
  exact .inl (by simp [Function.update_of_ne hk, hx])

theorem respects_retract_iff (hx : b k = some x) :
    Respects owner u b (Function.update b k none) ↔ u = some (owner x) where
  mp h := by
    rcases h k x hx with hx' | ⟨-, hu, -⟩
    · simp at hx'
    · exact hu
  mpr hu := by
    intro i z hz
    by_cases hi : i = k
    case neg => exact .inl (by simp [Function.update_of_ne hi, hz])
    case pos =>
      subst hi
      obtain rfl : x = z := by simpa [hx] using hz
      refine .inr ⟨by simp, hu, fun j y hj hy => ?_⟩
      by_cases hk : j = i <;> simp_all

theorem respects_revise_iff (hx : b k = some x) (hj : b j = none) :
    Respects owner u b (Function.update (Function.update b k none) j (some y)) ↔
      u = some (owner x) ∧ owner y = owner x := by
  have hk : k ≠ j := by
    rintro rfl
    simp [hx] at hj
  constructor
  case mp =>
    intro h
    rcases h k x hx with hx' | ⟨-, hu, ho⟩
    · simp [Function.update_of_ne hk] at hx'
    · exact ⟨hu, ho j y hj (by simp)⟩
  case mpr =>
    rintro ⟨hu, ho⟩ i z hz
    have hi : i ≠ j := by
      rintro rfl
      simp [hz] at hj
    by_cases hik : i = k
    case neg => exact .inl (by simp [Function.update_of_ne hi, Function.update_of_ne hik, hz])
    case pos =>
      subst hik
      obtain rfl : x = z := by simpa [hx] using hz
      refine .inr ⟨by simp [Function.update_of_ne hi], hu, fun l w hl hw => ?_⟩
      by_cases hlj : l = j
      case pos => simp_all
      case neg => by_cases hli : l = i <;> simp_all

end Board
