import Mathlib.Logic.Basic

namespace LosTrouvee

-- The errors that end the process: the traps of Swift and its standard library, and the exceptions
-- of Realm and UIKit that nothing catches.
inductive Trap
  | unexpectedNil
  | indexOutOfRange
  | arithmeticOverflow
  | invalidRange
  | stringIndexOutOfBounds
  | invalidObject
  | unregisteredIdentifier
  | invalidUpdate
  deriving DecidableEq, Repr

variable {α β ε : Type}

-- The forced unwrapping `x!`.
def unwrap : Option α → Except Trap α
  | some a => .ok a
  | none   => .error .unexpectedNil

-- The array subscript `xs[i]`.
def element (xs : List α) (i : Nat) : Except Trap α :=
  match xs[i]? with
  | some a => .ok a
  | none   => .error .indexOutOfRange

@[simp]
theorem bind_eq_ok {x : Except ε α} {f : α → Except ε β} {b : β} :
    x >>= f = .ok b ↔ ∃ a, x = .ok a ∧ f a = .ok b := by
  cases x <;> simp [bind, Except.bind]

@[simp]
theorem bind_eq_error {x : Except ε α} {f : α → Except ε β} {t : ε} :
    x >>= f = .error t ↔ x = .error t ∨ ∃ a, x = .ok a ∧ f a = .error t := by
  cases x <;> simp [bind, Except.bind]

@[simp]
theorem map_eq_ok {x : Except ε α} {f : α → β} {b : β} :
    f <$> x = .ok b ↔ ∃ a, x = .ok a ∧ f a = b := by
  cases x <;> simp [Functor.map, Except.map]

@[simp]
theorem map_eq_error {x : Except ε α} {f : α → β} {t : ε} :
    f <$> x = .error t ↔ x = .error t := by
  cases x <;> simp [Functor.map, Except.map]

@[simp]
theorem pure_eq_ok {a b : α} : (pure a : Except ε α) = .ok b ↔ a = b := by
  simp [pure, Except.pure]

@[simp]
theorem pure_ne_error {a : α} {t : ε} : (pure a : Except ε α) ≠ .error t := by
  simp [pure, Except.pure]

@[simp]
theorem unwrap_eq_ok {x : Option α} {a : α} : unwrap x = .ok a ↔ x = some a := by
  cases x <;> simp [unwrap]

@[simp]
theorem unwrap_eq_error {x : Option α} {t : Trap} :
    unwrap x = .error t ↔ x = none ∧ t = .unexpectedNil := by
  cases x <;> simp [unwrap, eq_comm]

@[simp]
theorem element_eq_ok {xs : List α} {i : Nat} {a : α} :
    element xs i = .ok a ↔ xs[i]? = some a := by
  rw [element]
  split <;> simp_all

-- What every call of a loop preserves holds at its end.
theorem foldlM_preserves {P : β → Prop} {f : β → α → Except ε β} {xs : List α} {b b' : β}
    (hs : ∀ x ∈ xs, ∀ {b b'}, f b x = .ok b' → P b → P b') (h : xs.foldlM f b = .ok b')
    (hb : P b) : P b' := by
  induction xs generalizing b
  case nil          => simp_all
  case cons x xs hi =>
    have ⟨hx, hs⟩ := List.forall_mem_cons.mp hs
    simp only [List.foldlM_cons, bind_eq_ok] at h
    have ⟨_, h₁, h₂⟩ := h
    exact hi hs h₂ (hx h₁ hb)

-- `Int` is a 64-bit integer on every device the app runs on. Its arithmetic traps on overflow.
def intMax : Int :=
  9223372036854775807

def add (a b : Int) : Except Trap Int :=
  if a + b ≤ intMax then .ok (a + b) else .error .arithmeticOverflow

-- A `Range<Int>`. The range operator `..<` checks its bounds, `Range(uncheckedBounds:)` does not.
structure IntRange where
  lowerBound : Int
  upperBound : Int
  deriving DecidableEq

def halfOpen (a b : Int) : Except Trap IntRange :=
  if a ≤ b then .ok ⟨a, b⟩ else .error .invalidRange

theorem halfOpen_eq_ok {a b : Int} (h : a ≤ b) : halfOpen a b = .ok ⟨a, b⟩ := by
  simp [halfOpen, h]

end LosTrouvee
