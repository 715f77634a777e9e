import Mathlib.Data.List.Basic

-- Regular expressions with zero-width assertions. `behind` looks at the input before the position,
-- nearest element first, and `ahead` at the input after it.
inductive Regex (α : Type*)
  | empty
  | epsilon
  | set (p : α → Bool)
  | behind (p : List α → Bool)
  | ahead (p : List α → Bool)
  | seq (r q : Regex α)
  | alt (r q : Regex α)
  | star (r : Regex α)

namespace Regex

-- `Matches r pre s post` means that `r` matches the part `s` of an input that has `pre`, reversed,
-- before it and `post` after it.
inductive Matches {α : Type*} : Regex α → List α → List α → List α → Prop
  | epsilon {pre post} : Matches .epsilon pre [] post
  | set {p a pre post} : p a → Matches (.set p) pre [a] post
  | behind {p pre post} : p pre → Matches (.behind p) pre [] post
  | ahead {p pre post} : p post → Matches (.ahead p) pre [] post
  | seq {r q pre s t post} : Matches r pre s (t ++ post) → Matches q (s.reverse ++ pre) t post →
    Matches (.seq r q) pre (s ++ t) post
  | left {r q pre s post} : Matches r pre s post → Matches (.alt r q) pre s post
  | right {r q pre s post} : Matches q pre s post → Matches (.alt r q) pre s post
  | nil {r pre post} : Matches (.star r) pre [] post
  | cons {r pre s t post} : Matches r pre s (t ++ post) →
    Matches (.star r) (s.reverse ++ pre) t post → Matches (.star r) pre (s ++ t) post

variable {α : Type*} {r q : Regex α} {p : α → Bool} {a : α} {pre s post : List α}

namespace Matches

@[simp]
theorem empty_iff : ¬Matches .empty pre s post := by
  rintro ⟨⟩

@[simp]
theorem epsilon_iff : Matches .epsilon pre s post ↔ s = [] where
  mp  | .epsilon => rfl
  mpr h := h ▸ .epsilon

@[simp]
theorem set_iff : Matches (.set p) pre s post ↔ ∃ a, p a ∧ s = [a] where
  mp  | .set h => ⟨_, h, rfl⟩
  mpr := fun ⟨_, h, hs⟩ => hs ▸ .set h

@[simp]
theorem behind_iff {p : List α → Bool} : Matches (.behind p) pre s post ↔ p pre ∧ s = [] where
  mp  | .behind h => ⟨h, rfl⟩
  mpr := fun ⟨h, hs⟩ => hs ▸ .behind h

@[simp]
theorem ahead_iff {p : List α → Bool} : Matches (.ahead p) pre s post ↔ p post ∧ s = [] where
  mp  | .ahead h => ⟨h, rfl⟩
  mpr := fun ⟨h, hs⟩ => hs ▸ .ahead h

theorem seq_iff : Matches (.seq r q) pre s post ↔
    ∃ t u, s = t ++ u ∧ Matches r pre t (u ++ post) ∧ Matches q (t.reverse ++ pre) u post where
  mp  | .seq h₁ h₂ => ⟨_, _, rfl, h₁, h₂⟩
  mpr := fun ⟨_, _, hs, h₁, h₂⟩ => hs ▸ .seq h₁ h₂

@[simp]
theorem alt_iff : Matches (.alt r q) pre s post ↔ Matches r pre s post ∨ Matches q pre s post where
  mp  | .left h => .inl h | .right h => .inr h
  mpr | .inl h => .left h | .inr h => .right h

-- A nonempty match of a star begins with a nonempty match of its body.
theorem star_cons (h : Matches (.star r) pre (a :: s) post) :
    ∃ t u, s = t ++ u ∧ Matches r pre (a :: t) (u ++ post) ∧
      Matches (.star r) ((a :: t).reverse ++ pre) u post := by
  generalize hq : Regex.star r = q, hs : a :: s = s' at h
  induction h <;> cases hq
  case nil => simp at hs
  case cons pre t u post h₁ h₂ _ hi =>
    obtain _ | ⟨b, t⟩ := t
    · exact hi rfl hs
    · have ⟨hb, ht⟩ := List.cons.inj hs
      exact ⟨t, u, ht, hb ▸ h₁, hb ▸ h₂⟩

theorem star_cons_iff : Matches (.star r) pre (a :: s) post ↔
    ∃ t u, s = t ++ u ∧ Matches r pre (a :: t) (u ++ post) ∧
      Matches (.star r) ((a :: t).reverse ++ pre) u post where
  mp  := star_cons
  mpr := fun ⟨_, _, h, h₁, h₂⟩ => h ▸ Matches.cons h₁ h₂

end Matches

-- Whether `r` matches the empty word at a position.
def nullable (pre post : List α) : Regex α → Bool
  | empty | set _ => false
  | epsilon       => true
  | behind p      => p pre
  | ahead p       => p post
  | seq r q       => r.nullable pre post && q.nullable pre post
  | alt r q       => r.nullable pre post || q.nullable pre post
  | star _        => true

theorem nullable_iff : r.nullable pre post ↔ Matches r pre [] post := by
  induction r <;> simp_all [nullable, Matches.seq_iff]
  case star => exact .nil

-- What is left of `r` after reading `a` at a position with `pre` before it, reversed, and `post`
-- after `a`.
def deriv (pre : List α) (a : α) (post : List α) : Regex α → Regex α
  | empty | epsilon | behind _ | ahead _ => empty
  | set p   => if p a then epsilon else empty
  | seq r q =>
    alt (seq (r.deriv pre a post) q) <|
      if r.nullable pre (a :: post) then q.deriv pre a post else empty
  | alt r q => alt (r.deriv pre a post) (q.deriv pre a post)
  | star r  => seq (r.deriv pre a post) (star r)

theorem deriv_iff :
    Matches (r.deriv pre a (s ++ post)) (a :: pre) s post ↔ Matches r pre (a :: s) post := by
  induction r generalizing s post
  case empty | epsilon | behind | ahead => simp [deriv]
  case set p => by_cases h : p a <;> simp [deriv, h]
  case alt h₁ h₂ => simp [deriv, h₁, h₂]
  case seq r q h₁ h₂ =>
    simp only [deriv, Matches.alt_iff, Matches.seq_iff]
    constructor
    case mp =>
      rintro (⟨t, u, rfl, ht, hu⟩ | h)
      · rw [List.append_assoc, h₁] at ht
        exact ⟨a :: t, u, rfl, ht, by simpa using hu⟩
      · split at h
        case isTrue hn  => exact ⟨[], a :: s, rfl, nullable_iff.mp hn, h₂.mp h⟩
        case isFalse hn => simp at h
    case mpr =>
      rintro ⟨t, u, hs, ht, hu⟩
      cases t
      case nil =>
        obtain rfl : a :: s = u := hs
        have hn : r.nullable pre (a :: (s ++ post)) := nullable_iff.mpr ht
        rw [if_pos hn]
        exact .inr (h₂.mpr hu)
      case cons b t =>
        obtain ⟨rfl, rfl⟩ : a = b ∧ s = t ++ u := List.cons.inj hs
        refine .inl ⟨t, u, rfl, ?_, by simpa using hu⟩
        rwa [List.append_assoc, h₁]
  case star r h =>
    simp only [deriv, Matches.seq_iff, Matches.star_cons_iff]
    constructor
    all_goals
      rintro ⟨t, u, rfl, ht, hu⟩
      refine ⟨t, u, rfl, ?_, by simpa using hu⟩
    · rwa [List.append_assoc, h] at ht
    · rwa [List.append_assoc, h]

-- Whether `r` matches the rest `s` of an input of which `pre` was read before, reversed.
def accepts (r : Regex α) (pre : List α) : List α → Bool
  | []     => r.nullable pre []
  | a :: s => (r.deriv pre a s).accepts (a :: pre) s

theorem accepts_iff : r.accepts pre s ↔ Matches r pre s [] := by
  induction s generalizing r pre
  case nil         => exact nullable_iff
  case cons a s hi =>
    have h : Matches (r.deriv pre a (s ++ [])) (a :: pre) s [] ↔ _ := deriv_iff
    rw [accepts, hi, ← h, List.append_nil]

-- Whether `r` matches the whole input.
def matchesAll (r : Regex α) (s : List α) : Bool :=
  r.accepts [] s

theorem matchesAll_iff : r.matchesAll s ↔ Matches r [] s [] :=
  accepts_iff

def lit [DecidableEq α] (a : α) : Regex α :=
  set (· = a)

def plus (r : Regex α) : Regex α :=
  seq r (star r)

def power (r : Regex α) : Nat → Regex α
  | 0     => epsilon
  | n + 1 => seq r (power r n)

def atMost (r : Regex α) : Nat → Regex α
  | 0     => epsilon
  | n + 1 => alt epsilon (seq r (atMost r n))

-- `r{m,n}`
def between (r : Regex α) (m n : Nat) : Regex α :=
  seq (r.power m) (r.atMost (n - m))

-- What the repetitions of a single set match does not depend on the context.
namespace Matches

@[simp]
theorem lit_iff [DecidableEq α] {b : α} : Matches (.lit b) pre s post ↔ s = [b] := by
  simp [lit]

theorem set_seq_iff :
    Matches (.seq (.set p) q) pre s post ↔
      ∃ a t, s = a :: t ∧ p a ∧ Matches q (a :: pre) t post := by
  simp only [seq_iff, set_iff]
  constructor
  case mp  => rintro ⟨_, u, rfl, ⟨a, h, rfl⟩, hu⟩; exact ⟨a, u, rfl, h, hu⟩
  case mpr => rintro ⟨a, t, rfl, h, ht⟩; exact ⟨[a], t, rfl, ⟨a, h, rfl⟩, ht⟩

theorem star_set_iff : Matches (.star (.set p)) pre s post ↔ ∀ a ∈ s, p a := by
  induction s generalizing pre
  case nil         => simpa using Matches.nil
  case cons a s hi =>
    rw [star_cons_iff, List.forall_mem_cons]
    constructor
    case mp =>
      rintro ⟨t, u, rfl, ht, hu⟩
      obtain ⟨b, hb, h⟩ := set_iff.mp ht
      obtain ⟨rfl, rfl⟩ := List.cons.inj h
      exact ⟨hb, hi.mp hu⟩
    case mpr =>
      exact fun ⟨ha, hs⟩ => ⟨[], s, rfl, .set ha, hi.mpr hs⟩

theorem plus_set_iff : Matches (.plus (.set p)) pre s post ↔ s ≠ [] ∧ ∀ a ∈ s, p a := by
  simp only [plus, set_seq_iff, star_set_iff]
  cases s <;> simp

theorem power_set_iff {n : Nat} :
    Matches (.power (.set p) n) pre s post ↔ s.length = n ∧ ∀ a ∈ s, p a := by
  induction n generalizing pre s
  case zero      => cases s <;> simp [power]
  case succ n hi =>
    simp only [power, set_seq_iff, hi]
    cases s
    all_goals simp; try tauto

theorem atMost_set_iff {n : Nat} :
    Matches (.atMost (.set p) n) pre s post ↔ s.length ≤ n ∧ ∀ a ∈ s, p a := by
  induction n generalizing pre s
  case zero      => cases s <;> simp [atMost]
  case succ n hi =>
    simp only [atMost, alt_iff, epsilon_iff, set_seq_iff, hi]
    cases s
    all_goals simp; try tauto

theorem between_set_iff {m n : Nat} (h : m ≤ n) :
    Matches (.between (.set p) m n) pre s post ↔
      m ≤ s.length ∧ s.length ≤ n ∧ ∀ a ∈ s, p a := by
  simp only [between, seq_iff, power_set_iff, atMost_set_iff]
  constructor
  case mp =>
    rintro ⟨t, u, rfl, ⟨rfl, ht⟩, hl, hu⟩
    refine ⟨by simp, by simp; omega, fun a ha => ?_⟩
    exact (List.mem_append.mp ha).elim (ht a) (hu a)
  case mpr =>
    rintro ⟨hm, hn, hs⟩
    refine ⟨s.take m, s.drop m, (List.take_append_drop m s).symm, ⟨?_, ?_⟩, ?_, ?_⟩
    · exact List.length_take_of_le hm
    · exact fun a ha => hs a (List.mem_of_mem_take ha)
    · simp only [List.length_drop]; omega
    · exact fun a ha => hs a (List.mem_of_mem_drop ha)

end Matches
end Regex
