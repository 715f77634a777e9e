import Mathlib.Data.List.TakeWhile

-- The parts of a list around the first and the last occurrence of an element.
namespace List

variable {α : Type*} [DecidableEq α] {a : α} {l l₁ l₂ : List α}

def beforeFirst (a : α) (l : List α) : List α :=
  l.takeWhile (· ≠ a)

def afterFirst (a : α) (l : List α) : List α :=
  (l.dropWhile (· ≠ a)).tail

def beforeLast (a : α) (l : List α) : List α :=
  (l.reverse.afterFirst a).reverse

def afterLast (a : α) (l : List α) : List α :=
  (l.reverse.beforeFirst a).reverse

theorem beforeFirst_append_cons (h : a ∉ l₁) : (l₁ ++ a :: l₂).beforeFirst a = l₁ := by
  induction l₁
  case nil          => simp [beforeFirst]
  case cons b l₁ hi =>
    have ⟨hb, hl⟩ := not_or.mp (mt mem_cons.mpr h)
    simpa [beforeFirst, takeWhile_cons, Ne.symm hb] using hi hl

theorem afterFirst_append_cons (h : a ∉ l₁) : (l₁ ++ a :: l₂).afterFirst a = l₂ := by
  induction l₁
  case nil          => simp [afterFirst]
  case cons b l₁ hi =>
    have ⟨hb, hl⟩ := not_or.mp (mt mem_cons.mpr h)
    simpa [afterFirst, dropWhile_cons, Ne.symm hb] using hi hl

theorem beforeFirst_append_afterFirst (h : a ∈ l) :
    l.beforeFirst a ++ a :: l.afterFirst a = l := by
  induction l
  case nil         => simp at h
  case cons b l hi =>
    by_cases hb : b = a
    case pos => simp [beforeFirst, afterFirst, hb]
    case neg =>
      have hl := hi <| (mem_cons.mp h).resolve_left (Ne.symm hb)
      simpa [beforeFirst, afterFirst, hb] using hl

theorem afterLast_append_cons (h : a ∉ l₂) : (l₁ ++ a :: l₂).afterLast a = l₂ := by
  have hr : (l₁ ++ a :: l₂).reverse = l₂.reverse ++ a :: l₁.reverse := by simp
  rw [afterLast, hr, beforeFirst_append_cons (by simpa using h), reverse_reverse]

theorem beforeLast_append_cons (h : a ∉ l₂) : (l₁ ++ a :: l₂).beforeLast a = l₁ := by
  have hr : (l₁ ++ a :: l₂).reverse = l₂.reverse ++ a :: l₁.reverse := by simp
  rw [beforeLast, hr, afterFirst_append_cons (by simpa using h), reverse_reverse]

theorem beforeLast_append_afterLast (h : a ∈ l) : l.beforeLast a ++ a :: l.afterLast a = l := by
  have hr := beforeFirst_append_afterFirst (mem_reverse.mpr h)
  rw [← reverse_inj, reverse_append, reverse_cons]
  simpa [beforeLast, afterLast] using hr

end List
