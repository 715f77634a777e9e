import LosTrouvee.Controllers.AddItemTableViewController
import LosTrouvee.Controllers.SessionControllers
import LosTrouvee.Library.Split

namespace LosTrouvee

-- An email address read without a regular expression: by its only `@` and by the last dot after it.
structure IsEmailAddress (s : List Char) : Prop where
  count   : s.count '@' = 1
  name    : s.beforeFirst '@' ≠ [] ∧
    ∀ c ∈ s.beforeFirst '@', c.isAlphanum ∨ c ∈ ['.', '_', '%', '+', '-']
  domain  : ∀ c ∈ s.afterFirst '@', c.isAlphanum ∨ c ∈ ['.', '-']
  dot     : '.' ∈ s.afterFirst '@'
  host    : (s.afterFirst '@').beforeLast '.' ≠ []
  length  : 2 ≤ ((s.afterFirst '@').afterLast '.').length ∧
    ((s.afterFirst '@').afterLast '.').length ≤ 64
  letters : ∀ c ∈ (s.afterFirst '@').afterLast '.', c.isAlpha

namespace Validation

variable {c : Char} {s : String}

theorem range_upper : range 'A' 'Z' c = c.isUpper :=
  (Bool.decide_and ..).symm

theorem range_lower : range 'a' 'z' c = c.isLower :=
  rfl

theorem range_digit : range '0' '9' c = c.isDigit :=
  rfl

theorem isAlpha_eq : c.isAlpha = (c.isUpper || c.isLower) :=
  rfl

theorem localSet_iff : localSet c ↔ c.isAlphanum ∨ c ∈ ['.', '_', '%', '+', '-'] := by
  simp only [localSet, range_upper, range_lower, range_digit, Char.isAlphanum, isAlpha_eq,
    Bool.or_eq_true, List.contains_iff_mem]
  grind

theorem domainSet_iff : domainSet c ↔ c.isAlphanum ∨ c ∈ ['.', '-'] := by
  simp only [domainSet, range_upper, range_lower, range_digit, Char.isAlphanum, isAlpha_eq,
    Bool.or_eq_true, List.contains_iff_mem]

theorem letterSet_iff : letterSet c ↔ c.isAlpha := by
  simp only [letterSet, range_upper, range_lower, isAlpha_eq, Bool.or_eq_true]

-- The domain set contains the dot and the letters, but the label after a match of the dot has no
-- dot of its own. So that dot is the last one.
theorem emailRegEx_iff : selfMatches emailRegEx s ↔ IsEmailAddress s.toList := by
  rw [selfMatches_emailRegEx_iff]
  simp only [localSet_iff, domainSet_iff, letterSet_iff]
  constructor
  case mp =>
    rintro ⟨name, host, label, hs, hn, hh, hl₁, hl₂, hl⟩
    have at_name : '@' ∉ name := fun h => absurd (hn.right _ h) (by decide)
    have at_host : '@' ∉ host := fun h => absurd (hh.right _ h) (by decide)
    have at_label : '@' ∉ label := fun h => absurd (hl _ h) (by decide)
    have dot_label : '.' ∉ label := fun h => absurd (hl _ h) (by decide)
    have hs : s.toList = name ++ '@' :: (host ++ '.' :: label) := by simpa using hs
    have hb : s.toList.beforeFirst '@' = name := hs ▸ List.beforeFirst_append_cons at_name
    have ha : s.toList.afterFirst '@' = host ++ '.' :: label :=
      hs ▸ List.afterFirst_append_cons at_name
    have hlast : (s.toList.afterFirst '@').afterLast '.' = label :=
      ha ▸ List.afterLast_append_cons dot_label
    have hhost : (s.toList.afterFirst '@').beforeLast '.' = host :=
      ha ▸ List.beforeLast_append_cons dot_label
    exact {
      count   := by
        simp [hs, List.count_eq_zero.mpr at_name, List.count_eq_zero.mpr at_host,
          List.count_eq_zero.mpr at_label]
      name    := hb ▸ hn
      domain  := by
        rw [ha]
        intro c hc
        rcases List.mem_append.mp hc with hc | hc
        · exact hh.right c hc
        · rcases List.mem_cons.mp hc with rfl | hc
          · exact .inr (by simp)
          · exact .inl (by simp [Char.isAlphanum, hl c hc])
      dot     := by simp [ha]
      host    := hhost ▸ hh.left
      length  := hlast ▸ ⟨hl₁, hl₂⟩
      letters := hlast ▸ hl }
  case mpr =>
    intro h
    have hat : '@' ∈ s.toList := List.count_pos_iff.mp (by simp [h.count])
    have hs := List.beforeFirst_append_afterFirst hat
    have hd := List.beforeLast_append_afterLast h.dot
    refine ⟨_, (s.toList.afterFirst '@').beforeLast '.', (s.toList.afterFirst '@').afterLast '.',
      ?_, h.name, ⟨h.host, fun c hc => h.domain c ?_⟩, h.length.left, h.length.right, h.letters⟩
    · conv_lhs => rw [← hs, ← hd]
      simp
    · rw [← hd]
      exact List.mem_append_left _ hc

end Validation

-- The three controllers have the same check.
theorem isValidEmail_iff (s : String) :
    (AddItemTableViewController.isValidEmail s ↔ IsEmailAddress s.toList) ∧
    (LoginTableViewController.isValidEmail s ↔ IsEmailAddress s.toList) ∧
    (RegisterTableViewController.isValidEmail s ↔ IsEmailAddress s.toList) :=
  ⟨Validation.emailRegEx_iff, Validation.emailRegEx_iff, Validation.emailRegEx_iff⟩

end LosTrouvee
