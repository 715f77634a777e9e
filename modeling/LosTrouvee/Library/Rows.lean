import LosTrouvee.Library.Table

namespace List

variable {α : Type*} {l : List α} {i j k : Nat}

-- The place of the element at `j` after `moveLastOver i`, where `last` is the last place before.
def movedOver (last i j : Nat) : Option Nat :=
  if j = i then none else if j = last then some i else some j

theorem movedOver_eq_some_iff {last : Nat} :
    movedOver last i j = some k ↔ j ≠ i ∧ (j = last ∧ k = i ∨ j ≠ last ∧ k = j) := by
  unfold movedOver
  grind

theorem movedOver_self (last i : Nat) : movedOver last i i = none := by
  simp [movedOver]

theorem movedOver_eq_none_iff {last : Nat} : movedOver last i j = none ↔ j = i := by
  unfold movedOver
  grind

theorem movedOver_inj {last : Nat} (hj : j ≤ last) {j' : Nat} (hj' : j' ≤ last)
    (h : movedOver last i j = some k) (h' : movedOver last i j' = some k) : j = j' := by
  rw [movedOver_eq_some_iff] at h h'
  omega

theorem movedOver_lt {last : Nat} (hi : i ≤ last) (hj : j ≤ last)
    (h : movedOver last i j = some k) : k < last := by
  rw [movedOver_eq_some_iff] at h
  omega

theorem exists_movedOver {last : Nat} (hk : k < last) :
    ∃ j, j ≤ last ∧ movedOver last i j = some k := by
  by_cases h : k = i
  case pos => exact ⟨last, Nat.le_refl _, movedOver_eq_some_iff.mpr (by omega)⟩
  case neg => exact ⟨k, Nat.le_of_lt hk, movedOver_eq_some_iff.mpr (by omega)⟩

theorem moveLastOver_eq (hi : i < l.length) :
    l.moveLastOver i = (l.set i (l.getLast (ne_nil_of_length_pos (by omega)))).dropLast := by
  simp [moveLastOver, getLast?_eq_some_getLast (ne_nil_of_length_pos (Nat.zero_lt_of_lt hi)), hi]

theorem length_moveLastOver (hi : i < l.length) : (l.moveLastOver i).length = l.length - 1 := by
  simp [moveLastOver_eq hi]

theorem getElem?_moveLastOver (hi : i < l.length) (hj : j < l.length)
    (h : movedOver (l.length - 1) i j = some k) : (l.moveLastOver i)[k]? = l[j]? := by
  have hk := movedOver_lt (by omega) (by omega) h
  rw [movedOver_eq_some_iff] at h
  rw [moveLastOver_eq hi, getElem?_dropLast, length_set, if_pos hk]
  rcases h with ⟨hne, ⟨rfl, rfl⟩ | ⟨hl, rfl⟩⟩
  case inl => simp [hi, getLast_eq_getElem, hj]
  case inr => simp [Ne.symm hne]

theorem map_moveLastOver {β : Type*} (f : α → β) (l : List α) (i : Nat) :
    (l.moveLastOver i).map f = (l.map f).moveLastOver i := by
  cases h : l.getLast?
  case none   => simp [moveLastOver, h]
  case some a => by_cases hi : i < l.length <;> simp [moveLastOver, h, hi, map_set]

end List

namespace Table

variable {α : Type*} {t : Table α} {i k : Nat}

theorem keys_insert (t : Table α) (a : α) : (t.insert a).keys = t.keys ++ [t.nextKey] := by
  simp [keys, insert]

-- The last key moves to the place of the one that is erased.
theorem keys_erase (h : t.keys[i]? = some k) : (t.erase k).keys = t.keys.moveLastOver i := by
  obtain ⟨hi, hk⟩ := List.getElem?_eq_some_iff.mp h
  have hf : t.rows.findIdx? (·.1 == k) = some i := by
    refine List.findIdx?_eq_some_iff_getElem.mpr ⟨by simpa [keys] using hi, ?_, fun j hj => ?_⟩
    · simpa [keys] using hk
    · have hl : j < t.keys.length := Nat.lt_trans hj hi
      have hne : t.keys[j] ≠ t.keys[i] := fun he =>
        Nat.ne_of_lt hj (t.keys_nodup.getElem_inj_iff.mp he)
      rw [hk] at hne
      simpa [keys] using hne
  simp [keys, erase, eraseRow, hf, List.map_moveLastOver]

end Table
