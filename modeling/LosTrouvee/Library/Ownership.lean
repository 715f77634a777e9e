import LosTrouvee.Library.Table

-- Tables whose rows have parts in another table. A row holds the key of its part as a link.
namespace Table

variable {α β : Type*} {link : α → Option Nat} {rows : Table α} {parts : Table β} {a a' : α} {b : β}
  {j k p : Nat}

theorem find?_erase_of_some (h : (rows.erase j).find? k = some a) :
    k ≠ j ∧ rows.find? k = some a := by
  by_cases hk : k = j <;> simp_all [find?_erase]

theorem find?_insert_eq_some (h : (rows.insert a').find? k = some a) :
    k = rows.nextKey ∧ a' = a ∨ rows.find? k = some a := by
  by_cases hk : k = rows.nextKey <;> simp_all [find?_insert]

-- A new part comes with a row.
theorem linked_of_insert (link : α → Option Nat) (hl : link a = some parts.nextKey) {c : β}
    (h : (parts.insert b).find? p = some c) :
    parts.find? p = some c ∨ ∃ k a', (rows.insert a).find? k = some a' ∧ link a' = some p := by
  rcases find?_insert_eq_some h with ⟨rfl, -⟩ | h
  · exact .inr ⟨rows.nextKey, a, by simp [find?_insert], hl⟩
  · exact .inl h

-- Every row has a part, and no other row has the same one.
structure Owns (link : α → Option Nat) (rows : Table α) (parts : Table β) : Prop where
  linked    : ∀ {k a}, rows.find? k = some a → ∃ p b, link a = some p ∧ parts.find? p = some b
  injective : ∀ {j k a b}, rows.find? j = some a → rows.find? k = some b → link a = link b → j = k

-- A part that no row has, and that none will get.
structure Orphan (link : α → Option Nat) (rows : Table α) (parts : Table β) (p : Nat) : Prop where
  old      : p < parts.nextKey
  unlinked : ∀ k a, rows.find? k = some a → link a ≠ some p

namespace Owns

theorem empty (link : α → Option Nat) : Owns link .empty (.empty : Table β) where
  linked    := by simp
  injective := by simp

theorem lt_nextKey (h : Owns link rows parts) (hk : rows.find? k = some a) (hp : link a = some p) :
    p < parts.nextKey := by
  have ⟨q, _, hq, hb⟩ := h.linked hk
  obtain rfl : p = q := by simpa [hp] using hq
  exact Table.lt_nextKey hb

-- A row is inserted together with its part.
theorem insert (h : Owns link rows parts) (hl : link a = some parts.nextKey) :
    Owns link (rows.insert a) (parts.insert b) where
  linked := by
    intro k a' hk
    rcases find?_insert_eq_some hk with ⟨rfl, rfl⟩ | hk
    · exact ⟨_, b, hl, by simp [find?_insert]⟩
    · have ⟨p, c, hp, hc⟩ := h.linked hk
      exact ⟨p, c, hp, find?_insert_of_some hc⟩
  injective := by
    intro j k a₁ a₂ hj hk he
    rcases find?_insert_eq_some hj with ⟨rfl, rfl⟩ | hj <;>
      rcases find?_insert_eq_some hk with ⟨rfl, rfl⟩ | hk
    · rfl
    · exact absurd (h.lt_nextKey hk (he ▸ hl)) (Nat.lt_irrefl _)
    · exact absurd (h.lt_nextKey hj (he.trans hl)) (Nat.lt_irrefl _)
    · exact h.injective hj hk he

theorem erase (h : Owns link rows parts) (k : Nat) : Owns link (rows.erase k) parts where
  linked hk        := h.linked (find?_erase_of_some hk).right
  injective hj hk  := h.injective (find?_erase_of_some hj).right (find?_erase_of_some hk).right

-- The part of a row that is deleted stays behind.
theorem orphan_erase (h : Owns link rows parts) (hk : rows.find? k = some a)
    (hp : link a = some p) :
    Orphan link (rows.erase k) parts p where
  old := h.lt_nextKey hk hp
  unlinked := by
    intro j a' hj hp'
    have ⟨hne, hj⟩ := find?_erase_of_some hj
    exact hne (h.injective hj hk (hp'.trans hp.symm))

end Owns

namespace Orphan

theorem insert (h : Orphan link rows parts p) (hl : link a = some parts.nextKey) :
    Orphan link (rows.insert a) (parts.insert b) p where
  old := Nat.lt_succ_of_lt h.old
  unlinked := by
    intro k a' hk hp
    rcases find?_insert_eq_some hk with ⟨rfl, rfl⟩ | hk
    · obtain rfl : parts.nextKey = p := by simpa [hl] using hp
      exact Nat.lt_irrefl _ h.old
    · exact h.unlinked k a' hk hp

theorem erase (h : Orphan link rows parts p) (k : Nat) : Orphan link (rows.erase k) parts p where
  old := h.old
  unlinked := by
    intro j a hj
    exact h.unlinked j a (find?_erase_of_some hj).right

end Orphan
end Table
