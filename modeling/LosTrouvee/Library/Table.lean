import Mathlib.Data.List.Nodup
import Mathlib.Data.List.Perm.Basic
import Mathlib.Logic.Function.Basic

namespace List

variable {α : Type*}

-- Deletes the element at `i` by moving the last element into its place.
def moveLastOver (l : List α) (i : Nat) : List α :=
  match l.getLast? with
  | some a => if i < l.length then (l.set i a).dropLast else l
  | none   => l

theorem Nodup.mem_eraseIdx_iff {l : List α} (h : l.Nodup) {i : Nat} {a b : α} (hi : l[i]? = some a) :
    b ∈ l.eraseIdx i ↔ b ∈ l ∧ b ≠ a := by
  have ⟨hl, ha⟩ := getElem?_eq_some_iff.mp hi
  rw [mem_eraseIdx_iff_getElem]
  constructor
  case mp =>
    rintro ⟨j, hj, hij, rfl⟩
    exact ⟨getElem_mem hj, fun he => hij (h.getElem_inj_iff.mp (he.trans ha.symm)) ⟩
  case mpr =>
    rintro ⟨hb, hne⟩
    have ⟨j, hj, hb⟩ := mem_iff_getElem.mp hb
    exact ⟨j, hj, by rintro rfl; exact hne (hb.symm.trans ha), hb⟩

theorem Nodup.mem_set_iff {l : List α} (h : l.Nodup) {i : Nat} {a b c : α} (hi : l[i]? = some a) :
    b ∈ l.set i c ↔ b = c ∨ b ∈ l ∧ b ≠ a := by
  have ⟨hl, _⟩ := getElem?_eq_some_iff.mp hi
  rw [(set_perm_cons_eraseIdx hl c).mem_iff, mem_cons, h.mem_eraseIdx_iff hi]

theorem moveLastOver_concat_perm (l : List α) (a : α) (i : Nat) :
    ((l ++ [a]).moveLastOver i).Perm ((l ++ [a]).eraseIdx i) := by
  rcases Nat.lt_trichotomy i l.length with h | h | h
  · have hd : ((l ++ [a]).set i a).dropLast = l.set i a := by simp [List.set_append_left _ _ h]
    have hm : (l ++ [a]).moveLastOver i = l.set i a := by
      simp [moveLastOver, hd, Nat.lt_succ_of_lt h]
    rw [hm, eraseIdx_append_of_lt_length h]
    exact (set_perm_cons_eraseIdx h a).trans (perm_append_singleton a _).symm
  · subst h
    simp [moveLastOver, eraseIdx_append_of_length_le (Nat.le_refl l.length)]
  · have hl : (l ++ [a]).length ≤ i := by simpa using Nat.succ_le_of_lt h
    simp [moveLastOver, eraseIdx_of_length_le hl, Nat.not_lt.mpr (Nat.succ_le_of_lt h)]

theorem moveLastOver_perm (l : List α) (i : Nat) : (l.moveLastOver i).Perm (l.eraseIdx i) := by
  rcases l.eq_nil_or_concat with rfl | ⟨l, a, rfl⟩
  · simp [moveLastOver]
  · simpa using moveLastOver_concat_perm l a i

end List

-- A table of rows under keys that are handed out once and never again, as the objects of a
-- database keep their identity while rows move.
structure Table (α : Type*) where
  rows    : List (Nat × α)
  nextKey : Nat
  nodup   : (rows.map Prod.fst).Nodup
  fresh   : ∀ r ∈ rows, r.1 < nextKey

namespace Table

variable {α : Type*} {t : Table α} {a : α} {k : Nat}

def empty : Table α where
  rows    := []
  nextKey := 0
  nodup   := by simp
  fresh   := by simp

def keys (t : Table α) : List Nat :=
  t.rows.map Prod.fst

def find? (t : Table α) (k : Nat) : Option α :=
  t.rows.find? (·.1 == k) |>.map Prod.snd

def insert (t : Table α) (a : α) : Table α where
  rows    := t.rows ++ [(t.nextKey, a)]
  nextKey := t.nextKey + 1
  nodup   := by
    have h : ∀ r ∈ t.rows, r.1 ≠ t.nextKey := fun r hr => Nat.ne_of_lt (t.fresh r hr)
    simpa [List.nodup_append, t.nodup] using fun a b => h (a, b)
  fresh   := by
    intro r hr
    rcases List.mem_append.mp hr with hr | hr
    · exact Nat.lt_succ_of_lt (t.fresh r hr)
    · simp_all

def eraseRow (rows : List (Nat × α)) (k : Nat) : List (Nat × α) :=
  match rows.findIdx? (·.1 == k) with
  | some i => rows.moveLastOver i
  | none   => rows

theorem eraseRow_perm (rows : List (Nat × α)) (k : Nat) :
    (eraseRow rows k).Perm (rows.eraseP (·.1 == k)) := by
  rw [List.eraseP_eq_eraseIdx, eraseRow]
  cases rows.findIdx? (·.1 == k)
  case none   => exact .refl _
  case some i => exact List.moveLastOver_perm ..

def erase (t : Table α) (k : Nat) : Table α where
  rows    := eraseRow t.rows k
  nextKey := t.nextKey
  nodup   := by
    have h := (eraseRow_perm t.rows k).map Prod.fst
    exact h.nodup_iff.mpr <| t.nodup.sublist <| List.eraseP_sublist.map _
  fresh   := by
    intro r hr
    exact t.fresh r <| List.eraseP_subset <| (eraseRow_perm t.rows k).mem_iff.mp hr

theorem eq_of_mem (h₁ : (k, a) ∈ t.rows) {b : α} (h₂ : (k, b) ∈ t.rows) : a = b := by
  have h := List.inj_on_of_nodup_map t.nodup h₁ h₂ rfl
  exact (Prod.mk.inj h).right

theorem find?_eq_some_iff : t.find? k = some a ↔ (k, a) ∈ t.rows := by
  simp only [find?, Option.map_eq_some_iff]
  constructor
  case mp =>
    rintro ⟨⟨k', a'⟩, h, rfl⟩
    have hk := List.find?_some h
    simp only [beq_iff_eq] at hk
    exact hk ▸ List.mem_of_find?_eq_some h
  case mpr =>
    intro h
    have hs : (t.rows.find? (·.1 == k)).isSome := by simpa using ⟨a, h⟩
    have ⟨⟨k', a'⟩, hf⟩ := Option.isSome_iff_exists.mp hs
    have hk := List.find?_some hf
    simp only [beq_iff_eq] at hk
    subst hk
    exact ⟨_, hf, eq_of_mem (List.mem_of_find?_eq_some hf) h⟩

theorem mem_keys_iff : k ∈ t.keys ↔ ∃ a, t.find? k = some a := by
  simp [keys, find?_eq_some_iff]

theorem keys_nodup (t : Table α) : t.keys.Nodup :=
  t.nodup

theorem lt_nextKey (h : t.find? k = some a) : k < t.nextKey :=
  t.fresh _ <| find?_eq_some_iff.mp h

@[simp]
theorem find?_nextKey (t : Table α) : t.find? t.nextKey = none :=
  Option.eq_none_iff_forall_ne_some.mpr fun _ h => Nat.lt_irrefl _ (lt_nextKey h)

@[simp]
theorem find?_empty (k : Nat) : (empty : Table α).find? k = none :=
  rfl

@[simp]
theorem insert_nextKey (t : Table α) (a : α) : (t.insert a).nextKey = t.nextKey + 1 :=
  rfl

@[simp]
theorem erase_nextKey (t : Table α) (k : Nat) : (t.erase k).nextKey = t.nextKey :=
  rfl

theorem ne_of_mem_erase_rows {r : Nat × α} (h : r ∈ (t.erase k).rows) : r.1 ≠ k := by
  replace h := (eraseRow_perm t.rows k).mem_iff.mp h
  rintro rfl
  rcases List.exists_or_eq_self_of_eraseP (·.1 == r.1) t.rows with he | ⟨q, l₁, l₂, -, hq, hr, he⟩
  · have hn := List.eraseP_eq_self_iff.mp he
    exact hn r (he ▸ h) (by simp)
  · have hn := t.nodup
    simp only [beq_iff_eq] at hq
    simp only [he, List.mem_append] at h
    -- Both `r` and the erased row `q` carry the key `r.1`.
    simp only [hr, List.map_append, List.map_cons, hq, List.nodup_append, List.nodup_cons,
      List.mem_map, List.mem_cons, not_exists, not_and] at hn
    rcases h with h | h
    · exact hn.right.right _ ⟨r, h, rfl⟩ _ (.inl rfl) rfl
    · exact hn.right.left.left _ h rfl

theorem mem_erase_rows {r : Nat × α} : r ∈ (t.erase k).rows ↔ r.1 ≠ k ∧ r ∈ t.rows := by
  have hp := (eraseRow_perm t.rows k).mem_iff (a := r)
  constructor
  case mp  => exact fun h => ⟨ne_of_mem_erase_rows h, List.eraseP_subset (hp.mp h)⟩
  case mpr => exact fun ⟨h₁, h₂⟩ => hp.mpr <| (List.mem_eraseP_of_neg (by simpa using h₁)).mpr h₂

theorem find?_insert (t : Table α) (a : α) :
    (t.insert a).find? = Function.update t.find? t.nextKey (some a) := by
  funext k
  ext b
  rw [find?_eq_some_iff]
  by_cases h : k = t.nextKey
  case pos =>
    subst h
    have hn : (t.nextKey, b) ∉ t.rows := fun h => Nat.lt_irrefl _ (t.fresh _ h)
    simp [insert, hn, eq_comm]
  case neg => simp [insert, h, find?_eq_some_iff]

theorem find?_erase (t : Table α) (k : Nat) :
    (t.erase k).find? = Function.update t.find? k none := by
  funext j
  ext b
  rw [find?_eq_some_iff, mem_erase_rows]
  by_cases h : j = k <;> simp [h, find?_eq_some_iff]

theorem find?_insert_of_some {b : α} (h : t.find? k = some b) : (t.insert a).find? k = some b := by
  have hk : k ≠ t.nextKey := Nat.ne_of_lt (lt_nextKey h)
  simp [find?_insert, hk, h]

-- Inserts an optional row and returns the link to it.
def insert? (t : Table α) : Option α → Table α × Option Nat
  | some a => (t.insert a, some t.nextKey)
  | none   => (t, none)

theorem insert?_link (t : Table α) (a : Option α) :
    (t.insert? a).2.bind (t.insert? a).1.find? = a := by
  cases a <;> simp [insert?, find?_insert]

theorem insert?_preserves {o : Option α} {b : α} (h : t.find? k = some b) :
    (t.insert? o).1.find? k = some b := by
  cases o
  case none   => exact h
  case some a => exact find?_insert_of_some h

end Table
