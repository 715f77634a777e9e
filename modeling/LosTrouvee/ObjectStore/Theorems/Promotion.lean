import LosTrouvee.ObjectStore.Store
import Mathlib.Logic.Relation

namespace LosTrouvee

variable {C P V : Type}

-- The object stands for a row of the Realm at hand.
structure RLMObject.Managed (object : RLMObject C P V) : Prop where
  realm : object.realm = some .this
  row   : ∃ row, object.row = some row

instance (object : RLMObject C P V) : Decidable object.Managed :=
  decidable_of_iff (object.realm = some .this ∧ object.row.isSome)
    ⟨fun ⟨hr, hi⟩ => ⟨hr, Option.isSome_iff_exists.mp hi⟩,
      fun h => ⟨h.realm, Option.isSome_iff_exists.mpr h.row⟩⟩

namespace Store

variable {schema : Schema C P} {s t u : Store C P V} {o o' l : Nat} {c d : C} {i j : Nat} {p q : P}

-- The object comes to be managed, by a new row of its class.
structure Promoted (s t : Store C P V) (o : Nat) : Prop where
  unmanaged : (s.objects o).isUnmanaged
  className : (t.objects o).className = (s.objects o).className
  realm     : (t.objects o).realm = some .this
  row       : ∃ row, (t.objects o).row = some row ∧
    (s.tables (s.objects o).className).length ≤ row ∧
    row < (t.tables (s.objects o).className).length

-- Rows are added, each for another object.
structure Grows (s t : Store C P V) : Prop where
  inWriteTransaction : t.inWriteTransaction = s.inWriteTransaction
  count              : t.count = s.count
  row    : ∀ {c} {i : Nat} {r}, (s.tables c)[i]? = some r → (t.tables c)[i]? = some r
  object : ∀ o, t.objects o = s.objects o ∨ Promoted s t o
  covers : ∀ {c i}, (s.tables c).length ≤ i → i < (t.tables c).length →
    ∃ o, Promoted s t o ∧ (s.objects o).className = c ∧ (t.objects o).row = some i
  inj    : ∀ {o o'}, Promoted s t o → Promoted s t o' →
    (s.objects o).className = (s.objects o').className →
    (t.objects o).row = (t.objects o').row → o = o'

-- What `schema` and Swift's types promise of the objects of the program.
structure Typed (schema : Schema C P) (s : Store C P V) : Prop where
  link     : ∀ {o p d l}, (s.objects o).isUnmanaged →
    schema.objectClassName (s.objects o).className p = some d → (s.objects o).link p = some l →
    (s.objects l).className = d ∧ l < s.count
  attached : ∀ {o}, (s.objects o).realm = some .this → (s.objects o).isInvalidated = false →
    (s.objects o).Managed

-- The row of the object has the value of its property. A link leads to the row of the object that
-- the property held.
structure Copies (schema : Schema C P) (s t : Store C P V) (o : Nat) (p : P) : Prop where
  value : schema.objectClassName (s.objects o).className p = none →
    ∃ r, t.row? o = some r ∧ r.value p = (s.objects o).value p
  link  : ∀ {d}, schema.objectClassName (s.objects o).className p = some d →
    (t.objects o).link p = none ∧
    (∃ r, t.row? o = some r ∧ r.link p = (s.objects o).link p >>= fun l => (t.objects l).row) ∧
    ∀ l, (s.objects o).link p = some l → (t.objects l).Managed

structure Copied (schema : Schema C P) (s t : Store C P V) (o : Nat) : Prop where
  isObserved : (s.objects o).isObserved = false
  isAccessor : (t.objects o).isAccessor
  copies     : ∀ p ∈ schema.properties (s.objects o).className, Copies schema s t o p

-- The object is not managed and holds another one.
def Holds (schema : Schema C P) (s : Store C P V) (o l : Nat) : Prop :=
  (s.objects o).isUnmanaged ∧ ∃ p d,
    schema.objectClassName (s.objects o).className p = some d ∧ (s.objects o).link p = some l

-- What adding an object comes to.
structure Adds (schema : Schema C P) (s t : Store C P V) (o : Nat) : Prop where
  grows   : Grows s t
  copied  : ∀ {o'}, Promoted s t o' → Copied schema s t o'
  holds   : ∀ {o'}, Promoted s t o' → Relation.ReflTransGen (Holds schema s) o o'
  managed : (t.objects o).Managed

theorem Promoted.managed (h : Promoted s t o) : (t.objects o).Managed where
  realm := h.realm
  row   := h.row.imp fun _ h => h.left

theorem Promoted.realm_ne (h : Promoted s t o) : (t.objects o).realm ≠ none := by
  simp [h.realm]

theorem Promoted.ne (h : Promoted s t o) : t.objects o ≠ s.objects o :=
  fun he => h.realm_ne (he ▸ (RLMObject.isUnmanaged_iff.mp h.unmanaged).left)

namespace Grows

theorem refl (s : Store C P V) : Grows s s where
  inWriteTransaction := rfl
  count              := rfl
  row h              := h
  object _           := .inl rfl
  covers h₁ h₂       := absurd h₂ (Nat.not_lt.mpr h₁)
  inj h              := absurd rfl h.ne

theorem className (h : Grows s t) (o : Nat) :
    (t.objects o).className = (s.objects o).className := by
  cases h.object o
  case inl h => rw [h]
  case inr h => exact h.className

theorem length_le (h : Grows s t) (c : C) : (s.tables c).length ≤ (t.tables c).length := by
  by_contra hl
  have hr := h.row (List.getElem?_eq_getElem (Nat.not_le.mp hl))
  simp at hr

theorem eq_of_realm (h : Grows s t) (hr : (s.objects o).realm ≠ none) :
    t.objects o = s.objects o := by
  cases h.object o
  case inl h => exact h
  case inr h => exact absurd (RLMObject.isUnmanaged_iff.mp h.unmanaged).left hr

theorem managed (h : Grows s t) (hm : (s.objects o).Managed) : (t.objects o).Managed := by
  rwa [h.eq_of_realm (by simp [hm.realm])]

theorem eq_of_unmanaged (h : Grows s t) (hu : (t.objects o).isUnmanaged) :
    t.objects o = s.objects o := by
  cases h.object o
  case inl h => exact h
  case inr h => exact absurd (RLMObject.isUnmanaged_iff.mp hu).left h.realm_ne

theorem holds (h : Grows s t) (hh : Holds schema t o l) : Holds schema s o l := by
  have he := h.eq_of_unmanaged hh.left
  exact ⟨he ▸ hh.left, he ▸ hh.right⟩

theorem row?_eq (h : Grows s t) (hr : (s.objects o).realm ≠ none) {r : Row P V}
    (hs : s.row? o = some r) : t.row? o = some r := by
  obtain ⟨i, hi, hs⟩ := Option.bind_eq_some_iff.mp hs
  simp only [row?, h.eq_of_realm hr, hi, Option.bind_some]
  exact h.row hs

theorem promoted_left (h₂ : Grows t u) (h : Promoted s t o) : Promoted s u o := by
  have he := h₂.eq_of_realm h.realm_ne
  obtain ⟨i, hi, hl, hu⟩ := h.row
  exact {
    unmanaged := h.unmanaged
    className := he ▸ h.className
    realm     := he ▸ h.realm
    row       := ⟨i, he ▸ hi, hl, Nat.lt_of_lt_of_le hu (h₂.length_le _)⟩ }

theorem promoted_right (h₁ : Grows s t) (h : Promoted t u o) : Promoted s u o := by
  have he := h₁.eq_of_unmanaged h.unmanaged
  obtain ⟨i, hi, hl, hu⟩ := h.row
  rw [he] at hl hu
  exact {
    unmanaged := he ▸ h.unmanaged
    className := he ▸ h.className
    realm     := h.realm
    row       := ⟨i, hi, Nat.le_trans (h₁.length_le _) hl, hu⟩ }

-- An object is promoted on the first or on the second stretch.
theorem promoted_cases (h₁ : Grows s t) (h₂ : Grows t u) (h : Promoted s u o) :
    Promoted s t o ∧ u.objects o = t.objects o ∨
      Promoted t u o ∧ t.objects o = s.objects o := by
  cases h₁.object o
  case inr ht => exact .inl ⟨ht, h₂.eq_of_realm ht.realm_ne⟩
  case inl ht =>
    cases h₂.object o
    case inl hu => exact absurd (hu.trans ht) h.ne
    case inr hu => exact .inr ⟨hu, ht⟩

theorem trans (h₁ : Grows s t) (h₂ : Grows t u) : Grows s u where
  inWriteTransaction := h₂.inWriteTransaction.trans h₁.inWriteTransaction
  count              := h₂.count.trans h₁.count
  row h              := h₂.row (h₁.row h)
  object o := by
    cases h₂.object o
    case inr h => exact .inr (h₁.promoted_right h)
    case inl h =>
      cases h₁.object o
      case inl h' => exact .inl (h.trans h')
      case inr h' => exact .inr (h₂.promoted_left h')
  covers {c i} hs hu := by
    by_cases ht : i < (t.tables c).length
    case pos =>
      obtain ⟨o, h, hc, hi⟩ := h₁.covers hs ht
      exact ⟨o, h₂.promoted_left h, hc, h₂.eq_of_realm h.realm_ne ▸ hi⟩
    case neg =>
      obtain ⟨o, h, hc, hi⟩ := h₂.covers (Nat.not_lt.mp ht) hu
      exact ⟨o, h₁.promoted_right h, h₁.className o ▸ hc, hi⟩
  inj {o o'} ho ho' hc hr := by
    have hne {o o'} (h : Promoted s t o) (h' : Promoted t u o')
        (hc : (s.objects o).className = (s.objects o').className) :
        (t.objects o).row ≠ (u.objects o').row := by
      obtain ⟨i, hi, -, hl⟩ := h.row
      obtain ⟨i', hi', hl', -⟩ := h'.row
      rw [h₁.className, ← hc] at hl'
      simp only [hi, hi', ne_eq, Option.some.injEq]
      omega
    rcases h₁.promoted_cases h₂ ho with ⟨h, he⟩ | ⟨h, he⟩ <;>
      rcases h₁.promoted_cases h₂ ho' with ⟨h', he'⟩ | ⟨h', he'⟩
    · exact h₁.inj h h' hc (by rwa [he, he'] at hr)
    · exact absurd (he ▸ hr) (hne h h' hc)
    · exact absurd (he' ▸ hr.symm) (hne h' h hc.symm)
    · exact h₂.inj h h' (by rwa [he, he']) hr

theorem typed (h : Grows s t) (ht : Typed schema s) : Typed schema t where
  link {o p d l} hu hd hl := by
    have he := h.eq_of_unmanaged hu
    rw [h.className, h.count]
    exact ht.link (he ▸ hu) (he ▸ hd) (he ▸ hl)
  attached {o} hr hi := by
    cases h.object o
    case inl he => exact he ▸ ht.attached (he ▸ hr) (he ▸ hi)
    case inr hp => exact hp.managed

end Grows

-- Nothing but the rows and the ivars of what was promoted since `s` changes.
structure Refills (s t t' : Store C P V) : Prop where
  inWriteTransaction : t'.inWriteTransaction = t.inWriteTransaction
  count              : t'.count = t.count
  length : ∀ c, (t'.tables c).length = (t.tables c).length
  row    : ∀ {c} {i : Nat}, i < (s.tables c).length → (t'.tables c)[i]? = (t.tables c)[i]?
  object : ∀ o, t'.objects o = t.objects o ∨ Promoted s t o ∧
    (t'.objects o).className = (t.objects o).className ∧
    (t'.objects o).realm = (t.objects o).realm ∧ (t'.objects o).row = (t.objects o).row

namespace Refills

variable {t' : Store C P V}

theorem className (h : Refills s t t') (o : Nat) :
    (t'.objects o).className = (t.objects o).className := by
  rcases h.object o with h | ⟨-, h, -⟩
  · rw [h]
  · exact h

theorem realm (h : Refills s t t') (o : Nat) :
    (t'.objects o).realm = (t.objects o).realm := by
  rcases h.object o with h | ⟨-, -, h, -⟩
  · rw [h]
  · exact h

theorem objectRow (h : Refills s t t') (o : Nat) : (t'.objects o).row = (t.objects o).row := by
  rcases h.object o with h | ⟨-, -, -, h⟩
  · rw [h]
  · exact h

theorem promoted_iff (h : Refills s t t') : Promoted s t' o ↔ Promoted s t o := by
  constructor <;> intro hp <;> obtain ⟨hu, hc, hr, hi⟩ := hp <;> constructor <;>
    simp_all [h.className, h.realm, h.objectRow, h.length]

theorem managed_iff (h : Refills s t t') : (t'.objects o).Managed ↔ (t.objects o).Managed := by
  constructor <;> intro hm <;> obtain ⟨hr, hi⟩ := hm <;> constructor <;>
    simp_all [h.realm, h.objectRow]

theorem grows (h : Refills s t t') (hg : Grows s t) : Grows s t' where
  inWriteTransaction := h.inWriteTransaction.trans hg.inWriteTransaction
  count              := h.count.trans hg.count
  row {c i r} hr     := by
    rw [h.row (List.getElem?_eq_some_iff.mp hr).choose]
    exact hg.row hr
  object o := by
    rcases hg.object o with ho | ho
    · rcases h.object o with h | ⟨hp, -⟩
      · exact .inl (h.trans ho)
      · exact absurd ho hp.ne
    · exact .inr (h.promoted_iff.mpr ho)
  covers hs ht := by
    obtain ⟨o, hp, hc, hr⟩ := hg.covers hs (h.length _ ▸ ht)
    exact ⟨o, h.promoted_iff.mpr hp, hc, (h.objectRow o).trans hr⟩
  inj ho ho' hc hr := by
    rw [h.objectRow, h.objectRow] at hr
    exact hg.inj (h.promoted_iff.mp ho) (h.promoted_iff.mp ho') hc hr

end Refills

-- Changing the ivars of a promoted object.
theorem refills_modifyObject (h : Promoted s t o) {f : RLMObject C P V → RLMObject C P V}
    (hc : (f (t.objects o)).className = (t.objects o).className)
    (hr : (f (t.objects o)).realm = (t.objects o).realm)
    (hi : (f (t.objects o)).row = (t.objects o).row) : Refills s t (t.modifyObject o f) where
  inWriteTransaction := rfl
  count              := rfl
  length _           := rfl
  row _              := rfl
  object o' := by
    by_cases ho : o' = o
    · subst ho
      simp [objects_modifyObject, hc, hr, hi, h]
    · simp [objects_modifyObject, ho]

-- Writing to a new row.
theorem refills_modifyRow [DecidableEq C] (hi : (s.tables c).length ≤ i)
    (f : Row P V → Row P V) : Refills s t (t.modifyRow c i f) where
  inWriteTransaction := rfl
  count              := rfl
  length d           := length_modifyRow t c d i f
  row {d j} hj       := by
    have hn : ¬(d = c ∧ j = i) := by
      rintro ⟨rfl, rfl⟩
      exact Nat.not_lt.mpr hi hj
    simp [getElem?_modifyRow, hn]
  object _ := .inl rfl

-- What an object was copied to stays in place while nothing writes to it.
theorem Copies.congr {t' : Store C P V} (h : Copies schema s t o p)
    (hl : (t.objects o).link p = none → (t'.objects o).link p = none)
    (hr : ∀ r, t.row? o = some r → ∃ r', t'.row? o = some r' ∧ r'.value p = r.value p ∧
      r'.link p = r.link p)
    (hm : ∀ l, (t.objects l).Managed →
      (t'.objects l).Managed ∧ (t'.objects l).row = (t.objects l).row) :
    Copies schema s t' o p where
  value hd := by
    obtain ⟨r, hs, hv⟩ := h.value hd
    obtain ⟨r', hs', hv', -⟩ := hr r hs
    exact ⟨r', hs', hv'.trans hv⟩
  link hd := by
    obtain ⟨hn, ⟨r, hs, hk⟩, hg⟩ := h.link hd
    obtain ⟨r', hs', -, hk'⟩ := hr r hs
    refine ⟨hl hn, ⟨r', hs', ?_⟩, fun l h => (hm l (hg l h)).left⟩
    rw [hk', hk]
    cases ho : (s.objects o).link p
    case none   => rfl
    case some l => exact (hm l (hg l ho)).right.symm

theorem Copies.mono (h : Copies schema s t o p) (hg : Grows t u)
    (hr : (t.objects o).realm ≠ none) : Copies schema s u o p := by
  apply h.congr
  case hl => exact fun h => hg.eq_of_realm hr ▸ h
  case hr => exact fun r h => ⟨r, hg.row?_eq hr h, rfl, rfl⟩
  case hm => exact fun l h => ⟨hg.managed h, congrArg _ (hg.eq_of_realm (by simp [h.realm]))⟩

-- The objects that are added are those that the object leads to.
theorem Adds.promoted_iff (h : Adds schema s t o) : Promoted s t o' ↔
    (s.objects o').isUnmanaged ∧ Relation.ReflTransGen (Holds schema s) o o' := by
  have hp {l} (hu : (s.objects l).isUnmanaged) (hm : (t.objects l).Managed) : Promoted s t l := by
    cases h.grows.object l
    case inl he => simp [RLMObject.isUnmanaged_iff, ← he, hm.realm] at hu
    case inr hp => exact hp
  constructor
  case mp  => exact fun hp => ⟨hp.unmanaged, h.holds hp⟩
  case mpr =>
    intro ⟨hu, hr⟩
    refine hp hu ?_
    clear hu
    induction hr
    case refl            => exact h.managed
    case tail a b _ hh hi =>
      obtain ⟨hu, p, d, hd, hl⟩ := hh
      have hc := (h.copied (hp hu hi)).copies p (schema.mem_properties hd)
      exact (hc.link hd).right.right b hl

end Store
end LosTrouvee
