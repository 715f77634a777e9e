import LosTrouvee.ObjectStore.Operations
import LosTrouvee.ObjectStore.Theorems.Deleting

namespace LosTrouvee
namespace Store

variable {C P V : Type} {schema : Schema C P} {s s' t : Store C P V} {o l : Nat} {c d : C}
  {i j : Nat} {p : P} {op : Operation C P V}

theorem Adds.lt_count (hs : Typed schema s) (h : Adds schema s t o) (ho : o < s.count)
    (hp : Promoted s t l) : l < s.count := by
  have hr := h.holds hp
  clear hp
  induction hr
  case refl                => exact ho
  case tail _ _ _ hh _     =>
    obtain ⟨hu, p, d, hd, hl⟩ := hh
    exact (hs.link hu hd hl).right

variable [DecidableEq C] [DecidableEq P]

omit [DecidableEq C] [DecidableEq P] in
theorem Grows.row_lt (h : Grows s t) (hs : s.WellFormed schema)
    (hr : (t.objects l).realm = some .this) (hi : (t.objects l).row = some i) :
    i < (t.tables (t.objects l).className).length := by
  rw [h.className]
  cases h.object l
  case inl he => exact Nat.lt_of_lt_of_le (hs.row_lt (he ▸ hr) (he ▸ hi)) (h.length_le _)
  case inr hp =>
    obtain ⟨j, hj, -, hl⟩ := hp.row
    exact Option.some.inj (hi.symm.trans hj) ▸ hl

theorem Adds.wellFormed (hs : s.WellFormed schema) (h : Adds schema s t o) (ho : o < s.count) :
    t.WellFormed schema where
  toTyped := h.grows.typed hs.toTyped
  row_lt  := h.grows.row_lt hs
  accessor {l} hr := by
    cases h.grows.object l
    case inl he => exact he ▸ hs.accessor (he ▸ hr)
    case inr hp => exact (h.copied hp).isAccessor
  detached {l} ha hu := by
    have he := h.grows.eq_of_unmanaged hu
    exact hs.detached (he ▸ ha) (he ▸ hu)
  lt_count {l} ha := by
    rw [h.grows.count]
    cases h.grows.object l
    case inl he => exact hs.lt_count (he ▸ ha)
    case inr hp => exact h.lt_count hs.toTyped ho hp
  rowLink {c d p i j r} hr hd hl := by
    by_cases hi : i < (s.tables c).length
    case pos =>
      have hr' := h.grows.row (List.getElem?_eq_getElem hi)
      obtain rfl := Option.some.inj (hr.symm.trans hr')
      have hj := hs.rowLink (List.getElem?_eq_getElem hi) hd hl
      exact Nat.lt_of_lt_of_le hj (h.grows.length_le d)
    case neg =>
      -- The row is the one of an object that was added.
      obtain ⟨m, hp, rfl, hm⟩ :=
        h.grows.covers (Nat.not_lt.mp hi) (List.getElem?_eq_some_iff.mp hr).choose
      obtain ⟨r', hr', -, hk⟩ := (h.copied hp).row? hp
      have he : r = r' := by simpa [row?, hm, hp.className, hr] using hr'
      rw [he, hk p d hd] at hl
      obtain ⟨m', hm', hj⟩ := Option.bind_eq_some_iff.mp hl
      have hg := (((h.copied hp).copies p (schema.mem_properties hd)).link hd).right.right m' hm'
      have hc := (h.grows.className m').trans (hs.link hp.unmanaged hd hm').left
      exact hc ▸ h.grows.row_lt hs hg.realm hj

omit [DecidableEq P] in
theorem Deletes.wellFormed (hs : s.WellFormed schema) (h : Deletes schema s t c i) :
    t.WellFormed schema where
  link {l p d m} hu hd hl := by
    obtain ⟨hc, -, -, hk, -⟩ := h.object l
    rw [(h.object m).left, h.count]
    exact hs.link (h.unmanaged l ▸ hu) (hc ▸ hd) (hk ▸ hl)
  accessor {l} hr := (h.object l).right.left ▸ hs.accessor (h.managed l hr).left
  attached {l} hr hv := by
    have ha := (h.object l).right.left ▸ hs.accessor (h.managed l hr).left
    refine ⟨hr, Option.ne_none_iff_exists'.mp fun hn => ?_⟩
    simp [RLMObject.isInvalidated, ha, hn] at hv
  detached {l} ha hu := hs.detached ((h.object l).right.left ▸ ha) (h.unmanaged l ▸ hu)
  lt_count {l} ha := by
    rw [h.count]
    exact hs.lt_count ((h.object l).right.left ▸ ha)
  row_lt {l k} hr hk := by
    obtain ⟨hr, hm⟩ := h.managed l hr
    obtain ⟨j, hj, hm⟩ := Option.bind_eq_some_iff.mp (hm ▸ hk)
    rw [(h.object l).left, h.tables]
    exact moved_lt h.lt (hs.row_lt hr hj) hm
  rowLink {d e p k m r'} hr' he hl := by
    rw [h.tables] at hr' ⊢
    obtain ⟨j, hj, hm⟩ := exists_moved h.lt (List.getElem?_eq_some_iff.mp hr').choose
    have hr := List.getElem?_eq_getElem hj
    obtain ⟨r, hr'', -, hk⟩ := row_moveLastOver h.lt schema hr hm
    rw [Option.some.inj (hr'.symm.trans hr''), hk p e he] at hl
    obtain ⟨m', hm', hl⟩ := Option.bind_eq_some_iff.mp hl
    exact moved_lt h.lt (hs.rowLink hr he hm') hl

-- Another object, or new ivars of one that is not managed.
structure Assigns (schema : Schema C P) (s t : Store C P V) (o : Nat) : Prop where
  tables  : t.tables = s.tables
  count   : s.count ≤ t.count
  others  : ∀ l ≠ o, t.objects l = s.objects l
  old     : ∀ l < s.count, (t.objects l).className = (s.objects l).className ∧
    (t.objects l).isAccessor = (s.objects l).isAccessor ∧
    (t.objects l).realm = (s.objects l).realm ∧ (t.objects l).row = (s.objects l).row
  lt      : o < t.count
  self    : ¬(s.objects o).Managed
  link    : (t.objects o).isUnmanaged →
    ∀ p, s.Fits schema (t.objects o).className p ((t.objects o).link p)
  detached : (t.objects o).isAccessor → ¬(t.objects o).isUnmanaged
  managed : (t.objects o).realm = some .this → (t.objects o).isAccessor ∧
    ∃ i, (t.objects o).row = some i ∧ i < (s.tables (t.objects o).className).length

omit [DecidableEq C] [DecidableEq P] in
theorem Assigns.wellFormed (hs : s.WellFormed schema) (h : Assigns schema s t o) :
    t.WellFormed schema where
  link {l p d m} hu hd hm := by
    suffices hf : (s.objects m).className = d ∧ m < s.count from
      ⟨(h.old m hf.right).left.trans hf.left, Nat.lt_of_lt_of_le hf.right h.count⟩
    by_cases hl : l = o
    case pos =>
      subst hl
      exact h.link hu p d hd m hm
    case neg =>
      rw [h.others l hl] at hu hd hm
      exact hs.link hu hd hm
  accessor {l} hr := by
    by_cases hl : l = o
    case pos => exact hl ▸ (h.managed (hl ▸ hr)).left
    case neg => exact h.others l hl ▸ hs.accessor (h.others l hl ▸ hr)
  attached {l} hr hv := by
    by_cases hl : l = o
    case pos =>
      obtain ⟨-, i, hi, -⟩ := h.managed (hl ▸ hr)
      exact ⟨hr, i, hl ▸ hi⟩
    case neg => exact h.others l hl ▸ hs.attached (h.others l hl ▸ hr) (h.others l hl ▸ hv)
  detached {l} ha hu := by
    by_cases hl : l = o
    case pos => exact h.detached (hl ▸ ha) (hl ▸ hu)
    case neg => exact hs.detached (h.others l hl ▸ ha) (h.others l hl ▸ hu)
  lt_count {l} ha := by
    by_cases hl : l = o
    case pos => exact hl ▸ h.lt
    case neg => exact Nat.lt_of_lt_of_le (hs.lt_count (h.others l hl ▸ ha)) h.count
  rowLink hr hd hl := by
    rw [h.tables] at hr ⊢
    exact hs.rowLink hr hd hl
  row_lt {l i} hr hi := by
    rw [h.tables]
    by_cases hl : l = o
    case pos =>
      obtain ⟨-, j, hj, hlt⟩ := h.managed (hl ▸ hr)
      subst hl
      exact Option.some.inj (hi.symm.trans hj) ▸ hlt
    case neg => exact h.others l hl ▸ hs.row_lt (h.others l hl ▸ hr) (h.others l hl ▸ hi)

-- An accessor whose row is gone is let go of.
structure Releases (s t : Store C P V) (o : Nat) : Prop where
  tables : t.tables = s.tables
  count  : t.count = s.count
  others : ∀ l ≠ o, t.objects l = s.objects l
  row    : (s.objects o).row = none
  self   : t.objects o = { s.objects o with realm := none }

-- What a step of a program can do.
inductive Change (schema : Schema C P) (s : Store C P V) :
    Operation C P V → Store C P V → Prop
  | transaction {op : Operation C P V} {t : Store C P V} :
    (∀ o, op ≠ .add o ∧ op ≠ .delete o) → t.tables = s.tables → t.objects = s.objects →
    t.count = s.count → Change schema s op t
  | assign {op : Operation C P V} {t : Store C P V} {o : Nat} :
    (∀ o, op ≠ .add o ∧ op ≠ .delete o) → Assigns schema s t o → Change schema s op t
  | add {t : Store C P V} {o : Nat} :
    o < s.count → Adds schema s t o → Change schema s (.add o) t
  | delete {t : Store C P V} {o i : Nat} :
    (s.objects o).realm = some .this → (s.objects o).row = some i →
    Deletes schema s t (s.objects o).className i → Change schema s (.delete o) t
  | release {t : Store C P V} {o : Nat} :
    (s.objects o).realm = some .this → Releases s t o → Change schema s (.delete o) t

omit [DecidableEq C] [DecidableEq P] in
theorem Releases.wellFormed (hs : s.WellFormed schema) (h : Releases s t o)
    (hr : (s.objects o).realm = some .this) : t.WellFormed schema := by
  have hv := hs.accessor hr
  have hc (l) : (t.objects l).className = (s.objects l).className := by
    by_cases hl : l = o
    case pos => simp [hl, h.self]
    case neg => simp [h.others l hl]
  have hne {l} (hl : (t.objects l).realm = some .this ∨ (t.objects l).isUnmanaged) : l ≠ o := by
    rintro rfl
    simp [h.self, RLMObject.isUnmanaged, RLMObject.isInvalidated, hv, h.row] at hl
  constructor
  case toTyped =>
    constructor
    case link =>
      intro l p d m hu hd hm
      rw [hc, h.count]
      have he := h.others l (hne (.inr hu))
      exact hs.link (he ▸ hu) (he ▸ hd) (he ▸ hm)
    case attached =>
      intro l hr hv
      have he := h.others l (hne (.inl hr))
      exact he ▸ hs.attached (he ▸ hr) (he ▸ hv)
  case accessor =>
    intro l hr
    have he := h.others l (hne (.inl hr))
    exact he ▸ hs.accessor (he ▸ hr)
  case detached =>
    intro l ha hu
    have he := h.others l (hne (.inr hu))
    exact hs.detached (he ▸ ha) (he ▸ hu)
  case lt_count =>
    intro l ha
    rw [h.count]
    by_cases hl : l = o
    case pos => exact hl ▸ hs.lt_count hv
    case neg => exact hs.lt_count (h.others l hl ▸ ha)
  case rowLink => exact h.tables ▸ hs.rowLink
  case row_lt =>
    intro l i hr hi
    have he := h.others l (hne (.inl hr))
    rw [h.tables, hc]
    exact hs.row_lt (he ▸ hr) (he ▸ hi)

omit [DecidableEq C] [DecidableEq P] in
theorem WellFormed.congr (hs : s.WellFormed schema) (ht : t.tables = s.tables)
    (ho : t.objects = s.objects) (hc : t.count = s.count) : t.WellFormed schema := by
  obtain ⟨_, _, _, _⟩ := s
  obtain ⟨_, _, _, _⟩ := t
  subst ht ho hc
  exact ⟨⟨hs.link, hs.attached⟩, hs.accessor, hs.detached, hs.lt_count, hs.rowLink, hs.row_lt⟩

theorem Change.wellFormed (hs : s.WellFormed schema) (h : Change schema s op t) :
    t.WellFormed schema := by
  cases h
  case transaction ht ho hc => exact hs.congr ht ho hc
  case assign h             => exact h.wellFormed hs
  case add ho h             => exact h.wellFormed hs ho
  case delete h             => exact h.wellFormed hs
  case release hr h         => exact h.wellFormed hs hr

section

omit [DecidableEq C] [DecidableEq P]

theorem insertObject_assigns {object : RLMObject C P V}
    (hl : object.isUnmanaged → ∀ p, s.Fits schema object.className p (object.link p))
    (hm : object.realm = some .this → object.isAccessor ∧
      ∃ i, object.row = some i ∧ i < (s.tables object.className).length)
    (hd : object.isAccessor → ¬object.isUnmanaged)
    (hs : s.WellFormed schema) : Assigns schema s (s.insertObject object) s.count where
  tables      := rfl
  count       := Nat.le_succ _
  others l hl := by simp [insertObject, hl]
  old l hl    := by simp [insertObject, Nat.ne_of_lt hl]
  lt          := Nat.lt_succ_self _
  self h      := Nat.lt_irrefl _ (hs.lt_count (hs.accessor h.realm))
  link        := by simpa [insertObject] using hl
  detached    := by simpa [insertObject] using hd
  managed     := by simpa [insertObject] using hm

theorem modifyObject_assigns (hs : s.WellFormed schema) (ho : o < s.count)
    (hu : (s.objects o).isUnmanaged)
    {f : RLMObject C P V → RLMObject C P V}
    (hf : (f (s.objects o)).className = (s.objects o).className ∧
      (f (s.objects o)).isAccessor = (s.objects o).isAccessor ∧
      (f (s.objects o)).realm = (s.objects o).realm ∧ (f (s.objects o)).row = (s.objects o).row)
    (hl : ∀ p, s.Fits schema (s.objects o).className p ((f (s.objects o)).link p)) :
    Assigns schema s (s.modifyObject o f) o := by
  have ⟨hr, _⟩ := RLMObject.isUnmanaged_iff.mp hu
  exact {
    tables      := rfl
    count       := Nat.le_refl _
    others l hl := by simp [objects_modifyObject, hl]
    old l _     := by by_cases h : l = o <;> simp [objects_modifyObject, h, hf]
    lt          := ho
    self h      := by simp [h.realm] at hr
    link _      := by simpa [objects_modifyObject, hf.left] using hl
    detached ha := absurd hu (hs.detached (by simpa [objects_modifyObject, hf] using ha))
    managed hr' := by simp [objects_modifyObject, hf, hr] at hr' }

theorem WellFormed.fits (hs : s.WellFormed schema) (hu : (s.objects o).isUnmanaged) (p : P) :
    s.Fits schema (s.objects o).className p ((s.objects o).link p) :=
  fun _ hd _ hl => hs.link hu hd hl

end

variable [Inhabited V]

theorem Step.change (hs : s.WellFormed schema) (h : (system schema).Step s op t) :
    Change schema s op t := by
  obtain ⟨ha, h⟩ := h
  cases op
  case beginWrite =>
    simp only [perform, beginTransaction] at h
    split at h <;> cases h
    exact .transaction (by simp) rfl rfl rfl
  case commitWrite =>
    simp only [perform, commitTransaction] at h
    split at h <;> cases h
    exact .transaction (by simp) rfl rfl rfl
  case init =>
    obtain rfl := Except.ok.inj h
    exact .assign (by simp) (insertObject_assigns (fun _ => ha) (by simp [RLMObject.init])
      (by simp [RLMObject.init]) hs)
  case setValue =>
    obtain ⟨ho, hu⟩ := ha
    obtain rfl := Except.ok.inj h
    exact .assign (by simp) (modifyObject_assigns hs ho hu ⟨rfl, rfl, rfl, rfl⟩ (hs.fits hu))
  case setLink o p link =>
    obtain ⟨ho, hu, hf⟩ := ha
    obtain rfl := Except.ok.inj h
    refine .assign (by simp) (modifyObject_assigns hs ho hu ⟨rfl, rfl, rfl, rfl⟩ fun q => ?_)
    by_cases hq : q = p
    case pos => simpa [hq] using hf
    case neg => simpa [hq] using hs.fits hu q
  case add => exact .add ha (addObject_adds schema _ hs.toTyped h)
  case delete o =>
    have ⟨hr, _, _, ht, hs'⟩ := deleteObject_eq_ok.mp h
    cases hi : (s.objects o).row
    case some i => exact .delete hr hi (deleteObject_deletes hs h hi)
    case none =>
      obtain rfl : s = _ := by simpa [hi] using ht
      refine .release hr ?_
      subst hs'
      exact {
        tables      := rfl
        count       := rfl
        others l hl := by simp [objects_modifyObject, hl]
        row         := hi
        self        := by simp [objects_modifyObject] }
  case get =>
    obtain rfl := Except.ok.inj h
    exact .assign (by simp)
      (insertObject_assigns (by simp [RLMObject.isUnmanaged]) (fun _ => ⟨rfl, _, rfl, ha⟩)
        (by simp [RLMObject.isUnmanaged]) hs)

-- Whatever a program does, its accessors and the links of the rows lead to rows of the right class.
theorem system_wellFormed (h : (system schema).Reachable s) : s.WellFormed schema := by
  have i : (system schema).Invariant (WellFormed (V := V) schema) := {
    init {s} h := {
      link _ _ hl   := by simp [(h.objects _).right.right] at hl
      attached hr _ := by simp [(h.objects _).right.left] at hr
      accessor hr   := by simp [(h.objects _).right.left] at hr
      detached ha   := by simp [(h.objects _).left] at ha
      lt_count ha   := by simp [(h.objects _).left] at ha
      rowLink       := h.rowLink
      row_lt hr     := by simp [(h.objects _).right.left] at hr }
    step _ hs h := (Step.change hs h).wellFormed hs }
  exact i.holds h

end Store
end LosTrouvee
