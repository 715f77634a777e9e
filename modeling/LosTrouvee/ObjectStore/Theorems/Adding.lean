import LosTrouvee.ObjectStore.Theorems.Promotion

namespace LosTrouvee
namespace Store

variable {C P V : Type} {schema : Schema C P} {s s' t u t' : Store C P V} {o o' l i j : Nat}
  {c d : C} {p q : P} {ps todo kept kept' : List P}

-- The object is being created. The `todo` properties have not been copied to its row yet, and the
-- ivars of the `kept` ones are as they were.
structure Filling (schema : Schema C P) (s : Store C P V) (o i : Nat) (todo kept : List P)
    (t : Store C P V) : Prop where
  grows      : Grows s t
  promoted   : Promoted s t o
  row        : (t.objects o).row = some i
  isObserved : (s.objects o).isObserved = false
  value      : (t.objects o).value = (s.objects o).value
  kept       : ∀ p ∈ kept, (t.objects o).link p = (s.objects o).link p
  copies     : ∀ p ∈ schema.properties (s.objects o).className, p ∉ todo → Copies schema s t o p
  others     : ∀ {o'}, o' ≠ o → Promoted s t o' → Copied schema s t o'
  holds      : ∀ {o'}, Promoted s t o' → Relation.ReflTransGen (Holds schema s) o o'

namespace Filling

theorem row? (h : Filling schema s o i todo kept t) : ∃ r, t.row? o = some r := by
  obtain ⟨j, hj, -, hl⟩ := h.promoted.row
  simp [Store.row?, hj, h.promoted.className, hl]

-- What happens to the object and its row spares the properties that have been copied.
theorem refill (h : Filling schema s o i todo kept t) (hf : Refills s t t')
    (ho : ∀ l ≠ o, t'.objects l = t.objects l)
    (hv : (t'.objects o).value = (t.objects o).value)
    (hl : ∀ q, (t.objects o).link q = none → (t'.objects o).link q = none)
    (hk : ∀ q ∈ kept', q ∈ kept ∧ (t'.objects o).link q = (t.objects o).link q)
    (hr : ∀ l r, Promoted s t l → t.row? l = some r → ∃ r', t'.row? l = some r' ∧
      ∀ q, l ≠ o ∨ q ∉ todo → r'.value q = r.value q ∧ r'.link q = r.link q) :
    Filling schema s o i todo kept' t' := by
  have hm (l) (hm : (t.objects l).Managed) :
      (t'.objects l).Managed ∧ (t'.objects l).row = (t.objects l).row :=
    ⟨hf.managed_iff.mpr hm, hf.objectRow l⟩
  have hr' {l q} (hp : Promoted s t l) (hq : l ≠ o ∨ q ∉ todo) (r) (h : t.row? l = some r) :
      ∃ r', t'.row? l = some r' ∧ r'.value q = r.value q ∧ r'.link q = r.link q :=
    (hr l r hp h).imp fun _ h => ⟨h.left, h.right q hq⟩
  exact {
    grows      := hf.grows h.grows
    promoted   := hf.promoted_iff.mpr h.promoted
    row        := (hf.objectRow o).trans h.row
    isObserved := h.isObserved
    value      := hv.trans h.value
    kept q hq  := (hk q hq).right.trans (h.kept q (hk q hq).left)
    copies q hq hn := (h.copies q hq hn).congr (hl q) (hr' h.promoted (.inr hn)) hm
    others {o'} hne hp := by
      have hp := hf.promoted_iff.mp hp
      have hc := h.others hne hp
      have he := ho o' hne
      exact {
        isObserved  := hc.isObserved
        isAccessor  := he ▸ hc.isAccessor
        copies q hq := (hc.copies q hq).congr (fun h => he ▸ h) (hr' hp (.inl hne)) hm }
    holds hp   := h.holds (hf.promoted_iff.mp hp) }

theorem clear [DecidableEq P] (h : Filling schema s o i (p :: ps) (p :: ps) t) (hp : p ∉ ps) :
    Filling schema s o i (p :: ps) ps
      (t.modifyObject o fun o => { o with link := Function.update o.link p none }) := by
  apply h.refill (refills_modifyObject h.promoted rfl rfl rfl)
  case ho => exact fun l hl => by simp [objects_modifyObject, hl]
  case hv => simp [objects_modifyObject]
  case hl =>
    intro q hq
    by_cases hqp : q = p <;> simp [objects_modifyObject, hqp, hq]
  case hk =>
    intro q hq
    have hqp : q ≠ p := fun he => hp (he ▸ hq)
    simp [objects_modifyObject, hqp, hq]
  case hr =>
    exact fun l r _ hr => ⟨r, (row?_modifyObject rfl rfl l).trans hr, fun _ _ => ⟨rfl, rfl⟩⟩

-- A write to the column of the property at hand.
theorem modifyRow [DecidableEq C] (h : Filling schema s o i (p :: ps) kept t)
    (hk : ∀ q ∈ kept', q ∈ kept) {f : Row P V → Row P V}
    (hf : ∀ r q, q ≠ p → (f r).value q = r.value q ∧ (f r).link q = r.link q) :
    Filling schema s o i (p :: ps) kept' (t.modifyRow (s.objects o).className i f) := by
  have hi : (s.tables (s.objects o).className).length ≤ i := by
    obtain ⟨j, hj, hl, -⟩ := h.promoted.row
    simp_all [h.row]
  apply h.refill (refills_modifyRow hi f)
  case ho => exact fun _ _ => rfl
  case hv => rfl
  case hl => exact fun _ h => h
  case hk => exact fun q hq => ⟨hk q hq, rfl⟩
  case hr =>
    intro l r hl hr
    obtain ⟨j, hj, hr⟩ := Option.bind_eq_some_iff.mp hr
    have hg := getElem?_modifyRow t (s.objects o).className (t.objects l).className i j f
    by_cases hn : (t.objects l).className = (s.objects o).className ∧ j = i
    case neg =>
      rw [if_neg hn] at hg
      exact ⟨r, Option.bind_eq_some_iff.mpr ⟨j, hj, hg.trans hr⟩, fun _ _ => ⟨rfl, rfl⟩⟩
    case pos =>
      rw [if_pos hn, hr] at hg
      refine ⟨f r, Option.bind_eq_some_iff.mpr ⟨j, hj, hg⟩, fun q hq => hf r q ?_⟩
      -- The row is the one of `o` alone.
      have he : l = o :=
        h.grows.inj hl h.promoted (hl.className ▸ hn.left) (by rw [hj, h.row, hn.right])
      rcases hq with hq | hq
      · exact absurd he hq
      · exact fun he => hq (he ▸ List.mem_cons_self)

theorem done (h : Filling schema s o i (p :: ps) kept t) (hp : Copies schema s t o p) :
    Filling schema s o i ps kept t where
  copies q hq hn := by
    by_cases hqp : q = p
    case pos => exact hqp ▸ hp
    case neg => exact h.copies q hq (by simp [hqp, hn])
  __ := h

-- What is added on the way is not the object itself.
theorem adds (h : Filling schema s o i todo kept t) (ha : Adds schema t u l)
    (hd : schema.objectClassName (s.objects o).className p = some d)
    (hl : (s.objects o).link p = some l) : Filling schema s o i todo kept u := by
  have hg := ha.grows
  have he := hg.eq_of_realm h.promoted.realm_ne
  exact {
    grows      := h.grows.trans hg
    promoted   := hg.promoted_left h.promoted
    row        := he ▸ h.row
    isObserved := h.isObserved
    value      := he ▸ h.value
    kept       := he ▸ h.kept
    copies q hq hn := (h.copies q hq hn).mono hg h.promoted.realm_ne
    others {o'} hne hp := by
      rcases h.grows.promoted_cases hg hp with ⟨hp, he⟩ | ⟨hp, he⟩
      · have hc := h.others hne hp
        exact {
          isObserved  := hc.isObserved
          isAccessor  := he ▸ hc.isAccessor
          copies q hq := (hc.copies q hq).mono hg hp.realm_ne }
      · have hc := ha.copied hp
        exact {
          isObserved  := he ▸ hc.isObserved
          isAccessor  := hc.isAccessor
          copies q hq := by
            have hc := hc.copies q (he ▸ hq)
            exact ⟨he ▸ hc.value, he ▸ hc.link⟩ }
    holds {o'} hp := by
      rcases h.grows.promoted_cases hg hp with ⟨hp, -⟩ | ⟨hp, -⟩
      · exact h.holds hp
      · have hs : Holds schema s o l := ⟨h.promoted.unmanaged, p, d, hd, hl⟩
        exact .head hs ((ha.holds hp).lift id fun _ _ => h.grows.holds) }

end Filling

-- What is asked of the addition of the objects that an object holds.
def AddsWell (schema : Schema C P) (add : Nat → Store C P V → Except RLMException (Store C P V)) :
    Prop :=
  ∀ {l t u}, Typed schema t → add l t = .ok u → Adds schema t u l

variable [DecidableEq C] {add : Nat → Store C P V → Except RLMException (Store C P V)}

theorem unbox_adds (hadd : AddsWell schema add) (ht : Typed schema t)
    (hc : (t.objects l).className = d) {target : Option Nat}
    (h : RLMAccessorContext.unbox add d l t = .ok (u, target)) :
    Adds schema t u l ∧ target = (u.objects l).row := by
  unfold RLMAccessorContext.unbox at h
  simp only [hc, ne_eq, not_true_eq_false, if_false] at h
  split at h
  case isTrue  => simp at h
  case isFalse hv =>
    split at h
    case h_1 =>
      obtain ⟨_, hu, rfl, rfl⟩ : ∃ v, add l t = .ok v ∧ v = u ∧ (v.objects l).row = target := by
        simpa using h
      exact ⟨hadd ht hu, rfl⟩
    case h_2 => simp at h
    case h_3 hr =>
      obtain ⟨rfl, rfl⟩ : t = u ∧ (t.objects l).row = target := by simpa using h
      have ha : Adds schema t t l := {
        grows     := .refl t
        copied hp := absurd rfl hp.ne
        holds hp  := absurd rfl hp.ne
        managed   := ht.attached hr (by simpa using hv) }
      exact ⟨ha, rfl⟩

variable [DecidableEq P]

namespace Filling

theorem setValue (h : Filling schema s o i (p :: ps) kept t)
    (hd : schema.objectClassName (s.objects o).className p = none) :
    Filling schema s o i ps kept
      (t.setValue (s.objects o).className i p ((t.objects o).value p)) := by
  have hf : Filling schema s o i (p :: ps) kept
      (t.setValue (s.objects o).className i p ((t.objects o).value p)) :=
    h.modifyRow (fun _ => id) fun _ _ hq => by simp [hq]
  obtain ⟨r, hr⟩ := h.row?
  have hr' := row?_modifyRow hr h.row fun r =>
    { r with value := Function.update r.value p ((t.objects o).value p) }
  rw [h.promoted.className] at hr'
  apply hf.done
  constructor
  case value => exact fun _ => ⟨_, hr', by simp [h.value]⟩
  case link  => simp [hd]

theorem setLink (h : Filling schema s o i (p :: ps) kept t)
    (hd : schema.objectClassName (s.objects o).className p = some d)
    (hn : (t.objects o).link p = none) {target : Option Nat}
    (ht : target = (s.objects o).link p >>= fun l => (t.objects l).row)
    (hm : ∀ l, (s.objects o).link p = some l → (t.objects l).Managed) :
    Filling schema s o i ps kept (t.setLink (s.objects o).className i p target) := by
  have hf : Filling schema s o i (p :: ps) kept
      (t.setLink (s.objects o).className i p target) :=
    h.modifyRow (fun _ => id) fun _ _ hq => by simp [hq]
  obtain ⟨r, hr⟩ := h.row?
  have hr' := row?_modifyRow hr h.row fun r => { r with link := Function.update r.link p target }
  rw [h.promoted.className] at hr'
  apply hf.done
  constructor
  case value => simp [hd]
  case link  => exact fun _ => ⟨hn, ⟨_, hr', by simp [ht]; rfl⟩, hm⟩

-- Setting a property of the row copies it from the object.
theorem setPropertyValue (hadd : AddsWell schema add) (hs : Typed schema s)
    (h : Filling schema s o i (p :: ps) (p :: ps) t) (hp : p ∉ ps)
    (he : Object.setPropertyValue add schema o (s.objects o).className i t p = .ok t') :
    Filling schema s o i ps ps t' := by
  unfold Object.setPropertyValue at he
  cases hd : schema.objectClassName (s.objects o).className p
  case none =>
    obtain rfl : t.setValue _ i p ((t.objects o).value p) = t' := by simpa [hd] using he
    exact { h with kept := fun q hq => h.kept q (List.mem_cons_of_mem p hq) }.setValue hd
  case some d =>
    have hc := h.clear hp
    have hlp : (t.objects o).link p = (s.objects o).link p := h.kept p List.mem_cons_self
    cases hl : (t.objects o).link p
    case none =>
      obtain rfl : (t.modifyObject o _).setLink _ i p none = t' := by simpa [hd, hl] using he
      exact hc.setLink hd (by simp [objects_modifyObject]) (by simp [← hlp, hl])
        (by simp [← hlp, hl])
    case some l =>
      simp only [hd, hl, bind_eq_ok] at he
      obtain ⟨⟨u, target⟩, hu, he⟩ := he
      obtain rfl : u.setLink _ i p target = t' := by simpa using he
      have hls : (s.objects o).link p = some l := hlp.symm.trans hl
      have hcl := (hc.grows.className l).trans (hs.link h.promoted.unmanaged hd hls).left
      obtain ⟨ha, rfl⟩ := unbox_adds hadd (hc.grows.typed hs) hcl hu
      have hn : (u.objects o).link p = none := by
        rw [ha.grows.eq_of_realm hc.promoted.realm_ne]
        simp [objects_modifyObject]
      exact (hc.adds ha hd hls).setLink hd hn (by simp [hls]) (by simp [hls, ha.managed])

-- Setting all of them, one after the other.
theorem setProperties (hadd : AddsWell schema add) (hs : Typed schema s) (hn : ps.Nodup)
    (h : Filling schema s o i ps ps t)
    (he : ps.foldlM (Object.setPropertyValue add schema o (s.objects o).className i) t = .ok t') :
    Filling schema s o i [] [] t' := by
  induction ps generalizing t
  case nil =>
    obtain rfl : t = t' := by simpa using he
    exact h
  case cons p ps hi =>
    have ⟨hp, hn⟩ := List.nodup_cons.mp hn
    simp only [List.foldlM_cons, bind_eq_ok] at he
    obtain ⟨u, hu, he⟩ := he
    exact hi hn (h.setPropertyValue hadd hs hp hu) he

end Filling

variable [Inhabited V]

omit [DecidableEq P] in
-- The object has got an empty row.
theorem filling_addEmptyRow (schema : Schema C P) (hu : (s.objects o).isUnmanaged)
    (hb : (s.objects o).isObserved = false) (hc : (s.objects o).className = c) :
    Filling schema s o (s.tables c).length (schema.properties c) (schema.properties c)
      (((s.modifyObject o fun o => { o with realm := some .this }).addEmptyRow c).modifyObject o
        fun o => { o with row := some (s.tables c).length }) := by
  subst hc
  generalize ht : Store.modifyObject _ o _ = t
  have ho : t.objects o = { s.objects o with
      realm := some .this, row := some (s.tables (s.objects o).className).length } := by
    simp [← ht, objects_modifyObject, addEmptyRow]
  have hne {l} (hl : l ≠ o) : t.objects l = s.objects l := by
    simp [← ht, objects_modifyObject, addEmptyRow, hl]
  have hc : t.tables (s.objects o).className =
      s.tables (s.objects o).className ++ [⟨fun _ => default, fun _ => none⟩] := by
    simp [← ht, addEmptyRow]
  have hd {d} (hd : d ≠ (s.objects o).className) : t.tables d = s.tables d := by
    simp [← ht, addEmptyRow, hd]
  have hp : Promoted s t o := {
    unmanaged := hu
    className := by rw [ho]
    realm     := by rw [ho]
    row       := ⟨_, by rw [ho], Nat.le_refl _, by simp [hc]⟩ }
  have hi {l} (hl : Promoted s t l) : l = o := by
    by_contra h
    exact hl.ne (hne h)
  exact {
    grows := {
      inWriteTransaction := by rw [← ht]; rfl
      count              := by rw [← ht]; rfl
      row {d j r} hr     := by
        by_cases hdc : d = (s.objects o).className
        case neg => rwa [hd hdc]
        case pos =>
          subst hdc
          rw [hc, List.getElem?_append_left (List.getElem?_eq_some_iff.mp hr).choose, hr]
      object l := by
        by_cases hl : l = o
        case pos => exact .inr (hl ▸ hp)
        case neg => exact .inl (hne hl)
      covers {d j} hs hj := by
        by_cases hdc : d = (s.objects o).className
        case neg => exact absurd (hd hdc ▸ hj) (Nat.not_lt.mpr hs)
        case pos =>
          subst hdc
          simp only [hc, List.length_append, List.length_singleton] at hj
          obtain rfl : (s.tables (s.objects o).className).length = j := by omega
          exact ⟨o, hp, rfl, by rw [ho]⟩
      inj h h' _ _ := (hi h).trans (hi h').symm }
    promoted      := hp
    row           := by rw [ho]
    isObserved    := hb
    value         := by rw [ho]
    kept _ _      := by rw [ho]
    copies p h hn := absurd h hn
    others hne h  := absurd (hi h) hne
    holds h       := hi h ▸ .refl }

theorem create_eq (s : Store C P V) (o : Nat) :
    Object.create add schema o (s.modifyObject o fun o => { o with realm := some .this }) =
      (schema.properties (s.objects o).className).foldlM
        (Object.setPropertyValue add schema o (s.objects o).className
          (s.tables (s.objects o).className).length)
        (((s.modifyObject o fun o => { o with realm := some .this }).addEmptyRow
          (s.objects o).className).modifyObject o fun o' =>
            { o' with row := some (s.tables (s.objects o).className).length }) := by
  simp [Object.create, objects_modifyObject]

theorem addObject_eq_ok {steps : Nat} :
    RLMAddObjectToRealm schema (steps + 1) o s = .ok s' ↔
      s.inWriteTransaction ∧ (s.objects o).isInvalidated = false ∧
      ((s.objects o).realm = some .this ∧ s = s' ∨
        (s.objects o).realm = none ∧ (s.objects o).isObserved = false ∧
        ∃ t, Object.create (RLMAddObjectToRealm schema steps) schema o
          (s.modifyObject o fun o => { o with realm := some .this }) = .ok t ∧
          t.modifyObject o (fun o => { o with isAccessor := true }) = s') := by
  rw [RLMAddObjectToRealm, RLMVerifyInWriteTransaction]
  cases hw : s.inWriteTransaction <;> cases hv : (s.objects o).isInvalidated <;>
    rcases hr : (s.objects o).realm with _ | _ | _ <;> cases hb : (s.objects o).isObserved <;>
      simp [hv, hr, hb]

-- Adding an object adds the objects that it holds, those that they hold, and so on, and nothing
-- else. Each of them gets a row of its own with its values, and the links lead to the rows of the
-- objects.
theorem addObject_adds (schema : Schema C P) (steps : Nat) :
    AddsWell schema (RLMAddObjectToRealm (V := V) schema steps) := by
  induction steps
  case zero => exact fun _ h => by simp [RLMAddObjectToRealm] at h
  case succ steps hi =>
    intro o s s' hs h
    have ⟨_, hv, h⟩ := addObject_eq_ok.mp h
    rcases h with ⟨hr, rfl⟩ | ⟨hr, hb, t, ht, rfl⟩
    case inl =>
      exact {
        grows     := .refl s
        copied hp := absurd rfl hp.ne
        holds hp  := absurd rfl hp.ne
        managed   := hs.attached hr hv }
    case inr =>
      have hu := RLMObject.isUnmanaged_iff.mpr ⟨hr, hv⟩
      have hf := filling_addEmptyRow schema hu hb rfl
      rw [create_eq] at ht
      have hf := hf.setProperties hi hs (schema.nodup _) ht
      have hm : Refills s t (t.modifyObject o fun o => { o with isAccessor := true }) :=
        refills_modifyObject hf.promoted rfl rfl rfl
      have hk {l p} (hc : Copies schema s t l p) :
          Copies schema s (t.modifyObject o fun o => { o with isAccessor := true }) l p := by
        apply hc.congr
        case hl => by_cases hl : l = o <;> simp [objects_modifyObject, hl]
        case hr => exact fun r hr => ⟨r, (row?_modifyObject rfl rfl l).trans hr, rfl, rfl⟩
        case hm => exact fun l h => ⟨hm.managed_iff.mpr h, hm.objectRow l⟩
      exact {
        grows := hm.grows hf.grows
        copied {l} hp := by
          by_cases hl : l = o
          case pos =>
            subst hl
            exact {
              isObserved := hf.isObserved
              isAccessor := by simp [objects_modifyObject]
              copies p hp := hk (hf.copies p hp List.not_mem_nil) }
          case neg =>
            have hc := hf.others hl (hm.promoted_iff.mp hp)
            exact {
              isObserved := hc.isObserved
              isAccessor := by simp [objects_modifyObject, hl, hc.isAccessor]
              copies p hp := hk (hc.copies p hp) }
        holds hp := hf.holds (hm.promoted_iff.mp hp)
        managed := hm.managed_iff.mpr hf.promoted.managed }

end Store
end LosTrouvee
