import LosTrouvee.ObjectStore.Theorems.Adding
import Mathlib.Data.Finset.Card
import Mathlib.Data.Finset.Range

namespace LosTrouvee
namespace Store

variable {C P V : Type} {schema : Schema C P} {s s' t u : Store C P V} {o o' l i : Nat} {p : P}
  {ps : List P}

-- The object is in the Realm at hand or can be added to it.
structure Accepts (s : Store C P V) (o : Nat) : Prop where
  valid      : (s.objects o).isInvalidated = false
  realm      : (s.objects o).realm ≠ some .other
  isObserved : (s.objects o).realm = none → (s.objects o).isObserved = false

-- The objects that have not been added yet.
def unmanaged (s : Store C P V) : Finset Nat :=
  (Finset.range s.count).filter fun o => (s.objects o).isUnmanaged

theorem Managed.accepts (h : (s.objects o).Managed) : Accepts s o where
  valid        := by
    obtain ⟨_, hr⟩ := h.row
    simp [RLMObject.isInvalidated, hr]
  realm        := by simp [h.realm]
  isObserved h' := by simp [h.realm] at h'

theorem Accepts.mono (h : Accepts s o) (hg : Grows s t) : Accepts t o := by
  cases hg.object o
  case inl he => exact ⟨he ▸ h.valid, he ▸ h.realm, he ▸ h.isObserved⟩
  case inr hp => exact Managed.accepts hp.managed

-- Every promotion leaves one object less to add.
theorem Grows.unmanaged_card_lt (h : Grows s t) (hp : Promoted s t o) (ho : o < s.count) :
    t.unmanaged.card < s.unmanaged.card := by
  apply Finset.card_lt_card
  refine (Finset.ssubset_iff_of_subset fun l hl => ?_).mpr ⟨o, ?_, ?_⟩
  · simp only [unmanaged, Finset.mem_filter, Finset.mem_range, h.count] at hl ⊢
    exact ⟨hl.left, h.eq_of_unmanaged hl.right ▸ hl.right⟩
  · simp [unmanaged, ho, hp.unmanaged]
  · simp [unmanaged, RLMObject.isUnmanaged_iff, hp.realm]

variable [DecidableEq C] {add : Nat → Store C P V → Except RLMException (Store C P V)}

theorem unbox_ok {d : C} (ha : Accepts t l) (hc : (t.objects l).className = d)
    (hu : ∃ u, add l t = .ok u) : ∃ r, RLMAccessorContext.unbox add d l t = .ok r := by
  obtain ⟨u, hu⟩ := hu
  simp only [RLMAccessorContext.unbox, ha.valid, hc, ne_eq, not_true_eq_false, if_false,
    Bool.false_eq_true]
  split
  case h_1    => exact ⟨_, by simp [hu]; rfl⟩
  case h_2 hr => exact absurd hr ha.realm
  case h_3    => exact ⟨_, rfl⟩

variable [DecidableEq P]

namespace Filling

theorem setPropertyValue_ok (hs : Typed schema s)
    (ha : ∀ l, Holds schema s o l → Accepts s l)
    (hadd : ∀ l t, Grows s t → Promoted s t o → Holds schema s o l → ∃ u, add l t = .ok u)
    (h : Filling schema s o i (p :: ps) (p :: ps) t) (hp : p ∉ ps) :
    ∃ t', Object.setPropertyValue add schema o (s.objects o).className i t p = .ok t' := by
  unfold Object.setPropertyValue
  cases hd : schema.objectClassName (s.objects o).className p
  case none   => exact ⟨_, rfl⟩
  case some d =>
    cases hl : (t.objects o).link p
    case none   => exact ⟨_, by simp [hl]; rfl⟩
    case some l =>
      have hc := h.clear hp
      have hls := (h.kept p List.mem_cons_self).symm.trans hl
      have hh : Holds schema s o l := ⟨h.promoted.unmanaged, p, d, hd, hls⟩
      have hcl := (hc.grows.className l).trans (hs.link h.promoted.unmanaged hd hls).left
      obtain ⟨⟨u, target⟩, hu⟩ :=
        unbox_ok ((ha l hh).mono hc.grows) hcl (hadd l _ hc.grows hc.promoted hh)
      exact ⟨u.setLink (s.objects o).className i p target, by simp [hl, hu]⟩

theorem setProperties_ok (hadd : AddsWell schema add) (hs : Typed schema s)
    (ha : ∀ l, Holds schema s o l → Accepts s l)
    (hok : ∀ l t, Grows s t → Promoted s t o → Holds schema s o l → ∃ u, add l t = .ok u)
    (hn : ps.Nodup) (h : Filling schema s o i ps ps t) :
    ∃ t', ps.foldlM (Object.setPropertyValue add schema o (s.objects o).className i) t =
      .ok t' := by
  induction ps generalizing t
  case nil          => exact ⟨t, rfl⟩
  case cons p ps hi =>
    have ⟨hp, hn⟩ := List.nodup_cons.mp hn
    obtain ⟨u, hu⟩ := h.setPropertyValue_ok hs ha hok hp
    obtain ⟨t', ht'⟩ := hi hn (h.setPropertyValue hadd hs hp hu)
    exact ⟨t', by simp [hu, ht']⟩

end Filling

variable [Inhabited V]

theorem addObject_ok (hs : Typed schema s) (hw : s.inWriteTransaction) (ho : o < s.count)
    (ha : ∀ l, Relation.ReflTransGen (Holds schema s) o l → Accepts s l) {steps : Nat}
    (hn : s.unmanaged.card < steps) : ∃ s', RLMAddObjectToRealm schema steps o s = .ok s' := by
  induction steps generalizing o s
  case zero          => exact absurd hn (Nat.not_lt_zero _)
  case succ steps hi =>
    have ⟨hv, hr, hb⟩ := ha o .refl
    simp only [addObject_eq_ok, hw, hv, true_and]
    rcases hr' : (s.objects o).realm with _ | _ | _
    case some.other => exact absurd hr' hr
    case some.this  => exact ⟨s, .inl ⟨rfl, rfl⟩⟩
    case none =>
      have hu := RLMObject.isUnmanaged_iff.mpr ⟨hr', hv⟩
      have hf := filling_addEmptyRow schema hu (hb hr') rfl
      have hok (l t) (hg : Grows s t) (hp : Promoted s t o) (hh : Holds schema s o l) :
          ∃ u, RLMAddObjectToRealm schema steps l t = .ok u := by
        obtain ⟨-, p, d, hd, hl⟩ := hh
        apply hi (hg.typed hs)
        case hw => exact hg.inWriteTransaction.trans hw
        case ho => exact hg.count ▸ (hs.link hu hd hl).right
        case ha =>
          intro l' h
          exact (ha l' (.head ⟨hu, p, d, hd, hl⟩ (h.lift id fun _ _ => hg.holds))).mono hg
        case hn => exact Nat.lt_of_lt_of_le (hg.unmanaged_card_lt hp ho) (Nat.lt_succ_iff.mp hn)
      obtain ⟨t, ht⟩ := hf.setProperties_ok (addObject_adds schema steps) hs
        (fun l hh => ha l (.single hh)) hok (schema.nodup _)
      exact ⟨_, .inr ⟨rfl, hb hr', t, (create_eq s o).trans ht, rfl⟩⟩

-- Adding an object succeeds if and only if a write transaction is open and everything that can be
-- reached from the object may be in the Realm. It takes no more steps than there are objects,
-- whatever cycles they form.
theorem addObject_ok_iff (hs : Typed schema s) (ho : o < s.count) {steps : Nat}
    (hn : s.count < steps) :
    (∃ s', RLMAddObjectToRealm schema steps o s = .ok s') ↔ s.inWriteTransaction ∧
      ∀ l, Relation.ReflTransGen (Holds schema s) o l → Accepts s l := by
  constructor
  case mpr =>
    intro ⟨hw, ha⟩
    have hc : s.unmanaged.card ≤ s.count :=
      Finset.card_filter_le _ _ |>.trans_eq (Finset.card_range _)
    exact addObject_ok hs hw ho ha (Nat.lt_of_le_of_lt hc hn)
  case mp =>
    intro ⟨s', h⟩
    obtain ⟨n, rfl⟩ : ∃ n, steps = n + 1 := ⟨steps - 1, by omega⟩
    have ha := addObject_adds schema _ hs h
    have ⟨hw, hv, hr⟩ := addObject_eq_ok.mp h
    refine ⟨hw, fun l hl => ?_⟩
    rcases Relation.ReflTransGen.cases_tail hl with rfl | ⟨a, hl, hh⟩
    · rcases hr with ⟨hr, -⟩ | ⟨hr, hb, -⟩
      · exact ⟨hv, by simp [hr], by simp [hr]⟩
      · exact ⟨hv, by simp [hr], fun _ => hb⟩
    · obtain ⟨hu, p, d, hd, hp⟩ := hh
      have hc := ha.copied (ha.promoted_iff.mpr ⟨hu, hl⟩)
      have hm := ((hc.copies p (schema.mem_properties hd)).link hd).right.right l hp
      rcases ha.grows.object l with he | hp
      · exact Managed.accepts (he ▸ hm)
      · have ⟨hr, hv⟩ := RLMObject.isUnmanaged_iff.mp hp.unmanaged
        exact ⟨hv, by simp [hr], fun _ => (ha.copied hp).isObserved⟩

end Store
end LosTrouvee
