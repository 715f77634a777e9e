import LosTrouvee.Execution.Theorems.Failure

namespace LosTrouvee

def Realm.WellFormed (realm : Realm) : Prop :=
  ∀ k x, realm.find? k = some x → x.WellFormed

theorem ItemTableViewCell.update_ok [Unicode] {x : Item Place Contact} (hw : x.WellFormed) :
    ∃ cell, update x = .ok cell := by
  have ⟨_, hp, _⟩ := hw.place
  exact ⟨_, by simp [update, hp, unwrap]; rfl⟩

namespace Execution

section

variable [Unicode] {start : Realm → Prop} {s s' : State} {e : Event} {tr : Trap} {t : Tab}

-- What is saved was checked when the form was last edited.
theorem Transition.wellFormed (h : Transition s e s') (hc : s.Coherent) (hs : s.SessionConsistent)
    (hw : s.realm.WellFormed) : s'.realm.WellFormed := by
  intro k x hx
  rcases h.storeStep.item_origin hx with hx | ⟨_, _, _, _, _, -, ha, hb, hy⟩
  · exact hw k x hx
  · have ⟨_, hv⟩ := hs.complete hc ha hb
    exact AddItemTableViewController.newItem_wellFormed hy hv

theorem app_wellFormed (hw : ∀ realm, start realm → realm.WellFormed)
    (h : (app start).Reachable s) : s.realm.WellFormed := by
  have i : (app start).Invariant (·.realm.WellFormed) := {
    init h := by
      obtain ⟨realm, _, hr, rfl⟩ := app_init h
      exact hw realm hr
    step := fun hr hw h => h.transition.wellFormed (app_coherent hr) (app_sessionConsistent hr) hw }
  exact i.holds h

theorem Failure.eq_unregisteredIdentifier (h : Failure s e tr) (hc : s.Coherent)
    (hs : s.SessionConsistent) (hw : s.realm.WellFormed) : tr = .unregisteredIdentifier := by
  have drawn {list : ItemsTableViewController} {x : Item Place Contact} (hx : x.WellFormed)
      (hd : list.CellFailure x tr) : tr = .unregisteredIdentifier := by
    cases hd
    case identifier => rfl
    case place hn   =>
      have ⟨_, hp, _⟩ := hx.place
      simp [hn] at hp
  cases h
  case drawRow hk hx hd => exact drawn (hw _ _ hx) hd
  case selectRow t row now k x hk hx hl =>
    have ⟨vc, hl'⟩ : ∃ vc, ({ isLostItem := !x.found, item := some (.managed k) } :
        AddItemTableViewController).viewDidLoad s.realm s.auth now = .ok vc :=
      AddItemTableViewController.viewDidLoad_details_ok hx (hw k x hx)
    simp [hl'] at hl
  case save ha hb hy _ hd =>
    have ⟨_, hv⟩ := hs.complete hc ha hb
    exact drawn (AddItemTableViewController.newItem_wellFormed hy hv) hd

-- The stored items are well formed, so nothing that is drawn, opened or saved lacks a part.
theorem app_validity (h : (app (· = .empty)).Reachable s) :
    (∀ k x, s.realm.find? k = some x → x.WellFormed ∧
      (∃ cell, ItemTableViewCell.update x = .ok cell) ∧
      ∀ b auth now, ∃ vc, ({ isLostItem := b, item := some (.managed k) } :
        AddItemTableViewController).viewDidLoad s.realm auth now = .ok vc) ∧
    (∀ source d vc t now, s.FormAt source d vc t → vc.saveButton.any (·.isEnabled) →
      ∃ y, vc.newItem s.auth now = .ok y) ∧
    ∀ e, s.Allows e → s.perform e ≠ .error .unexpectedNil := by
  have hc := app_coherent h
  have hs := app_sessionConsistent h
  have hw : s.realm.WellFormed := app_wellFormed (by rintro _ rfl; simp [Realm.WellFormed]) h
  refine ⟨fun k x hx => ⟨hw k x hx, ?_, fun b auth now => ?_⟩, fun _ _ _ _ _ => hs.newItem_ok hc,
    fun e ha he => ?_⟩
  · exact ItemTableViewCell.update_ok (hw k x hx)
  · exact AddItemTableViewController.viewDidLoad_details_ok hx (hw k x hx)
  · have ht := (Failure.of_perform he hc hs ha).eq_unregisteredIdentifier hc hs hw
    contradiction

end

section

attribute [local instance] Unicode.ascii

-- The item that Ann posts is well formed.
theorem app_validity_post : ∃ s x,
    (State.fresh .empty (.restore none)).execute (signIn "ann@los.be" ++ post .lost) = some s ∧
    s.realm.find? 0 = some x ∧ x.WellFormed := by
  have h : ((State.fresh .empty (.restore none)).execute (signIn "ann@los.be" ++ post .lost)).any
      fun s => (s.realm.find? 0).isSome := by
    decide +kernel
  simp only [Option.any_eq_true, Option.isSome_iff_exists] at h
  obtain ⟨s, hs, x, hx⟩ := h
  have hr : (app (· = .empty)).Reachable s := reachable_of_execute rfl hs
  have ⟨hw, _, _⟩ := (app_validity hr).left 0 x hx
  exact ⟨s, x, hs, hx, hw⟩

end
end Execution
end LosTrouvee
