import Mathlib
import LosTrouvee.Controllers.Theorems.Filling
import LosTrouvee.Execution.Theorems.Credentials
import LosTrouvee.Execution.Theorems.Navigation
import LosTrouvee.Execution.Theorems.Progress
import LosTrouvee.Execution.Theorems.RoundTrip

namespace LosTrouvee.Execution

open AddItemTableViewController (editing)

section

variable [Unicode] {start : Realm → Prop} {s s' s₀ : State} {e : Event} {t : Tab} {k : Key}
  {x y : Item Place Contact} {vc vc' : AddItemTableViewController}
  {es : List AddItemTableViewController.FormEvent} {now : Date}

-- What is done on a form is done in the app.

theorem run_presented (r : (editing s₀.auth).Run vc es vc') (hp : s.presented = [.addItem vc])
    (ha : s.auth = s₀.auth) :
    (app start).Run s (es.map (.form .presented)) { s with presented := [.addItem vc'] } := by
  induction r generalizing s
  case refl vc =>
    rw [← hp]
    exact .refl
  case step vc e vc₁ es vc₂ h _ hi =>
    obtain ⟨hv, hh⟩ := h
    have hs : Step s (.form .presented e) { s with presented := [.addItem vc₁] } := {
      allows   := by simpa [State.Allows, State.visible, hp] using hv
      performs := by simp [State.perform, State.form, hp, ha, hh] }
    exact .step hs (hi rfl ha)

theorem run_details (r : (editing s₀.auth).Run vc es vc') (hv : s.visible = .details t)
    (hd : s.details t = some vc) (ha : s.auth = s₀.auth) :
    (app start).Run s (es.map (.form (.details t)))
      (s.setNav t { s.navs t with details := some vc' }) := by
  induction r generalizing s
  case refl vc =>
    have hs : s.setNav t { s.navs t with details := some vc } = s := by
      rw [← hd]
      simp [State.setNav, State.details]
    rw [hs]
    exact .refl
  case step vc e vc₁ es vc₂ h _ hi =>
    obtain ⟨hv', hh⟩ := h
    obtain ⟨hp, -, ht⟩ := State.visible_eq_details_iff.mp hv
    let s₁ := s.setNav t { s.navs t with details := some vc₁ }
    have hs : Step s (.form (.details t) e) s₁ := {
      allows   := by simpa [State.Allows, hv, hd] using hv'
      performs := by simp [State.perform, State.form, hd, ha, hh, s₁] }
    have hd₁ : s₁.details t = some vc₁ := by simp [State.details, s₁]
    have hv₁ : s₁.visible = .details t :=
      State.visible_eq_details_iff.mpr ⟨hp, by simp [hd₁], ht⟩
    have hn : s₁.setNav t { s₁.navs t with details := some vc₂ } =
        s.setNav t { s.navs t with details := some vc₂ } := by
      simp [s₁, State.setNav]
    exact hn ▸ .step hs (hi hv₁ hd₁ ha)

theorem exists_tapAdd (hr : (app start).Reachable s) (hv : s.visible = .list t)
    (hu : s.auth.email.isSome) (now : Date) : ∃ vc s', Step s (.tapAdd t now) s' ∧
      s' = { s with presented := [.addItem vc] } ∧ vc.Editable s.auth now ∧
      vc.isLostItem = !t.showsFound := by
  obtain ⟨hp, hd, ht⟩ := State.visible_eq_list_iff.mp hv
  have hl : (s.list t).isViewLoaded := ht ▸ (app_coherent hr).selected
  have hu : s.auth.currentUser.isSome := by
    rw [Option.isSome_iff_ne_none] at hu ⊢
    exact mt Auth.email_eq_none_iff.mpr hu
  have hb := ((app_sessionConsistent hr).buttons hl).signedIn hu
  have ⟨vc, h⟩ : ∃ vc, ({ isLostItem := !t.showsFound } :
      AddItemTableViewController).viewDidLoad s.realm s.auth now = .ok vc :=
    ⟨_, AddItemTableViewController.viewDidLoad_new_eq⟩
  have hs : Step s (.tapAdd t now) { s with presented := [.addItem vc] } := {
    allows   := by simp [State.Allows, hv, hb.right]
    performs := by
      have h : (ItemsTableViewController.prepareAddItem t.addSegue {}).viewDidLoad s.realm s.auth
          now = .ok vc := by
        cases t <;> exact h
      simp [State.perform, State.tapAdd, h] }
  exact ⟨vc, _, hs, rfl, AddItemTableViewController.viewDidLoad_new_editable h,
    (AddItemTableViewController.viewDidLoad_new_spec h).right.left⟩

-- No row is selected below a form for a new item, so its item is added to the others.
theorem Step.save_newItem (h : Step s (.unwind .presented .saveUnwind .opener now) s')
    (hc : s.Coherent) (ha : s.FormAt .presented .opener vc t) (hy : vc.newItem s.auth now = .ok y) :
    s'.realm = s.realm.insert y := by
  have hw := h.transition.storeStep
  generalize s'.realm = realm, he : Event.unwind .presented .saveUnwind .opener now = e at hw
  cases hw
  case skip hs        => simp [← he, Event.saves] at hs
  case delete | found => simp at he
  case insert ha' _ hy' _ =>
    obtain ⟨rfl, -, rfl, rfl⟩ := Event.unwind.inj he
    obtain rfl := ha.unique ha'
    obtain rfl := Except.ok.inj (hy.symm.trans hy')
    rfl
  case replace ha' _ _ hr _ _ =>
    obtain ⟨rfl, -, rfl, -⟩ := Event.unwind.inj he
    have hp : s.presented ≠ [] := by cases ha; simp_all
    have hn : (s.list s.selectedTab).tableView.indexPathForSelectedRow = none :=
      (hc.nav _).idle (hc.covered hp)
    simp [ha'.eq_destinationTab, State.destinationTab, hn] at hr

end

section

attribute [local instance] Unicode.ascii

end

end LosTrouvee.Execution
