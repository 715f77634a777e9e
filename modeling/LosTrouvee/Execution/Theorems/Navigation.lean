import Mathlib
import LosTrouvee.Execution.Theorems.Dates

namespace LosTrouvee

-- A list without deleted or repeated items, in a table with as many rows.
structure ItemsTableViewController.Cached (realm : Realm) (list : ItemsTableViewController) :
    Prop where
  nodup  : list.items.Nodup
  stored : ∀ k ∈ list.items, ∃ x, realm.find? k = some x
  rows   : list.tableView.numberOfRows = list.items.length

namespace Execution

section

variable [Unicode] {start : Realm → Prop} {s s' : State} {e : Event} {t : Tab}

-- Whatever the Realm was at launch and whatever is done, each list is a list of different stored
-- items, no item is on both lists, and a row is selected exactly as long as its details are open.
theorem app_caches (h : (app start).Reachable s) :
    (∀ t, (s.list t).Cached s.realm) ∧ (∀ k ∈ (s.list .lost).items, k ∉ (s.list .found).items) ∧
    ∀ t, (s.details t = none ↔ (s.list t).tableView.indexPathForSelectedRow = none) ∧
      ∀ vc, s.details t = some vc → NavigationController.Opened s.realm (s.list t) vc := by
  have hc := app_coherent h
  refine ⟨fun t => ?_, fun k => hc.disjoint (by simp), fun t => ⟨?_, fun vc => (hc.nav t).opened⟩⟩
  · have hl := hc.list t
    exact ⟨hl.nodup, fun k hk => Option.isSome_iff_exists.mp (hl.stored k hk), hl.rows⟩
  · refine ⟨(hc.nav t).idle, fun hr => ?_⟩
    by_contra hd
    have ⟨vc, hd⟩ := Option.ne_none_iff_exists'.mp hd
    have ⟨hs, _, _, _, _⟩ := (hc.nav t).opened hd
    have hr : (s.navs t).list.tableView.indexPathForSelectedRow = none := hr
    simp [hr] at hs

-- What is on display changes, but neither the Realm, nor the session, nor the lists that are
-- loaded.
structure State.Navigates (s s' : State) : Prop where
  realm : s'.realm = s.realm
  auth  : s'.auth = s.auth
  items : ∀ t, (s.list t).isViewLoaded →
    (s'.list t).isViewLoaded ∧ (s'.list t).items = (s.list t).items

omit [Unicode] in
theorem State.Navigates.refl (s : State) : s.Navigates s :=
  ⟨rfl, rfl, fun _ hl => ⟨hl, rfl⟩⟩

omit [Unicode] in
theorem State.Navigates.trans {s'' : State} (h₁ : s.Navigates s') (h₂ : s'.Navigates s'') :
    s.Navigates s'' where
  realm := h₂.realm.trans h₁.realm
  auth  := h₂.auth.trans h₁.auth
  items t hl := by
    have ⟨hl₁, hi₁⟩ := h₁.items t hl
    have ⟨hl₂, hi₂⟩ := h₂.items t hl₁
    exact ⟨hl₂, hi₂.trans hi₁⟩

omit [Unicode] in
theorem State.navigates_show {nav : NavigationController} (hl : (s.list t).isViewLoaded →
    nav.list.isViewLoaded ∧ nav.list.items = (s.list t).items) :
    s.Navigates (s.show t nav s.realm) where
  realm := rfl
  auth  := rfl
  items u hu := by
    rw [show_list]
    split
    case isTrue h  => subst h; exact hl hu
    case isFalse h => exact ⟨hu, rfl⟩

-- The button of a screen that leads back to its list.
def cancelSegue (s : State) : Segue :=
  match s.presented with
  | .login _ :: _    => .cancelLoginSegue
  | .register _ :: _ => .cancelRegisterSegue
  | _                => .cancelUnwind

omit [Unicode] in
theorem State.show_visible {nav : NavigationController} {realm : Realm} (hd : nav.details = none) :
    (s.show t nav realm).visible = .list t :=
  visible_eq_list_iff.mpr ⟨rfl, by simp [show_details, hd], rfl⟩

-- Every screen can be left for its list.
theorem exists_cancel (s : State) (hv : s.visible ≠ .list s.selectedTab) (now : Date) :
    ∃ s', Step s (.unwind s.visible (cancelSegue s) .opener now) s' ∧ s.Navigates s' ∧
      s'.visible = .list s.selectedTab ∧ s'.selectedTab = s.selectedTab := by
  have back (b : Bool) : s.Navigates (s.returnTo s.selectedTab
      ({ s.list s.selectedTab with isLostList := b }.showButtons s.auth) s.realm) :=
    State.navigates_show fun hl => by simpa using hl
  rcases hp : s.presented with _ | ⟨vc | vc | vc, ps⟩
  case nil =>
    have ⟨vc, hd⟩ : ∃ vc, s.details s.selectedTab = some vc := by
      rw [← Option.ne_none_iff_exists']
      exact fun hd => hv (State.visible_eq_list_iff.mpr ⟨hp, hd, rfl⟩)
    have hv : s.visible = .details s.selectedTab :=
      State.visible_eq_details_iff.mpr ⟨hp, by simp [hd], rfl⟩
    have hf : s.FormAt (.details s.selectedTab) .opener vc s.selectedTab := .details hp hd
    refine ⟨_, ⟨?_, ?_⟩, back vc.isLostItem, State.show_visible rfl, rfl⟩
    · simp [State.Allows, hv, hd, cancelSegue, hp, AddItemTableViewController.offers]
    · simp [State.perform, hv, hf.unwind_eq, cancelSegue, hp, State.unwindForm,
        AddItemTableViewController.prepare, State.unwindTo_eq]
  all_goals
    have hv : s.visible = .presented := by simp [State.visible, hp]
  · refine ⟨_, ⟨?_, ?_⟩, back vc.isLostItem, State.show_visible rfl, rfl⟩
    · simp [State.Allows, hv, hp, cancelSegue, AddItemTableViewController.offers]
    · simp [State.perform, State.unwind, hv, hp, cancelSegue, State.unwindForm,
        State.destinationTab, AddItemTableViewController.prepare, State.unwindTo_eq]
  · refine ⟨_, ⟨?_, ?_⟩, back vc.navFromLostList, State.show_visible rfl, rfl⟩
    · simp [State.Allows, hv, hp, cancelSegue]
    · simp [State.perform, State.unwind, hv, hp, cancelSegue, State.destinationTab,
        LoginTableViewController.prepareUnwind, State.unwindTo_eq]
  · refine ⟨_, ⟨?_, ?_⟩, back vc.navFromLostList, State.show_visible rfl, rfl⟩
    · simp [State.Allows, hv, hp, cancelSegue]
    · simp [State.perform, State.unwind, hv, hp, cancelSegue, State.destinationTab,
        RegisterTableViewController.prepareUnwind, State.unwindTo_eq]

-- Runs in which the clock stands still.

theorem exists_back (start : Realm → Prop) (s : State) (now : Date) : ∃ es s',
    (app start).Run s es s' ∧ (∀ e ∈ es, ∀ u ∈ e.now?, u = now) ∧ s.Navigates s' ∧
      s'.visible = .list s.selectedTab ∧ s'.selectedTab = s.selectedTab := by
  by_cases hv : s.visible = .list s.selectedTab
  case pos => exact ⟨[], s, .refl, by simp, .refl s, hv, rfl⟩
  case neg =>
    have ⟨s', h, hn, hv', ht⟩ := exists_cancel s hv now
    exact ⟨_, s', .single h, by simp [Event.now?], hn, hv', ht⟩

theorem Step.selectTab (h : Step s (.selectTab t) s') (ht : t ≠ s.selectedTab) :
    s.Navigates s' ∧ s'.selectedTab = t := by
  cases h.transition
  case reset hr       => simp [Event.resets] at hr
  case popToRoot      => exact absurd rfl ht
  case openSession he => simp at he
  case selectTab list hp _ hl =>
    refine ⟨State.navigates_show fun hv => ?_, rfl⟩
    obtain rfl : list = s.list t := by simpa [hv] using hl
    split <;> exact ⟨hv, rfl⟩

theorem exists_selectTab (hp : s.presented = []) (t : Tab) : ∃ s', Step s (.selectTab t) s' := by
  have ⟨s', h⟩ : ∃ s', s.perform (.selectTab t) = .ok s' := by
    simp only [State.perform, State.selectTab, ItemsTableViewController.viewDidLoad_eq]
    split
    · exact ⟨_, rfl⟩
    · split <;> exact ⟨_, rfl⟩
  exact ⟨s', by simp [State.Allows, hp], h⟩

-- From every screen the user gets to each of the lists, on which nothing has changed.
theorem exists_showList (start : Realm → Prop) (s : State) (t : Tab) (now : Date) :
    ∃ es s', (app start).Run s es s' ∧ (∀ e ∈ es, ∀ u ∈ e.now?, u = now) ∧ s.Navigates s' ∧
      s'.visible = .list t := by
  have ⟨es₁, s₁, r₁, hu₁, hn₁, hv₁, ht₁⟩ := exists_back start s now
  by_cases ht : t = s.selectedTab
  case pos => exact ⟨es₁, s₁, r₁, hu₁, hn₁, ht ▸ hv₁⟩
  case neg =>
    have ⟨hp, _, _⟩ := State.visible_eq_list_iff.mp hv₁
    have ⟨s₂, h⟩ := exists_selectTab hp t
    have ⟨hn₂, ht₂⟩ := h.selectTab (ht₁ ▸ ht)
    have ⟨es₃, s₃, r₃, hu₃, hn₃, hv₃, _⟩ := exists_back start s₂ now
    refine ⟨_, s₃, r₁.append (.step h r₃), ?_, (hn₁.trans hn₂).trans hn₃, ht₂ ▸ hv₃⟩
    exact List.forall_mem_append.mpr ⟨hu₁, List.forall_mem_cons.mpr ⟨by simp [Event.now?], hu₃⟩⟩

end

section

attribute [local instance] Unicode.ascii

-- Bob has the details of Ann's item open on the first tab.
theorem app_caches_leaveOpen : ∃ s,
    (State.fresh .empty (.restore none)).execute leaveOpen = some s ∧
    (s.details .lost).isSome ∧ (s.list .lost).tableView.indexPathForSelectedRow ≠ none := by
  have h : ((State.fresh .empty (.restore none)).execute leaveOpen).any fun s =>
      (s.details .lost).isSome := by
    decide +kernel
  simp only [Option.any_eq_true] at h
  obtain ⟨s, hs, hd⟩ := h
  have hr : (app (· = .empty)).Reachable s := reachable_of_execute rfl hs
  have ⟨_, _, hn⟩ := app_caches hr
  exact ⟨s, hs, hd, mt (hn .lost).left.mpr (Option.isSome_iff_ne_none.mp hd)⟩

end
end Execution
end LosTrouvee
