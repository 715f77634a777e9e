import LosTrouvee.Controllers.Theorems.List
import LosTrouvee.Controllers.Theorems.Saving
import LosTrouvee.Execution.Step

namespace LosTrouvee.Execution

namespace Presented

def form? : Presented → Option AddItemTableViewController
  | addItem vc => some vc
  | login _ | register _ => none

-- The value that the screen gives to the flag of the list it returns to.
def fromLostList : Presented → Bool
  | addItem vc  => vc.isLostItem
  | login vc    => vc.navFromLostList
  | register vc => vc.navFromLostList

end Presented

-- The events that replace the root view controller whatever the state.
def Event.resets : Event → Bool
  | launch | tapLogout _ _ | complete _ (some _) => true
  | _ => false

namespace State

-- The state under a new root view controller.
def fresh (realm : Realm) (auth : Auth) : State where
  realm       := realm
  auth        := auth
  navs
    | .lost  =>
      { list := ((ItemsTableViewController.instantiate .lost).load realm auth).viewWillAppear }
    | .found => { list := .instantiate .found }
  selectedTab := .lost
  presented   := []

theorem instantiateInitial_eq (realm : Realm) (auth : Auth) :
    instantiateInitial realm auth = .ok (fresh realm auth) := by
  simp [instantiateInitial, ItemsTableViewController.viewDidLoad_eq, bind, Except.bind, pure,
    Except.pure]
  rfl

variable {s : State} {t : Tab}

theorem visible_eq_list_iff :
    s.visible = .list t ↔ s.presented = [] ∧ s.details t = none ∧ t = s.selectedTab := by
  unfold visible
  split_ifs <;> grind [Option.isSome_eq_false_iff, Option.isNone_iff_eq_none]

theorem visible_eq_details_iff :
    s.visible = .details t ↔ s.presented = [] ∧ (s.details t).isSome ∧ t = s.selectedTab := by
  unfold visible
  split_ifs <;> grind

theorem navs_eq_of_details_eq_none (hd : s.details t = none) (list : ItemsTableViewController) :
    { s.navs t with list } = ({ list } : NavigationController) := by
  rw [← hd]
  rfl

-- A state in which nothing covers the tab `t`.
def «show» (s : State) (t : Tab) (nav : NavigationController) (realm : Realm) : State :=
  { s.setNav t nav with realm, selectedTab := t, presented := [] }

theorem setNav_eq_show {nav : NavigationController} (hp : s.presented = [])
    (ht : t = s.selectedTab) : s.setNav t nav = s.show t nav s.realm := by
  subst ht
  simp only [State.show, ← hp]
  rfl

-- A form on top of the app and the tab that an unwind from it ends at.
inductive FormAt (s : State) : Screen → Destination → AddItemTableViewController → Tab → Prop
  | details :
    s.presented = [] → s.details s.selectedTab = some vc →
    FormAt s (.details s.selectedTab) .opener vc s.selectedTab
  | presented :
    s.presented = .addItem vc :: ps → FormAt s .presented d vc (s.destinationTab d)

-- Any screen over a list, with the flag that it gives to the list of the tab it ends at.
inductive Leaves (s : State) : Screen → Destination → Bool → Tab → Prop
  | details :
    s.presented = [] → s.details s.selectedTab = some vc →
    Leaves s (.details s.selectedTab) .opener vc.isLostItem s.selectedTab
  | presented :
    s.presented = p :: ps → Leaves s .presented d p.fromLostList (s.destinationTab d)

theorem FormAt.leaves {s : State} (h : FormAt s source d vc t) :
    Leaves s source d vc.isLostItem t := by
  cases h
  case details hp hd => exact .details hp hd
  case presented hp  => exact .presented hp

theorem FormAt.eq_destinationTab {s : State} (h : FormAt s .presented d vc t) :
    t = s.destinationTab d := by
  cases h
  rfl

end State

variable [Unicode]

open State in
-- All that a step can do.
inductive Transition (s : State) : Event → State → Prop
  | reset {e auth} :
    e.resets → Transition s e (fresh s.realm auth)
  | submit {r} :
    Transition s .tapSubmit { s with auth := s.auth.request r }
  | fail {i} :
    Transition s (.complete i none) { s with auth := s.auth.fail i }
  | popToRoot :
    s.presented = [] →
    Transition s (.selectTab s.selectedTab)
      (s.show s.selectedTab { list := (s.list s.selectedTab).viewWillAppear } s.realm)
  | selectTab {t list} :
    s.presented = [] → t ≠ s.selectedTab →
    list = (if (s.list t).isViewLoaded then s.list t else (s.list t).load s.realm s.auth) →
    Transition s (.selectTab t) (s.show t { s.navs t with
      list := if (s.details t).isNone then list.viewWillAppear else list } s.realm)
  | drawRow {t row} :
    Transition s (.drawRow t row) s
  | selectRow {t row now k x vc} :
    s.visible = .list t → (s.list t).items[row]? = some k → s.realm.find? k = some x →
    ({ isLostItem := !x.found, item := some (.managed k) } :
      AddItemTableViewController).viewDidLoad s.realm s.auth now = .ok vc →
    Transition s (.selectRow t row now) (s.show t {
      list    := { s.list t with tableView := (s.list t).tableView.selectRow row }
      details := some vc } s.realm)
  | keepRow {t row} :
    (s.list t).canEditRowAt s.realm s.auth row = .ok false →
    Transition s (.deleteRow t row) s
  | deleteRow {t row k x tableView} :
    s.visible = .list t → (s.list t).items[row]? = some k → s.realm.find? k = some x →
    s.auth.email = some x.userEmail →
    (s.list t).tableView.deleteRow row ((s.list t).items.eraseIdx row).length = .ok tableView →
    Transition s (.deleteRow t row) (s.show t {
      list := { s.list t with items := (s.list t).items.eraseIdx row, tableView } }
      (s.realm.erase k))
  | tapAdd {t now vc} :
    s.visible = .list t → (s.list t).rightBarButtonItems.contains .add →
    ({ isLostItem := !t.showsFound } : AddItemTableViewController).viewDidLoad
      s.realm s.auth now = .ok vc →
    Transition s (.tapAdd t now) { s with presented := [.addItem vc] }
  | openSession {t e p} :
    s.visible = .list t → e = .tapLogin t ∨ e = .tapRegister t → p.form? = none →
    p.fromLostList = !t.showsFound →
    Transition s e { s with presented := [p] }
  | editCredential {field text p p' ps} :
    s.presented = p :: ps → p.form? = none → p'.form? = none → p'.fromLostList = p.fromLostList →
    Transition s (.editCredential field text) { s with presented := p' :: ps }
  | switchForm {p p' ps} :
    s.presented = p :: ps → p.form? = none → p'.form? = none → p'.fromLostList = p.fromLostList →
    Transition s .switchForm { s with presented := p' :: p :: ps }
  | editDetails {t e vc vc'} :
    s.visible = .details t → s.details t = some vc → vc.handle s.auth e = .ok vc' →
    Transition s (.form (.details t) e) (s.show t { s.navs t with details := some vc' } s.realm)
  | editNew {e vc vc' ps} :
    s.presented = .addItem vc :: ps → vc.handle s.auth e = .ok vc' →
    Transition s (.form .presented e) { s with presented := .addItem vc' :: ps }
  | cancel {source segue d now b t} :
    s.Leaves source d b t → segue ≠ .saveUnwind →
    (segue = .foundUnwind → ∃ vc, s.FormAt source d vc t ∧ vc.item = none) →
    Transition s (.unwind source segue d now)
      (s.show t { list := ({ s.list t with isLostList := b }.showButtons s.auth).viewWillAppear }
        s.realm)
  | save {source d vc t now y unwound} :
    s.FormAt source d vc t → vc.saveButton.any (·.isEnabled) → vc.newItem s.auth now = .ok y →
    ItemsTableViewController.Saves
      ({ s.list t with isLostList := vc.item.isNone || vc.isLostItem }.showButtons s.auth) s.realm y
      unwound →
    Transition s (.unwind source .saveUnwind d now)
      (if unwound.replacesRoot then fresh unwound.realm s.auth
        else s.show t { list := unwound.list.viewWillAppear } unwound.realm)
  | found {source d vc t now k x row tableView} :
    s.FormAt source d vc t → vc.foundButton.any (·.isEnabled) → vc.item = some (.managed k) →
    s.realm.find? k = some x → (s.list t).tableView.indexPathForSelectedRow = some row →
    row < (s.list t).items.length →
    (s.list t).tableView.deleteRow row ((s.list t).items.eraseIdx row).length = .ok tableView →
    Transition s (.unwind source .foundUnwind d now) (s.show t {
      list := { { s.list t with isLostList := vc.isLostItem }.showButtons s.auth with
        items := (s.list t).items.eraseIdx row, tableView }.viewWillAppear } (s.realm.erase k))

variable {s s' : State} {e : Event} {t : Tab}

namespace State

theorem selectTab_transition (h : s.selectTab t = .ok s') (hp : s.presented = []) :
    Transition s (.selectTab t) s' := by
  simp only [selectTab] at h
  split at h
  case isTrue ht =>
    subst ht
    simp only [pure_eq_ok, setNav_eq_show hp rfl] at h
    exact h ▸ .popToRoot hp
  case isFalse ht =>
    simp only [ItemsTableViewController.viewDidLoad_eq] at h
    split at h <;>
      simp only [bind_eq_ok, pure_eq_ok, Except.ok.injEq, exists_eq_left'] at h <;>
      subst h
    all_goals
      simp only [State.setNav_auth, setNav_presented, hp]
      refine .selectTab hp ht ?_
      simp_all [list]

theorem deleteRow_transition {row : Nat} (h : s.deleteRow t row = .ok s')
    (hv : s.visible = .list t) : Transition s (.deleteRow t row) s' := by
  simp only [deleteRow, bind_eq_ok] at h
  obtain ⟨b, hb, h⟩ := h
  cases b
  case false =>
    simp only [Bool.false_eq_true, if_false, pure_eq_ok] at h
    exact h ▸ .keepRow hb
  case true =>
    simp only [if_true, ItemsTableViewController.commitDelete, bind_eq_ok, element_eq_ok,
      Realm.delete_eq_ok, pure_eq_ok] at h
    obtain ⟨⟨_, _⟩, ⟨k, hk, _, ⟨_, x, ⟨⟩, hx, rfl⟩, table, ht, ⟨⟩⟩, rfl⟩ := h
    obtain ⟨hp, hd, hs⟩ := visible_eq_list_iff.mp hv
    rw [navs_eq_of_details_eq_none hd, setNav_eq_show hp hs]
    refine .deleteRow hv hk hx ?_ ht
    simpa [ItemsTableViewController.canEditRowAt_eq hk hx] using hb

theorem unwindTo_eq {segue : Segue} {item : Option ItemObject} {list : ItemsTableViewController}
    (hs : segue ≠ .saveUnwind) (hf : segue = .foundUnwind → item = none) :
    s.unwindTo t segue item list = .ok (s.returnTo t (list.showButtons s.auth) s.realm) := by
  rw [unwindTo, ItemsTableViewController.unwindToItemList_cancel hs hf]
  rfl

theorem unwindForm_cancel {source : Screen} {d : Destination} {vc : AddItemTableViewController}
    {segue : Segue} {now : Date} (ha : s.FormAt source d vc t) (hs : segue ≠ .saveUnwind)
    (hf : segue = .foundUnwind → vc.item = none) (h : s.unwindForm vc t segue now = .ok s') :
    Transition s (.unwind source segue d now) s' := by
  simp only [unwindForm, AddItemTableViewController.prepare, hs, if_false, bind_eq_ok, pure_eq_ok,
    exists_eq_left', unwindTo_eq hs hf, Except.ok.injEq] at h
  exact h ▸ .cancel ha.leaves hs fun hf' => ⟨vc, ha, hf hf'⟩

theorem unwindForm_save {source : Screen} {d : Destination} {vc : AddItemTableViewController}
    {now : Date} (ha : s.FormAt source d vc t) (ho : vc.offers .saveUnwind)
    (h : s.unwindForm vc t .saveUnwind now = .ok s') :
    Transition s (.unwind source .saveUnwind d now) s' := by
  simp only [unwindForm, AddItemTableViewController.prepare_save, bind_eq_ok, pure_eq_ok, unwindTo]
    at h
  obtain ⟨_, ⟨y, hy, rfl⟩, unwound, hu, h⟩ := h
  have hs := ItemsTableViewController.unwindToItemList_save hu
  have ht : Transition s (.unwind source .saveUnwind d now) _ := .save ha ho hy hs
  split at h
  case isTrue hr  =>
    rw [instantiateInitial_eq, Except.ok.injEq] at h
    rwa [if_pos hr, h] at ht
  case isFalse hr =>
    rw [if_neg hr] at ht
    exact Except.ok.inj h ▸ ht

theorem unwindForm_found {source : Screen} {d : Destination} {vc : AddItemTableViewController}
    {now : Date} {item : ItemObject} (ha : s.FormAt source d vc t) (ho : vc.offers .foundUnwind)
    (hi : vc.item = some item) (h : s.unwindForm vc t .foundUnwind now = .ok s') :
    Transition s (.unwind source .foundUnwind d now) s' := by
  simp only [unwindForm, AddItemTableViewController.prepare, reduceCtorEq, if_false, bind_eq_ok,
    pure_eq_ok, exists_eq_left', unwindTo, hi] at h
  obtain ⟨unwound, hu, h⟩ := h
  obtain ⟨k, x, row, table, rfl, hx, hr, hl, ht, rfl⟩ :=
    ItemsTableViewController.unwindToItemList_found hu
  simp only [Bool.false_eq_true, if_false, pure_eq_ok] at h
  exact h ▸ .found ha ho hi hx hr hl ht

theorem FormAt.unwind_eq {source : Screen} {d : Destination} {vc : AddItemTableViewController}
    {segue : Segue} {now : Date} (h : s.FormAt source d vc t) :
    s.unwind source segue d now = s.unwindForm vc t segue now := by
  cases h
  case details hp hd => simp [unwind, hd]
  case presented hp  => simp [unwind, hp]

theorem unwindForm_transition {source : Screen} {d : Destination} {vc : AddItemTableViewController}
    {segue : Segue} {now : Date} (ha : s.FormAt source d vc t) (ho : vc.offers segue)
    (h : s.unwindForm vc t segue now = .ok s') : Transition s (.unwind source segue d now) s' := by
  by_cases hs : segue = .saveUnwind
  case pos => subst hs; exact unwindForm_save ha ho h
  case neg =>
    by_cases hf : segue = .foundUnwind
    case neg => exact unwindForm_cancel ha hs (absurd · hf) h
    case pos =>
      subst hf
      cases hi : vc.item
      case none      => exact unwindForm_cancel ha hs (fun _ => hi) h
      case some item => exact unwindForm_found ha ho hi h

theorem form_transition {on : Screen} {e : AddItemTableViewController.FormEvent}
    (h : s.form on e = .ok s') (ha : s.Allows (.form on e)) : Transition s (.form on e) s' := by
  simp only [Allows, Bool.and_eq_true, decide_eq_true_eq] at ha
  obtain ⟨hv, ha⟩ := ha
  cases on
  case list t    => simp at ha
  case details t =>
    obtain ⟨vc, hd, _⟩ := (Option.any_eq_true ..).mp ha
    simp only [form, hd, bind_eq_ok, pure_eq_ok] at h
    obtain ⟨vc', hh, rfl⟩ := h
    obtain ⟨hp, _, hs⟩ := visible_eq_details_iff.mp hv
    exact setNav_eq_show hp hs ▸ .editDetails hv hd hh
  case presented =>
    rcases hp : s.presented with _ | ⟨vc | _ | _, ps⟩ <;> simp only [hp, Bool.false_eq_true] at ha
    simp only [form, hp, bind_eq_ok, pure_eq_ok] at h
    obtain ⟨vc', hh, rfl⟩ := h
    exact .editNew hp hh

omit [Unicode] in
-- An unwind leaves a form by one of its buttons, or it cancels one of the other screens.
theorem allows_unwind {source : Screen} {segue : Segue} {d : Destination} {now : Date}
    (ha : s.Allows (.unwind source segue d now)) :
    (∃ vc t, s.FormAt source d vc t ∧ vc.offers segue) ∨
    ∃ p ps, source = .presented ∧ s.presented = p :: ps ∧ p.form? = none ∧
      segue ≠ .saveUnwind ∧ segue ≠ .foundUnwind := by
  simp only [Allows, Bool.and_eq_true, decide_eq_true_eq] at ha
  obtain ⟨hv, ha⟩ := ha
  cases source
  case list t    => simp at ha
  case details t =>
    simp only [Bool.and_eq_true, decide_eq_true_eq] at ha
    obtain ⟨ho, rfl⟩ := ha
    obtain ⟨vc, hd, hv'⟩ := (Option.any_eq_true ..).mp ho
    obtain ⟨hp, -, rfl⟩ := visible_eq_details_iff.mp hv
    exact .inl ⟨vc, _, .details hp hd, hv'⟩
  case presented =>
    rcases hp : s.presented with _ | ⟨vc | vc | vc, ps⟩ <;>
      simp only [hp, decide_eq_true_eq, Bool.false_eq_true] at ha
    · exact .inl ⟨vc, _, .presented hp, ha⟩
    all_goals
      subst ha
      exact .inr ⟨_, ps, rfl, rfl, rfl, by simp, by simp⟩

theorem unwind_session {p : Presented} {ps : List Presented} {segue : Segue} {d : Destination}
    {now : Date} (hp : s.presented = p :: ps) (hf : p.form? = none)
    (hs : segue ≠ .saveUnwind) (hf' : segue ≠ .foundUnwind)
    (h : s.unwind .presented segue d now = .ok s') :
    Transition s (.unwind .presented segue d now) s' := by
  have ht : s.Leaves .presented d _ _ := .presented hp
  cases p <;> simp only [Presented.form?, reduceCtorEq] at hf
  all_goals
    simp only [unwind, hp] at h
    rw [unwindTo_eq hs (absurd · hf'), Except.ok.injEq] at h
    exact h ▸ .cancel ht hs (absurd · hf')

theorem unwind_transition {source : Screen} {segue : Segue} {d : Destination} {now : Date}
    (h : s.unwind source segue d now = .ok s') (ha : s.Allows (.unwind source segue d now)) :
    Transition s (.unwind source segue d now) s' := by
  rcases allows_unwind ha with ⟨vc, t, hf, ho⟩ | ⟨p, ps, rfl, hp, hf, hs, hf'⟩
  · exact unwindForm_transition hf ho (hf.unwind_eq ▸ h)
  · exact unwind_session hp hf hs hf' h

end State

theorem Step.transition (h : Step s e s') : Transition s e s' := by
  obtain ⟨ha, hp⟩ := h
  cases e
  case launch =>
    simp only [State.perform, State.instantiateInitial_eq, Except.ok.injEq] at hp
    exact hp ▸ .reset rfl
  case selectTab t =>
    exact State.selectTab_transition hp (by simpa [State.Allows] using ha)
  case drawRow t row =>
    simp only [State.perform, bind_eq_ok, pure_eq_ok] at hp
    obtain ⟨_, -, rfl⟩ := hp
    exact .drawRow
  case selectRow t row now =>
    simp only [State.Allows, Bool.and_eq_true, decide_eq_true_eq] at ha
    simp only [State.perform, State.selectRow, ItemsTableViewController.prepareDetails,
      UITableView.selectRow, bind_eq_ok, unwrap_eq_ok, element_eq_ok, Realm.read_eq_ok, pure_eq_ok,
      Option.some.injEq, exists_eq_left'] at hp
    obtain ⟨_, ⟨k, hk, x, hx, rfl⟩, vc, hl, rfl⟩ := hp
    obtain ⟨hp, _, hs⟩ := State.visible_eq_list_iff.mp ha.left
    exact State.setNav_eq_show hp hs ▸ .selectRow ha.left hk hx hl
  case deleteRow t row =>
    simp only [State.Allows, Bool.and_eq_true, decide_eq_true_eq] at ha
    exact State.deleteRow_transition hp ha.left
  case tapAdd t now =>
    simp only [State.Allows, Bool.and_eq_true, decide_eq_true_eq] at ha
    simp only [State.perform, State.tapAdd, bind_eq_ok, pure_eq_ok] at hp
    obtain ⟨vc, hl, rfl⟩ := hp
    exact .tapAdd ha.left ha.right (by cases t <;> exact hl)
  case tapLogin t =>
    simp only [State.perform, Except.ok.injEq] at hp
    simp only [State.Allows, Bool.and_eq_true, decide_eq_true_eq] at ha
    exact hp ▸ .openSession ha.left (.inl rfl) rfl (by cases t <;> rfl)
  case tapRegister t =>
    simp only [State.perform, Except.ok.injEq] at hp
    simp only [State.Allows, Bool.and_eq_true, decide_eq_true_eq] at ha
    exact hp ▸ .openSession ha.left (.inr rfl) rfl (by cases t <;> rfl)
  case tapLogout t throws =>
    simp only [State.perform, State.logoutAction, State.instantiateInitial_eq, Except.ok.injEq]
      at hp
    exact hp ▸ .reset rfl
  case form on e =>
    exact State.form_transition hp ha
  case unwind source segue d now =>
    exact State.unwind_transition hp ha
  case editCredential field text =>
    simp only [State.Allows] at ha
    rcases hs : s.presented with _ | ⟨vc | vc | vc, ps⟩ <;> simp only [hs, Bool.false_eq_true] at ha
    all_goals
      simp only [State.perform, State.editCredential, hs, Except.ok.injEq] at hp
      exact hp ▸ .editCredential hs rfl rfl (by cases field <;> rfl)
  case tapSubmit =>
    simp only [State.Allows] at ha
    rcases hs : s.presented with _ | ⟨vc | vc | vc, ps⟩ <;> simp only [hs, Bool.false_eq_true] at ha
    all_goals
      simp only [State.perform, State.tapSubmit, hs] at hp
      cases hp
      rw [← hs]
      exact .submit
  case switchForm =>
    simp only [State.Allows] at ha
    rcases hs : s.presented with _ | ⟨vc | vc | vc, ps⟩ <;> simp only [hs, Bool.false_eq_true] at ha
    all_goals
      simp only [State.perform, State.switchForm, hs, Except.ok.injEq] at hp
      exact hp ▸ .switchForm hs rfl rfl rfl
  case complete i email =>
    cases email
    case none =>
      simp only [State.perform, State.complete, Except.ok.injEq] at hp
      exact hp ▸ .fail
    case some email =>
      simp only [State.perform, State.complete, State.instantiateInitial_eq, Except.ok.injEq] at hp
      exact hp ▸ .reset rfl

theorem app_init {start : Realm → Prop} {s : State} (h : (app start).Init s) :
    ∃ realm email, start realm ∧ s = .fresh realm (.restore email) := by
  obtain ⟨realm, email, hr, hs⟩ := h
  rw [State.instantiateInitial_eq, Except.ok.injEq] at hs
  exact ⟨realm, email, hr, hs.symm⟩

end LosTrouvee.Execution
