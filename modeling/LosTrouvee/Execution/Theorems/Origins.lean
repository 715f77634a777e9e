import LosTrouvee.Execution.Theorems.Coherence

namespace LosTrouvee.Execution

-- The unwinds that save a form.
def Event.saves : Event → Bool
  | .unwind _ segue _ _ => segue == .saveUnwind
  | _ => false

-- What a step does to the Realm.
inductive State.StoreStep [Unicode] (s : State) : Event → Realm → Prop
  | skip {e} :
    e.saves = false → StoreStep s e s.realm
  | delete {t row k x} :
    (s.list t).items[row]? = some k → s.realm.find? k = some x → s.auth.email = some x.userEmail →
    StoreStep s (.deleteRow t row) (s.realm.erase k)
  | found {source d t now k x} {vc : AddItemTableViewController} :
    s.FormAt source d vc t → vc.foundButton.any (·.isEnabled) → vc.item = some (.managed k) →
    s.realm.find? k = some x →
    StoreStep s (.unwind source .foundUnwind d now) (s.realm.erase k)
  | insert {source d t now y} {vc : AddItemTableViewController} :
    s.FormAt source d vc t → vc.saveButton.any (·.isEnabled) → vc.newItem s.auth now = .ok y →
    (s.list t).tableView.indexPathForSelectedRow = none →
    StoreStep s (.unwind source .saveUnwind d now) (s.realm.insert y)
  | replace {source d t now y row k x} {vc : AddItemTableViewController} :
    s.FormAt source d vc t → vc.saveButton.any (·.isEnabled) → vc.newItem s.auth now = .ok y →
    (s.list t).tableView.indexPathForSelectedRow = some row → (s.list t).items[row]? = some k →
    s.realm.find? k = some x →
    StoreStep s (.unwind source .saveUnwind d now) ((s.realm.erase k).insert y)

variable [Unicode] {s s' : State} {e : Event} {t u : Tab} {nav : NavigationController}
  {realm : Realm} {k : Key} {x y : Item Place Contact} {vc vc' : AddItemTableViewController}

namespace State

omit [Unicode] in
theorem show_list (s : State) (t u : Tab) (nav : NavigationController) (realm : Realm) :
    (s.show t nav realm).list u = if u = t then nav.list else s.list u := by
  split
  case isTrue h  => rw [h, show_list_self]
  case isFalse h => exact show_list_of_ne h

omit [Unicode] in
theorem show_details (s : State) (t u : Tab) (nav : NavigationController) (realm : Realm) :
    (s.show t nav realm).details u = if u = t then nav.details else s.details u := by
  split
  case isTrue h  => simp [h, State.show, details]
  case isFalse h => simp [State.show, details, setNav, Function.update_of_ne h]

omit [Unicode] in
theorem show_details_eq_some (h : (s.show t nav realm).details u = some vc) :
    u = t ∧ nav.details = some vc ∨ s.details u = some vc := by
  rw [show_details] at h
  split at h
  case isTrue hu  => exact .inl ⟨hu, h⟩
  case isFalse hu => exact .inr h

-- An object keeps its value as long as it is there.
theorem StoreStep.find?_eq (h : StoreStep s e realm) (hx : s.realm.find? k = some x) :
    realm.find? k = some x ∨ realm.find? k = none := by
  cases h
  case skip    => exact .inl hx
  case delete  => exact Realm.find?_erase_of_some _ hx
  case found   => exact Realm.find?_erase_of_some _ hx
  case insert  => exact .inl (Realm.find?_insert_of_some _ hx)
  case replace =>
    rw [Realm.find?_insert, Realm.erase_nextKey,
      Function.update_of_ne (Realm.ne_nextKey (Option.isSome_of_mem hx))]
    exact Realm.find?_erase_of_some _ hx

theorem StoreStep.eq_of_find? (h : StoreStep s e realm) (hx : s.realm.find? k = some x)
    (hy : realm.find? k = some y) : y = x := by
  rcases h.find?_eq hx with h | h <;> simp_all

-- A new object is the item of a form that was saved.
theorem StoreStep.item_origin (h : StoreStep s e realm) (hx : realm.find? k = some x) :
    s.realm.find? k = some x ∨ ∃ source d vc t now, e = .unwind source .saveUnwind d now ∧
      s.FormAt source d vc t ∧ vc.saveButton.any (·.isEnabled) ∧ vc.newItem s.auth now = .ok x := by
  have erased {r : Realm} {j : Key} (hx : (r.erase j).find? k = some x) : r.find? k = some x := by
    by_cases hk : k = j
    · simp [Realm.find?_erase, hk] at hx
    · rwa [Realm.find?_erase_of_ne hk] at hx
  have inserted {r : Realm} {y : Item Place Contact} (hx : (r.insert y).find? k = some x) :
      r.find? k = some x ∨ y = x := by
    by_cases hk : k = r.items.nextKey
    · exact .inr (by simpa [Realm.find?_insert, hk] using hx)
    · exact .inl (by simpa [Realm.find?_insert, hk] using hx)
  cases h
  case skip           => exact .inl hx
  case delete | found => exact .inl (erased hx)
  case insert ha hb hy hr =>
    rcases inserted hx with hx | rfl
    · exact .inl hx
    · exact .inr ⟨_, _, _, _, _, rfl, ha, hb, hy⟩
  case replace ha hb hy hr hk hz =>
    rcases inserted hx with hx | rfl
    · exact .inl (erased hx)
    · exact .inr ⟨_, _, _, _, _, rfl, ha, hb, hy⟩

end State

theorem Transition.storeStep (h : Transition s e s') : s.StoreStep e s'.realm := by
  cases h
  case deleteRow hv hk hx hu ht => exact .delete hk hx hu
  case found ha hb hi hx _ _ _ => exact .found ha hb hi hx
  case save ha hb hy hu =>
    cases hu
    case replaced hr hk hx => exact .replace ha hb hy (by simpa using hr) (by simpa using hk) hx
    case inserted hr _ _ _ => exact .insert ha hb hy (by simpa using hr)
    case reloaded hr _     => exact .insert ha hb hy (by simpa using hr)
  case reset hr            => exact .skip (by cases e <;> simp_all [Event.resets, Event.saves])
  case cancel hs _         => exact .skip (by simpa [Event.saves] using hs)
  case openSession t p hv hp hf he => exact .skip (by rcases he with rfl | rfl <;> rfl)
  all_goals exact .skip rfl

-- Where a details screen comes from. A step that leaves one open does not change the session.
theorem Transition.details_origin (h : Transition s e s') (hd : s'.details t = some vc') :
    s'.auth.currentUser = s.auth.currentUser ∧ (
      s.details t = some vc' ∨
      (∃ vc fe, s.details t = some vc ∧ e = .form (.details t) fe ∧ vc.handle s.auth fe = .ok vc') ∨
      ∃ row now k x, e = .selectRow t row now ∧ (s.list t).items[row]? = some k ∧
        s.realm.find? k = some x ∧ s'.realm = s.realm ∧
        ({ isLostItem := !x.found, item := some (.managed k) } :
          AddItemTableViewController).viewDidLoad s.realm s.auth now = .ok vc') := by
  cases h
  case reset        => cases t <;> simp [State.fresh, State.details] at hd
  case selectRow t row now k x vc hv hk hx hl =>
    rcases State.show_details_eq_some hd with ⟨rfl, ⟨⟩⟩ | hd
    · exact ⟨rfl, .inr (.inr ⟨row, now, k, x, rfl, hk, hx, rfl, hl⟩)⟩
    · exact ⟨rfl, .inl hd⟩
  case editDetails t e vc vc' hv hd' hh =>
    rcases State.show_details_eq_some hd with ⟨rfl, ⟨⟩⟩ | hd
    · exact ⟨rfl, .inr (.inl ⟨vc, e, hd', rfl, hh⟩)⟩
    · exact ⟨rfl, .inl hd⟩
  case selectTab t list hp ht hl =>
    rcases State.show_details_eq_some hd with ⟨rfl, hd⟩ | hd <;> exact ⟨rfl, .inl hd⟩
  case popToRoot | deleteRow | cancel | found =>
    rcases State.show_details_eq_some hd with ⟨rfl, ⟨⟩⟩ | hd
    exact ⟨rfl, .inl hd⟩
  case save hu =>
    cases hu
    case reloaded => cases t <;> simp [State.fresh, State.details] at hd
    all_goals
      rcases State.show_details_eq_some hd with ⟨rfl, ⟨⟩⟩ | hd
      exact ⟨rfl, .inl hd⟩
  all_goals exact ⟨rfl, .inl hd⟩

-- Where the form of a new item comes from.
theorem Transition.newItem_origin (h : Transition s e s') (hp : .addItem vc' ∈ s'.presented) :
    s'.auth.currentUser = s.auth.currentUser ∧ (
      .addItem vc' ∈ s.presented ∨
      (∃ vc fe, .addItem vc ∈ s.presented ∧ e = .form .presented fe ∧ vc.handle s.auth fe = .ok vc') ∨
      ∃ t now, e = .tapAdd t now ∧ s.visible = .list t ∧
        (s.list t).rightBarButtonItems.contains .add ∧
        ({ isLostItem := !t.showsFound } : AddItemTableViewController).viewDidLoad
          s.realm s.auth now = .ok vc') := by
  cases h
  case reset => simp [State.fresh] at hp
  case tapAdd t now vc hv hb hl =>
    obtain rfl : vc' = vc := by simpa using hp
    exact ⟨rfl, .inr (.inr ⟨t, now, rfl, hv, hb, hl⟩)⟩
  case openSession t p hv hf he hb =>
    obtain rfl : .addItem vc' = p := by simpa using hp
    simp [Presented.form?] at hf
  case editCredential p p' ps hs hf hf' hb =>
    rcases List.mem_cons.mp hp with rfl | hp
    · simp [Presented.form?] at hf'
    · exact ⟨rfl, .inl (hs ▸ List.mem_cons_of_mem _ hp)⟩
  case switchForm p p' ps hs hf hf' hb =>
    rcases List.mem_cons.mp hp with rfl | hp
    · simp [Presented.form?] at hf'
    · exact ⟨rfl, .inl (hs ▸ hp)⟩
  case editNew e vc vc'' ps hs hh =>
    rcases List.mem_cons.mp hp with he | hp
    · cases he
      exact ⟨rfl, .inr (.inl ⟨vc, e, by simp [hs], rfl, hh⟩)⟩
    · exact ⟨rfl, .inl (hs ▸ List.mem_cons_of_mem _ hp)⟩
  case save hu => cases hu <;> simp [State.show, State.fresh] at hp
  all_goals first | exact ⟨rfl, .inl hp⟩ | simp [State.show] at hp

namespace State

omit [Unicode] in
theorem fresh_showsButtons {auth : Auth} (hl : ((fresh realm auth).list t).isViewLoaded) :
    ((fresh realm auth).list t).ShowsButtons auth := by
  cases t
  case lost  =>
    exact (ItemsTableViewController.load_showsButtons realm auth _).congr rfl rfl
  case found => simp [fresh, list, ItemsTableViewController.instantiate] at hl

omit [Unicode] in
-- If the list that is shown keeps its buttons or chooses them anew, then so do all of them.
theorem show_buttons (hn : nav.list.ShowsButtons s.auth ∨
      (nav.list.isViewLoaded → (s.list t).isViewLoaded) ∧
        nav.list.leftBarButtonItems = (s.list t).leftBarButtonItems ∧
        nav.list.rightBarButtonItems = (s.list t).rightBarButtonItems)
    (hl : ((s.show t nav realm).list u).isViewLoaded) :
    ((s.show t nav realm).list u).ShowsButtons s.auth ∨
      s.auth.currentUser = s.auth.currentUser ∧ (s.list u).isViewLoaded ∧
        ((s.show t nav realm).list u).leftBarButtonItems = (s.list u).leftBarButtonItems ∧
        ((s.show t nav realm).list u).rightBarButtonItems = (s.list u).rightBarButtonItems := by
  rw [show_list] at hl ⊢
  split_ifs at hl ⊢ with hu
  · subst hu
    rcases hn with hn | ⟨hv, hb⟩
    · exact .inl hn
    · exact .inr ⟨rfl, hv hl, hb⟩
  · exact .inr ⟨rfl, hl, rfl, rfl⟩

end State

-- The buttons of a list were chosen in this session.
theorem Transition.buttons_origin (h : Transition s e s') (hl : (s'.list t).isViewLoaded) :
    (s'.list t).ShowsButtons s'.auth ∨
      s'.auth.currentUser = s.auth.currentUser ∧ (s.list t).isViewLoaded ∧
        (s'.list t).leftBarButtonItems = (s.list t).leftBarButtonItems ∧
        (s'.list t).rightBarButtonItems = (s.list t).rightBarButtonItems := by
  cases h
  case reset => exact .inl (State.fresh_showsButtons hl)
  case popToRoot | selectRow | deleteRow | editDetails =>
    refine State.show_buttons ?_ hl
    exact .inr ⟨id, rfl, rfl⟩
  case selectTab u list hp ht hl' =>
    refine State.show_buttons ?_ hl
    split at hl' <;> subst hl'
    case isTrue hv =>
      refine .inr ⟨fun _ => hv, ?_⟩
      dsimp only
      split <;> exact ⟨rfl, rfl⟩
    case isFalse   =>
      have hb := ItemsTableViewController.load_showsButtons s.realm s.auth (s.list u)
      refine .inl ?_
      dsimp only
      split <;> exact hb.congr rfl rfl
  case save hu =>
    cases hu
    case reloaded => exact .inl (State.fresh_showsButtons hl)
    all_goals
      refine State.show_buttons (.inl ?_) hl
      exact (ItemsTableViewController.showButtons_showsButtons s.auth _).congr rfl rfl
  case cancel | found =>
    refine State.show_buttons (.inl ?_) hl
    exact (ItemsTableViewController.showButtons_showsButtons s.auth _).congr rfl rfl
  all_goals exact .inr ⟨rfl, hl, rfl, rfl⟩

-- A details screen is opened for an item.
theorem Step.selectRow {row : Nat} {now : Date} (h : Step s (.selectRow t row now) s')
    (hk : (s.list t).items[row]? = some k) (hx : s.realm.find? k = some x) :
    ∃ vc, s'.details t = some vc ∧ s'.auth = s.auth ∧
      ({ isLostItem := !x.found, item := some (.managed k) } :
        AddItemTableViewController).viewDidLoad s.realm s.auth now = .ok vc := by
  cases h.transition
  case reset hr       => simp [Event.resets] at hr
  case openSession he => simp at he
  case selectRow j z vc hz hv hj hl =>
    obtain rfl : k = j := by simpa [hk] using hj
    obtain rfl : x = z := by simpa [hx] using hz
    exact ⟨vc, by simp [State.show_details], rfl, hl⟩

omit [Unicode] in
theorem State.FormAt.unique {source : Screen} {d : Destination} (h : s.FormAt source d vc t)
    (h' : s.FormAt source d vc' u) : vc' = vc := by
  cases h <;> cases h' <;> simp_all

end LosTrouvee.Execution
