import LosTrouvee.Execution.Theorems.Transition

namespace LosTrouvee

namespace ItemsTableViewController

-- A list that agrees with its own table and whose items are objects of the Realm.
structure Coherent (realm : Realm) (t : Tab) (list : ItemsTableViewController) : Prop where
  title    : list.title = t.title
  cells    : list.tableView.reuseIdentifiers = [t.reuseIdentifier]
  rows     : list.tableView.numberOfRows = list.items.length
  nodup    : list.items.Nodup
  stored   : ∀ k ∈ list.items, (realm.find? k).isSome
  unloaded : list.isViewLoaded = false → list.items = []

variable {realm : Realm} {auth : Auth} {t : Tab} {list list' : ItemsTableViewController}
  {row : Nat} {k : Key} {x y : Item Place Contact} {tableView : UITableView}

theorem instantiate_coherent (realm : Realm) (t : Tab) : (instantiate t).Coherent realm t := by
  constructor <;> simp [instantiate]

theorem load_coherent (ht : list.title = t.title)
    (hc : list.tableView.reuseIdentifiers = [t.reuseIdentifier]) :
    (list.load realm auth).Coherent realm t where
  title    := by simpa [load] using ht
  cells    := hc
  rows     := by simp [load, UITableView.reloadData]
  nodup    := load_items_nodup
  stored   := by
    intro k hk
    obtain ⟨x, hx, _⟩ := (mem_load_items_iff ht).mp hk
    simp [hx]
  unloaded := by simp [load]

namespace Coherent

-- Neither the flag, nor the buttons, nor the selection matter.
theorem congr (h : list.Coherent realm t) (ht : list'.title = list.title)
    (hi : list'.items = list.items)
    (hc : list'.tableView.reuseIdentifiers = list.tableView.reuseIdentifiers)
    (hr : list'.tableView.numberOfRows = list.tableView.numberOfRows)
    (hl : list'.isViewLoaded = list.isViewLoaded) : list'.Coherent realm t where
  title    := ht.trans h.title
  cells    := hc.trans h.cells
  rows     := by rw [hr, hi, h.rows]
  nodup    := hi ▸ h.nodup
  stored   := hi ▸ h.stored
  unloaded := by rw [hl, hi]; exact h.unloaded

theorem viewWillAppear (h : list.Coherent realm t) : list.viewWillAppear.Coherent realm t :=
  h.congr rfl rfl rfl rfl rfl

theorem prepared (h : list.Coherent realm t) (auth : Auth) (b : Bool) :
    ({ list with isLostList := b }.showButtons auth).Coherent realm t := by
  apply h.congr <;> simp

theorem isSome_of_getElem? (h : list.Coherent realm t) (hk : list.items[row]? = some k) :
    list.isViewLoaded := by
  by_contra hl
  have hn := h.unloaded (by simpa using hl)
  simp [hn] at hk

theorem nextKey_notMem (h : list.Coherent realm t) : realm.items.nextKey ∉ list.items := by
  intro hk
  have hs := h.stored _ hk
  simp [Realm.find?_nextKey] at hs

theorem erase (h : list.Coherent realm t) (hk : list.items[row]? = some k)
    (ht : list.tableView.deleteRow row (list.items.eraseIdx row).length = .ok tableView) :
    { list with items := list.items.eraseIdx row, tableView }.Coherent (realm.erase k) t where
  title    := h.title
  cells    := (UITableView.deleteRow_spec ht).right.left.trans h.cells
  rows     := (UITableView.deleteRow_spec ht).left
  nodup    := h.nodup.eraseIdx row
  stored   := by
    intro j hj
    have ⟨hj, hne⟩ := (h.nodup.mem_eraseIdx_iff hk).mp hj
    rw [Realm.find?_erase_of_ne hne]
    exact h.stored j hj
  unloaded := by simp [h.isSome_of_getElem? hk]

theorem append (h : list.Coherent realm t) (hl : list.isViewLoaded)
    (ht : list.tableView.insertRow list.items.length (list.items.length + 1) = .ok tableView) :
    { list with items := list.items ++ [realm.items.nextKey], tableView }.Coherent
      (realm.insert y) t
    where
  title    := h.title
  cells    := (UITableView.insertRow_spec ht).right.left.trans h.cells
  rows     := by simp [UITableView.insertRow_spec ht]
  nodup    := by
    have hn : ∀ k ∈ list.items, k ≠ realm.items.nextKey := fun k hk he => h.nextKey_notMem (he ▸ hk)
    simpa [List.nodup_append, h.nodup] using hn
  stored   := by
    intro k hk
    rcases List.mem_append.mp hk with hk | hk
    · rw [Realm.find?_insert_of_isSome y (h.stored k hk)]
      exact h.stored k hk
    · simp [List.mem_singleton.mp hk, Realm.find?_insert]
  unloaded := by simp [hl]

theorem replace (h : list.Coherent realm t) (hk : list.items[row]? = some k) :
    { list with items := list.items.set row realm.items.nextKey }.Coherent
      ((realm.erase k).insert y) t where
  title    := h.title
  cells    := h.cells
  rows     := by simp [h.rows]
  nodup    := h.nodup.set h.nextKey_notMem
  stored   := by
    intro j hj
    rcases (h.nodup.mem_set_iff hk).mp hj with rfl | ⟨hj, hne⟩
    · simp [Realm.find?_insert]
    · have hs := h.stored j hj
      rw [← Realm.find?_erase_of_ne hne] at hs
      rwa [Realm.find?_insert_of_isSome y hs]
  unloaded := by simp [h.isSome_of_getElem? hk]

end Coherent
end ItemsTableViewController

namespace Execution

namespace NavigationController

-- A details screen was opened for the item of the selected row.
inductive Opened (realm : Realm) (list : ItemsTableViewController)
    (vc : AddItemTableViewController) : Prop
  | intro {row k x} :
    list.tableView.indexPathForSelectedRow = some row → list.items[row]? = some k →
    vc.item = some (.managed k) → realm.find? k = some x → vc.isLostItem = !x.found →
    Opened realm list vc

structure Coherent (realm : Realm) (t : Tab) (nav : NavigationController) : Prop where
  list   : nav.list.Coherent realm t
  idle   : nav.details = none → nav.list.tableView.indexPathForSelectedRow = none
  opened : ∀ {vc}, nav.details = some vc → Opened realm nav.list vc

variable {realm realm' : Realm} {t : Tab} {nav : NavigationController}
  {list : ItemsTableViewController}

theorem root_coherent (h : list.Coherent realm t) :
    Coherent realm t { list := list.viewWillAppear } where
  list   := h.viewWillAppear
  idle _ := rfl
  opened := by simp

theorem Opened.congr {vc vc' : AddItemTableViewController} (h : Opened realm list vc)
    (hi : vc'.item = vc.item) (hl : vc'.isLostItem = vc.isLostItem) : Opened realm list vc' := by
  have ⟨hr, hk, hv, hx, hf⟩ := h
  exact ⟨hr, hk, hi.trans hv, hx, hl.trans hf⟩

theorem Opened.isNone {vc : AddItemTableViewController} (h : Opened realm list vc) :
    vc.item.isNone = false := by
  obtain ⟨_, _, hv, _, _⟩ := h
  simp [hv]

theorem Opened.getElem? {vc : AddItemTableViewController} {k : Key} {row : Nat}
    (h : Opened realm list vc) (hv : vc.item = some (.managed k))
    (hr : list.tableView.indexPathForSelectedRow = some row) : list.items[row]? = some k := by
  have ⟨hr', hk, hv', _, _⟩ := h
  simp_all

theorem Opened.find? {vc : AddItemTableViewController} {k : Key} (h : Opened realm list vc)
    (hv : vc.item = some (.managed k)) :
    ∃ x, realm.find? k = some x ∧ vc.isLostItem = !x.found := by
  obtain ⟨_, _, hv', hx, hf⟩ := h
  obtain ⟨⟩ := hv.symm.trans hv'
  exact ⟨_, hx, hf⟩

-- Objects that are not in the list do not matter.
theorem Coherent.of_find?_eq (h : nav.Coherent realm t)
    (hr : ∀ k ∈ nav.list.items, realm'.find? k = realm.find? k) : nav.Coherent realm' t where
  list   := { h.list with stored := fun k hk => hr k hk ▸ h.list.stored k hk }
  idle   := h.idle
  opened := by
    intro vc hv
    have ⟨hs, hk, hi, hx, hf⟩ := h.opened hv
    exact ⟨hs, hk, hi, (hr _ (List.mem_of_getElem? hk)).trans hx, hf⟩

end NavigationController

namespace State

-- What holds in every state, whatever the Realm was at launch: the lists are apart, the screens
-- over a list know which one it is, and an item is found if it is on the second list.
structure Coherent (s : State) : Prop where
  nav      : ∀ t, (s.navs t).Coherent s.realm t
  disjoint : ∀ {t u k}, t ≠ u → k ∈ (s.list t).items → k ∉ (s.list u).items
  first    : (s.list .lost).isViewLoaded
  selected : (s.list s.selectedTab).isViewLoaded
  found    : ∀ {k x}, k ∈ (s.list .found).items → s.realm.find? k = some x → x.found
  lost     : (s.list .found).isViewLoaded = false →
    ∀ {k x}, k ∈ (s.list .lost).items → s.realm.find? k = some x → x.found = false
  covered  : s.presented ≠ [] → s.details s.selectedTab = none
  opener   : ∀ p ∈ s.presented, p.fromLostList = !s.selectedTab.showsFound
  newItem  : ∀ p ∈ s.presented, ∀ {vc}, p.form? = some vc → vc.item = none

variable {s : State} {t u : Tab} {nav : NavigationController} {realm : Realm} {k : Key}
  {x y : Item Place Contact}

theorem Coherent.list (h : s.Coherent) (t : Tab) : (s.list t).Coherent s.realm t :=
  (h.nav t).list

theorem fresh_coherent (realm : Realm) (auth : Auth) : (fresh realm auth).Coherent where
  nav
    | .lost  => NavigationController.root_coherent <|
      ItemsTableViewController.load_coherent rfl rfl
    | .found => {
      list   := ItemsTableViewController.instantiate_coherent realm .found
      idle _ := rfl
      opened := by simp [fresh] }
  disjoint := by
    intro t u k h hk
    cases t <;> cases u <;> simp_all [list, fresh, ItemsTableViewController.instantiate]
  first    := by simp [list, fresh, ItemsTableViewController.load]
  selected := by simp [list, fresh, ItemsTableViewController.load]
  found    := by simp [list, fresh, ItemsTableViewController.instantiate]
  lost     := by
    intro _ k x hk hx
    obtain ⟨y, hy, hf⟩ := (ItemsTableViewController.mem_load_items_iff (t := .lost) rfl).mp hk
    simp_all [fresh, Tab.showsFound]
  covered  := by simp [fresh]
  opener   := by simp [fresh]
  newItem  := by simp [fresh]

-- The part of a state below the screens that are presented decides most of it.
theorem Coherent.present (h : s.Coherent) {ps : List Presented}
    (hc : ps ≠ [] → s.details s.selectedTab = none)
    (ho : ∀ p ∈ ps, p.fromLostList = !s.selectedTab.showsFound)
    (hn : ∀ p ∈ ps, ∀ {vc}, p.form? = some vc → vc.item = none) :
    { s with presented := ps }.Coherent :=
  { h with covered := hc, opener := ho, newItem := hn }

-- A screen is presented that knows as much as one of those that are presented already.
theorem Coherent.present_cons (h : s.Coherent) {p p' : Presented} {ps : List Presented}
    (hp : p ∈ s.presented) (hs : ps ⊆ s.presented) (hf : p'.fromLostList = p.fromLostList)
    (hn : ∀ {vc}, p'.form? = some vc → vc.item = none) :
    { s with presented := p' :: ps }.Coherent :=
  h.present (fun _ => h.covered (List.ne_nil_of_mem hp))
    (List.forall_mem_cons.mpr ⟨hf.trans (h.opener p hp), fun q hq => h.opener q (hs hq)⟩)
    (List.forall_mem_cons.mpr ⟨hn, fun q hq => h.newItem q (hs hq)⟩)

theorem show_list_of_ne (h : u ≠ t) : (s.show t nav realm).list u = s.list u := by
  simp [State.show, list, setNav, Function.update_of_ne h]

@[simp]
theorem show_list_self : (s.show t nav realm).list t = nav.list := by
  simp [State.show, list, setNav]

theorem Coherent.show (h : s.Coherent) (hn : nav.Coherent realm t) (hv : nav.list.isViewLoaded)
    (ho : ∀ {u k}, u ≠ t → k ∈ (s.list u).items →
      realm.find? k = s.realm.find? k ∧ k ∉ nav.list.items)
    (hk : ∀ {k x}, (t = .lost → (s.list .found).isViewLoaded = false) → k ∈ nav.list.items →
      realm.find? k = some x → x.found = t.showsFound) : (s.show t nav realm).Coherent where
  nav u := by
    by_cases hu : u = t
    case pos => subst hu; simpa [State.show, setNav] using hn
    case neg =>
      have he := (h.nav u).of_find?_eq fun k hk => (ho hu hk).left
      simpa [State.show, setNav, Function.update_of_ne hu] using he
  disjoint := by
    intro u v k huv hk
    by_cases hu : u = t
    case pos =>
      have hv : v ≠ t := hu ▸ huv.symm
      rw [show_list_of_ne hv]
      rw [hu, show_list_self] at hk
      exact fun hk' => (ho hv hk').right hk
    case neg =>
      rw [show_list_of_ne hu] at hk
      by_cases hv : v = t
      case pos => rw [hv, show_list_self]; exact (ho hu hk).right
      case neg => rw [show_list_of_ne hv]; exact h.disjoint huv hk
  first := by
    by_cases ht : Tab.lost = t
    case pos => rw [ht, show_list_self]; exact hv
    case neg => rw [show_list_of_ne ht]; exact h.first
  selected := by
    change ((s.show t nav realm).list t).isViewLoaded
    rwa [show_list_self]
  found := by
    intro k x hk' hx
    by_cases ht : Tab.found = t
    case pos =>
      rw [ht, show_list_self] at hk'
      exact (hk (by simp [← ht]) hk' hx).trans (by simp [← ht, Tab.showsFound])
    case neg =>
      rw [show_list_of_ne ht] at hk'
      exact h.found hk' ((ho ht hk').left ▸ hx)
  lost := by
    intro hl k x hk' hx
    by_cases ht : Tab.lost = t
    case pos =>
      rw [show_list_of_ne (by simp [← ht])] at hl
      rw [ht, show_list_self] at hk'
      exact (hk (fun _ => hl) hk' hx).trans (by simp [← ht, Tab.showsFound])
    case neg =>
      have ht : t = .found := by cases t <;> simp_all
      subst ht
      simp [hv] at hl
  covered := by simp [State.show]
  opener  := by simp [State.show]
  newItem := by simp [State.show]

-- The items of the second list are found, and so are the others once the second list is there.
theorem Coherent.kind (h : s.Coherent) (hl : t = .lost → (s.list .found).isViewLoaded = false)
    (hk : k ∈ (s.list t).items) (hx : s.realm.find? k = some x) : x.found = t.showsFound := by
  cases t
  case lost  => exact h.lost (hl rfl) hk hx
  case found => exact h.found hk hx

theorem Coherent.show_of_items_eq (h : s.Coherent) (hn : nav.Coherent s.realm t)
    (hv : nav.list.isViewLoaded) (hi : nav.list.items = (s.list t).items) :
    (s.show t nav s.realm).Coherent :=
  h.show hn hv (fun hu hk => ⟨rfl, hi ▸ h.disjoint hu hk⟩)
    fun hl hk hx => h.kind hl (hi ▸ hk) hx

theorem Coherent.ne_nextKey (h : s.Coherent) (hk : k ∈ (s.list t).items) :
    k ≠ s.realm.items.nextKey := by
  rintro rfl
  exact (h.list t).nextKey_notMem hk

-- The second list is loaded when its tab is shown for the first time.
theorem Coherent.show_load (h : s.Coherent) (hv : (s.list t).isViewLoaded = false) :
    let list := (s.list t).load s.realm s.auth
    (s.show t { s.navs t with list := if (s.details t).isNone then list.viewWillAppear else list }
      s.realm).Coherent := by
  intro list
  have hd : s.details t = none := by
    by_contra hd
    obtain ⟨vc, hd⟩ := Option.ne_none_iff_exists'.mp hd
    obtain ⟨_, hk, _, _, _⟩ := (h.nav t).opened hd
    have hn := (h.list t).unloaded hv
    simp_all [State.list]
  have hl : list.Coherent s.realm t :=
    ItemsTableViewController.load_coherent (h.list t).title (h.list t).cells
  have hm {k} : k ∈ list.items ↔ ∃ x, s.realm.find? k = some x ∧ x.found = t.showsFound :=
    ItemsTableViewController.mem_load_items_iff (h.list t).title
  simp only [hd, Option.isNone_none, if_true, navs_eq_of_details_eq_none hd]
  refine h.show (NavigationController.root_coherent hl) ?_ (fun {u j} hu hj => ⟨rfl, fun hj' => ?_⟩)
    fun {j x} hf hj hx => ?_
  · exact ItemsTableViewController.load_isViewLoaded ..
  · have ht : t = .found := by
      have hf := h.first
      cases t <;> simp_all
    obtain rfl : u = .lost := by cases u <;> simp_all
    subst ht
    obtain ⟨x, hx, hf⟩ := hm.mp hj'
    simp [h.lost hv hj hx, Tab.showsFound] at hf
  · obtain ⟨x', hx', hf⟩ := hm.mp hj
    obtain rfl : x = x' := by simpa [hx] using hx'
    exact hf

theorem Coherent.show_loaded (h : s.Coherent) (hv : (s.list t).isViewLoaded) :
    let list := s.list t
    (s.show t { s.navs t with list := if (s.details t).isNone then list.viewWillAppear else list }
      s.realm).Coherent := by
  intro list
  cases hd : s.details t
  case none    =>
    simp only [Option.isNone_none, if_true, navs_eq_of_details_eq_none hd]
    exact h.show_of_items_eq (NavigationController.root_coherent (h.list t)) hv rfl
  case some vc => exact h.show_of_items_eq (h.nav t) hv rfl

-- An item of a list is deleted there.
theorem Coherent.show_erase (h : s.Coherent) {row : Nat} {list : ItemsTableViewController}
    (hk : (s.list t).items[row]? = some k) (hl : list.Coherent (s.realm.erase k) t)
    (hv : list.isViewLoaded) (hi : list.items = (s.list t).items.eraseIdx row) :
    (s.show t { list := list.viewWillAppear } (s.realm.erase k)).Coherent := by
  refine h.show (NavigationController.root_coherent hl) hv (fun {u j} hu hj => ?_)
    fun hf hj hx => ?_
  · have hne : j ≠ k := by
      rintro rfl
      exact h.disjoint hu hj (List.mem_of_getElem? hk)
    refine ⟨Realm.find?_erase_of_ne hne, fun hj' => h.disjoint hu hj ?_⟩
    exact List.mem_of_mem_eraseIdx (hi ▸ hj')
  · have ⟨hj, hne⟩ := ((h.list t).nodup.mem_eraseIdx_iff hk).mp (hi ▸ hj)
    exact h.kind hf hj (Realm.find?_erase_of_ne hne ▸ hx)

-- An item is inserted and appended to a list.
theorem Coherent.show_append (h : s.Coherent) {list : ItemsTableViewController}
    (hl : list.Coherent (s.realm.insert y) t) (hv : list.isViewLoaded)
    (hi : list.items = (s.list t).items ++ [s.realm.items.nextKey])
    (hy : (t = .lost → (s.list .found).isViewLoaded = false) → y.found = t.showsFound) :
    (s.show t { list := list.viewWillAppear } (s.realm.insert y)).Coherent := by
  have hs {u j} (hj : j ∈ (s.list u).items) :
      (s.realm.insert y).find? j = s.realm.find? j :=
    Realm.find?_insert_of_isSome y ((h.list u).stored j hj)
  refine h.show (NavigationController.root_coherent hl) hv
    (fun {u j} hu hj => ⟨hs hj, fun hj' => ?_⟩) fun {j x} hf hj hx => ?_
  all_goals
    simp only [ItemsTableViewController.viewWillAppear_items, hi, List.mem_append,
      List.mem_singleton] at *
  · rcases hj' with hj' | hj'
    · exact h.disjoint hu hj hj'
    · exact h.ne_nextKey hj hj'
  · rcases hj with hj | rfl
    · exact h.kind hf hj (hs hj ▸ hx)
    · obtain rfl : y = x := by simpa [Realm.find?_insert] using hx
      exact hy hf

-- An item of a list is deleted and another one is inserted in its place.
theorem Coherent.show_replace (h : s.Coherent) {row : Nat} {list : ItemsTableViewController}
    (hk : (s.list t).items[row]? = some k) (hl : list.Coherent ((s.realm.erase k).insert y) t)
    (hv : list.isViewLoaded) (hi : list.items = (s.list t).items.set row s.realm.items.nextKey)
    (hy : (t = .lost → (s.list .found).isViewLoaded = false) → y.found = t.showsFound) :
    (s.show t { list := list.viewWillAppear } ((s.realm.erase k).insert y)).Coherent := by
  have hs {u j} (hne : j ≠ k) (hj : j ∈ (s.list u).items) :
      ((s.realm.erase k).insert y).find? j = s.realm.find? j := by
    have he := Realm.find?_erase_of_ne (r := s.realm) hne
    rw [Realm.find?_insert_of_isSome y (he ▸ (h.list u).stored j hj), he]
  have hm {j} := (h.list t).nodup.mem_set_iff (b := j) (c := s.realm.items.nextKey) hk
  refine h.show (NavigationController.root_coherent hl) hv (fun {u j} hu hj => ?_)
    fun {j x} hf hj hx => ?_
  · have hne : j ≠ k := by
      rintro rfl
      exact h.disjoint hu hj (List.mem_of_getElem? hk)
    refine ⟨hs hne hj, fun hj' => ?_⟩
    rcases hm.mp (hi ▸ hj') with hj' | ⟨hj', -⟩
    · exact h.ne_nextKey hj hj'
    · exact h.disjoint hu hj hj'
  · rcases hm.mp (hi ▸ hj) with rfl | ⟨hj, hne⟩
    · obtain rfl : y = x := by simpa [Realm.find?_insert] using hx
      exact hy hf
    · exact h.kind hf hj (hs hne hj ▸ hx)

theorem Coherent.leaves_isViewLoaded (h : s.Coherent) {source : Screen} {d : Destination} {b : Bool}
    (hl : s.Leaves source d b t) : (s.list t).isViewLoaded := by
  cases hl
  case details   => exact h.selected
  case presented => cases d; exacts [h.selected, h.first]

-- A form is for a new item, or it was opened for the item of the selected row.
theorem Coherent.formAt_item (h : s.Coherent) {source : Screen} {d : Destination}
    {vc : AddItemTableViewController} (ha : s.FormAt source d vc t) :
    source = .presented ∧ vc.item = none ∨
      source = .details t ∧ NavigationController.Opened s.realm (s.list t) vc := by
  cases ha
  case details hp hd   => exact .inr ⟨rfl, (h.nav _).opened hd⟩
  case presented ps hp => exact .inl ⟨rfl, h.newItem (.addItem vc) (by simp [hp]) rfl⟩

theorem Coherent.formAt_getElem? (h : s.Coherent) {source : Screen} {d : Destination} {row : Nat}
    {vc : AddItemTableViewController} (ha : s.FormAt source d vc t)
    (hi : vc.item = some (.managed k))
    (hr : (s.list t).tableView.indexPathForSelectedRow = some row) :
    (s.list t).items[row]? = some k := by
  rcases h.formAt_item ha with ⟨-, hn⟩ | ⟨-, ho⟩
  · simp [hi] at hn
  · exact ho.getElem? hi hr

-- A form saves an item of the kind that its list shows, unless it was opened from the second list
-- and returns to the first one.
theorem Coherent.formAt_kind (h : s.Coherent) {source : Screen} {d : Destination}
    {vc : AddItemTableViewController} (ha : s.FormAt source d vc t)
    (hl : t = .lost → (s.list .found).isViewLoaded = false) : (!vc.isLostItem) = t.showsFound := by
  cases ha
  case details hp hd =>
    have ⟨_, hk, _, hx, hf⟩ := (h.nav s.selectedTab).opened hd
    rw [hf, Bool.not_not]
    exact h.kind hl (List.mem_of_getElem? hk) hx
  case presented ps hp =>
    have ho : vc.isLostItem = !s.selectedTab.showsFound := h.opener (.addItem vc) (by simp [hp])
    cases d
    case opener   => simp [ho, destinationTab]
    case firstTab =>
      have ht : s.selectedTab = .lost := by
        have hn := hl rfl
        have hs := h.selected
        cases ht : s.selectedTab <;> simp_all
      simp [ho, ht, destinationTab]

end State

variable [Unicode] {s s' : State} {e : Event}

theorem Transition.coherent (h : Transition s e s') (hc : s.Coherent) : s'.Coherent := by
  cases h
  case reset    => exact State.fresh_coherent ..
  case submit   => exact { hc with }
  case fail     => exact { hc with }
  case popToRoot hp =>
    exact hc.show_of_items_eq (NavigationController.root_coherent (hc.list _)) hc.selected rfl
  case selectTab t list hp ht hl =>
    split at hl <;> subst hl
    case isTrue hv  => exact hc.show_loaded hv
    case isFalse hv => exact hc.show_load (by simpa using hv)
  case drawRow  => exact hc
  case selectRow t row now k x vc hv hk hx hl =>
    obtain ⟨_, _, ht⟩ := State.visible_eq_list_iff.mp hv
    obtain ⟨hi, hb, _⟩ := AddItemTableViewController.viewDidLoad_details_spec hl hx
    refine hc.show_of_items_eq ⟨?_, by simp, ?_⟩ (ht ▸ hc.selected) rfl
    · exact (hc.list t).congr rfl rfl rfl rfl rfl
    · rintro _ ⟨⟩
      exact ⟨rfl, hk, hi, hx, hb⟩
  case keepRow  => exact hc
  case deleteRow t row k x tableView hv hk hx hu ht =>
    obtain ⟨_, hd, hs⟩ := State.visible_eq_list_iff.mp hv
    have hi : tableView.indexPathForSelectedRow = none :=
      (UITableView.deleteRow_spec ht).right.right <| (hc.nav t).idle hd
    have hw : { s.list t with items := (s.list t).items.eraseIdx row, tableView } =
        { s.list t with
          items := (s.list t).items.eraseIdx row, tableView }.viewWillAppear := by
      simp [ItemsTableViewController.viewWillAppear, UITableView.clearSelection, ← hi]
    rw [hw]
    exact hc.show_erase hk ((hc.list t).erase hk ht) (hs ▸ hc.selected) rfl
  case tapAdd t now vc hv hb hl =>
    obtain ⟨_, hd, ht⟩ := State.visible_eq_list_iff.mp hv
    obtain ⟨hn, hb, _⟩ := AddItemTableViewController.viewDidLoad_new_spec hl
    exact hc.present (fun _ => ht ▸ hd) (by simpa [← ht, Presented.fromLostList] using hb)
      (by simpa [Presented.form?] using hn)
  case openSession t p hv hp hf he =>
    obtain ⟨_, hd, ht⟩ := State.visible_eq_list_iff.mp hv
    exact hc.present (fun _ => ht ▸ hd) (by simpa [← ht] using hf) (by simp [hp])
  case editCredential p p' ps hs hp hp' hf =>
    exact hc.present_cons (p := p) (by simp [hs]) (by simp [hs]) hf (by simp [hp'])
  case switchForm p p' ps hs hp hp' hf =>
    exact hc.present_cons (p := p) (by simp [hs]) (by simp [hs]) hf (by simp [hp'])
  case editDetails t e vc vc' hv hd hh =>
    obtain ⟨_, _, ht⟩ := State.visible_eq_details_iff.mp hv
    have hf := AddItemTableViewController.handle_frame hh
    have ho := ((hc.nav t).opened hd).congr hf.item hf.isLostItem
    refine hc.show_of_items_eq ⟨hc.list t, by simp, ?_⟩ (ht ▸ hc.selected) rfl
    rintro _ ⟨⟩
    exact ho
  case editNew e vc vc' ps hs hh =>
    have hf := AddItemTableViewController.handle_frame hh
    have hi : vc.item = none := hc.newItem (.addItem vc) (by simp [hs]) rfl
    exact hc.present_cons (p := .addItem vc) (by simp [hs]) (by simp [hs]) hf.isLostItem
      (by simpa [Presented.form?, hf.item] using hi)
  case cancel source segue d now b t hl hs hf =>
    have hp := (hc.list t).prepared s.auth b
    refine hc.show_of_items_eq (NavigationController.root_coherent hp) ?_ ?_
    · simpa using hc.leaves_isViewLoaded hl
    · simp [State.list]
  case save source d vc t now y unwound ha hb hy hu =>
    have hv := hc.leaves_isViewLoaded ha.leaves
    have hp := (hc.list t).prepared s.auth (vc.item.isNone || vc.isLostItem)
    obtain ⟨_, hk, _⟩ := AddItemTableViewController.newItem_spec hy
    have hk hl := hk.trans (hc.formAt_kind ha hl)
    cases hu
    case replaced row old x hr ho hx =>
      exact hc.show_replace (by simpa using ho) (hp.replace ho) (by simpa using hv)
        (by simp) hk
    case inserted tableView hr hl hf ht =>
      have hv : ({ s.list t with isLostList := vc.item.isNone || vc.isLostItem }.showButtons
          s.auth).isViewLoaded := by simpa using hv
      exact hc.show_append (hp.append hv ht) hv (by simp [State.list]) hk
    case reloaded => exact State.fresh_coherent ..
  case found source d vc t now k x row tableView ha hb hi hx hr hl ht =>
    have hk := hc.formAt_getElem? ha hi hr
    refine hc.show_erase hk (((hc.list t).erase hk ht).congr ?_ rfl rfl rfl ?_) ?_ rfl
    · simp
    · simp
    · simpa using hc.leaves_isViewLoaded ha.leaves

theorem app_coherent {start : Realm → Prop} (h : (app start).Reachable s) : s.Coherent := by
  have i : (app start).Invariant State.Coherent := {
    init h := by
      obtain ⟨_, _, _, rfl⟩ := app_init h
      exact State.fresh_coherent _ _
    step := fun _ hc hs => hs.transition.coherent hc }
  exact i.holds h

end Execution
end LosTrouvee
