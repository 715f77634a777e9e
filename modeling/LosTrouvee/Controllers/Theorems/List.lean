import LosTrouvee.Controllers.ItemsTableViewController

namespace LosTrouvee

namespace Tab

-- Whether the items of the tab are the found ones.
def showsFound : Tab → Bool
  | lost  => false
  | found => true

end Tab

namespace ItemsTableViewController

variable {list : ItemsTableViewController} {auth : Auth} {realm : Realm} {k : Key} {t : Tab}
  {row : Nat} {x y : Item Place Contact} {unwound : Unwound}

-- The bar buttons that go with a session.
def showButtons (auth : Auth) (list : ItemsTableViewController) : ItemsTableViewController :=
  match auth.email with
  | none   => { list with leftBarButtonItems := [.login, .register], rightBarButtonItems := [] }
  | some _ => { list with leftBarButtonItems := [.logout], rightBarButtonItems := [.add] }

-- Every user has an email, so printing it is safe.
theorem updateBarButtons_eq : list.updateBarButtons auth = .ok (list.showButtons auth) := by
  cases hu : auth.currentUser
  case none      => simp [updateBarButtons, showButtons, Auth.email, hu]
  case some user =>
    obtain ⟨_, he⟩ := Option.isSome_iff_exists.mp (auth.hasEmail hu)
    simp [updateBarButtons, showButtons, Auth.email, hu, he]

structure ShowsButtons (auth : Auth) (list : ItemsTableViewController) : Prop where
  signedOut : auth.currentUser = none →
    list.leftBarButtonItems = [.login, .register] ∧ list.rightBarButtonItems = []
  signedIn  : auth.currentUser.isSome →
    list.leftBarButtonItems = [.logout] ∧ list.rightBarButtonItems = [.add]

theorem ShowsButtons.congr {list' : ItemsTableViewController} (h : list.ShowsButtons auth)
    (hl : list'.leftBarButtonItems = list.leftBarButtonItems)
    (hr : list'.rightBarButtonItems = list.rightBarButtonItems) : list'.ShowsButtons auth where
  signedOut := by rw [hl, hr]; exact h.signedOut
  signedIn  := by rw [hl, hr]; exact h.signedIn

theorem showButtons_showsButtons (auth : Auth) (list : ItemsTableViewController) :
    (list.showButtons auth).ShowsButtons auth := by
  cases he : auth.email
  case none   =>
    have hu := Auth.email_eq_none_iff.mp he
    constructor <;> simp [showButtons, he, hu]
  case some e =>
    have hu := Auth.email_eq_some_iff.mp he
    constructor <;> simp [showButtons, he, hu]

theorem showButtons_eq (auth : Auth) (list : ItemsTableViewController) :
    list.showButtons auth = { list with
      leftBarButtonItems  := (list.showButtons auth).leftBarButtonItems
      rightBarButtonItems := (list.showButtons auth).rightBarButtonItems } := by
  unfold showButtons
  split <;> rfl

@[simp]
theorem showButtons_title : (list.showButtons auth).title = list.title := by
  rw [showButtons_eq]

@[simp]
theorem showButtons_items : (list.showButtons auth).items = list.items := by
  rw [showButtons_eq]

@[simp]
theorem showButtons_isLostList : (list.showButtons auth).isLostList = list.isLostList := by
  rw [showButtons_eq]

@[simp]
theorem showButtons_tableView : (list.showButtons auth).tableView = list.tableView := by
  rw [showButtons_eq]

@[simp]
theorem showButtons_isViewLoaded : (list.showButtons auth).isViewLoaded = list.isViewLoaded := by
  rw [showButtons_eq]

-- Only the selection is gone when the table appears.

@[simp]
theorem viewWillAppear_title : list.viewWillAppear.title = list.title :=
  rfl

@[simp]
theorem viewWillAppear_items : list.viewWillAppear.items = list.items :=
  rfl

@[simp]
theorem viewWillAppear_isLostList : list.viewWillAppear.isLostList = list.isLostList :=
  rfl

@[simp]
theorem viewWillAppear_isViewLoaded : list.viewWillAppear.isViewLoaded = list.isViewLoaded :=
  rfl

@[simp]
theorem viewWillAppear_selected : list.viewWillAppear.tableView.indexPathForSelectedRow = none :=
  rfl

-- The list of a tab after `viewDidLoad`.
def load (realm : Realm) (auth : Auth) (list : ItemsTableViewController) :
    ItemsTableViewController :=
  let isLostList := list.title == "Lost items"
  let items := realm.objects.filter (isListed realm isLostList)
  { { list with isLostList, items, isViewLoaded := true }.showButtons auth with
    tableView := list.tableView.reloadData items.length }

theorem viewDidLoad_eq : list.viewDidLoad realm auth = .ok (list.load realm auth) := by
  simp [viewDidLoad, updateBarButtons_eq, load, bind, Except.bind, pure, Except.pure]

theorem load_isViewLoaded (realm : Realm) (auth : Auth) (list : ItemsTableViewController) :
    (list.load realm auth).isViewLoaded := by
  simp [load]

theorem load_isLostList (ht : list.title = t.title) :
    (list.load realm auth).isLostList = !t.showsFound := by
  cases t <;> simp [load, ht, Tab.title, Tab.showsFound]

theorem mem_load_items_iff (ht : list.title = t.title) :
    k ∈ (list.load realm auth).items ↔ ∃ x, realm.find? k = some x ∧ x.found = t.showsFound := by
  simp only [load, showButtons_items, List.mem_filter, Realm.mem_objects_iff, isListed, ht]
  cases t <;> cases realm.find? k <;> simp [Tab.title, Tab.showsFound]

theorem load_showsButtons (realm : Realm) (auth : Auth) (list : ItemsTableViewController) :
    (list.load realm auth).ShowsButtons auth := by
  have ⟨ho, hi⟩ := showButtons_showsButtons auth
    { list with
      isLostList   := list.title == "Lost items"
      items        := realm.objects.filter (isListed realm (list.title == "Lost items"))
      isViewLoaded := true }
  exact ⟨ho, hi⟩

theorem load_items_nodup : (list.load realm auth).items.Nodup := by
  simpa [load] using realm.objects_nodup.filter _

-- Only the user that has posted an item can edit its row.
theorem canEditRowAt_eq (hk : list.items[row]? = some k) (hx : realm.find? k = some x) :
    list.canEditRowAt realm auth row = .ok (auth.email == some x.userEmail) := by
  cases hu : auth.currentUser
  case none      => simp [canEditRowAt, hu, Auth.email_eq_none_iff.mpr hu, pure, Except.pure]
  case some user =>
    have hr := Realm.read_eq_ok.mpr hx
    simp [canEditRowAt, hu, element, hk, hr, Auth.isCurrentUser_eq_ok, bind, Except.bind]

-- The identifier under which a list asks for its cells.
def cellIdentifier (list : ItemsTableViewController) : String :=
  if list.isLostList then "LostItemCellIdentifier" else "FoundItemCellIdentifier"

theorem cellIdentifier_eq (h : list.isLostList = !t.showsFound) :
    list.cellIdentifier = t.reuseIdentifier := by
  rw [cellIdentifier, h]
  cases t <;> rfl

-- What can go wrong when the row of an item is drawn.
inductive CellFailure (list : ItemsTableViewController) (x : Item Place Contact) : Trap → Prop
  | identifier :
    list.cellIdentifier ∉ list.tableView.reuseIdentifiers →
    CellFailure list x .unregisteredIdentifier
  | place :
    x.place = none → CellFailure list x .unexpectedNil

theorem CellFailure.congr {list' : ItemsTableViewController} {tr : Trap}
    (h : list'.CellFailure x tr) (hf : list'.isLostList = list.isLostList)
    (hr : list'.tableView.reuseIdentifiers = list.tableView.reuseIdentifiers) :
    list.CellFailure x tr := by
  cases h
  case identifier h => exact .identifier (by simpa [cellIdentifier, hf, hr] using h)
  case place h      => exact .place h

section

variable [Unicode]

theorem cellForRowAt_eq_error {tr : Trap} (hk : list.items[row]? = some k)
    (hx : realm.find? k = some x) (h : list.cellForRowAt realm row = .error tr) :
    list.CellFailure x tr := by
  have he : element list.items row = .ok k := element_eq_ok.mpr hk
  have hr : realm.read k = .ok x := Realm.read_eq_ok.mpr hx
  rw [cellForRowAt, he] at h
  split at h
  all_goals
    simp only [bind_eq_error, Except.ok.injEq, exists_eq_left', reduceCtorEq, false_or, hr,
      UITableView.dequeueReusableCell_eq_error, ItemTableViewCell.update_eq_error_iff] at h
    rcases h with ⟨hi, rfl⟩ | ⟨_, -, hp, rfl⟩
    · exact .identifier (by simp_all [cellIdentifier])
    · exact .place hp

-- The three ways in which a list takes in the item of a form.
inductive Saves (list : ItemsTableViewController) (realm : Realm) (y : Item Place Contact) :
    Unwound → Prop
  | replaced {row old x} :
    list.tableView.indexPathForSelectedRow = some row → list.items[row]? = some old →
    realm.find? old = some x →
    Saves list realm y {
      list  := { list with items := list.items.set row realm.items.nextKey }
      realm := (realm.erase old).insert y }
  | inserted {tableView} :
    list.tableView.indexPathForSelectedRow = none → list.isLostList → y.found = false →
    list.tableView.insertRow list.items.length (list.items.length + 1) = .ok tableView →
    Saves list realm y {
      list  := { list with items := list.items ++ [realm.items.nextKey], tableView }
      realm := realm.insert y }
  | reloaded {list'} :
    list.tableView.indexPathForSelectedRow = none → (list.isLostList → y.found) →
    Saves list realm y { list := list', realm := realm.insert y, replacesRoot := true }

theorem unwindToItemList_save
    (h : list.unwindToItemList .saveUnwind (some (.unmanaged y)) realm auth = .ok unwound) :
    Saves (list.showButtons auth) realm y unwound := by
  simp only [unwindToItemList, updateBarButtons_eq, bind_eq_ok, Except.ok.injEq, exists_eq_left']
    at h
  split at h
  case h_1 row hr =>
    simp only [updatedItem, bind_eq_ok, element_eq_ok, Realm.delete_eq_ok, pure_eq_ok, Prod.exists,
      Realm.add_unmanaged_eq_ok] at h
    obtain ⟨old, ho, _, ⟨_, x, ⟨⟩, hx, rfl⟩, _, _, ⟨rfl, rfl⟩, table, ht, _, -, rfl⟩ := h
    obtain ⟨rfl, -⟩ := UITableView.reloadRow_spec ht
    exact .replaced hr ho hx
  case h_2 hr =>
    simp only [addedItem, bind_eq_ok, Realm.add_unmanaged_eq_ok, Prod.exists, Realm.read_eq_ok] at h
    obtain ⟨_, _, ⟨rfl, rfl⟩, z, hz, h⟩ := h
    have hy : y = z := by simpa [Realm.find?_insert] using hz
    subst hy
    split at h
    case isTrue hl =>
      simp only [Bool.and_eq_true, Bool.not_eq_true'] at hl
      simp only [bind_eq_ok, pure_eq_ok] at h
      obtain ⟨table, ht, _, -, rfl⟩ := h
      exact .inserted hr hl.left hl.right (by simpa using ht)
    case isFalse hl =>
      simp only [pure_eq_ok] at h
      subst h
      exact .reloaded hr (by simpa using hl)

theorem unwindToItemList_found {item : ItemObject}
    (h : list.unwindToItemList .foundUnwind (some item) realm auth = .ok unwound) :
    ∃ k x row tableView, item = .managed k ∧ realm.find? k = some x ∧
      list.tableView.indexPathForSelectedRow = some row ∧ row < list.items.length ∧
      list.tableView.deleteRow row (list.items.eraseIdx row).length = .ok tableView ∧
      unwound = {
        list  := { list.showButtons auth with items := list.items.eraseIdx row, tableView }
        realm := realm.erase k } := by
  simp only [unwindToItemList, updateBarButtons_eq, bind_eq_ok, Except.ok.injEq, exists_eq_left',
    foundItem, Realm.delete_eq_ok, unwrap_eq_ok, element_eq_ok, pure_eq_ok, showButtons_items,
    showButtons_tableView] at h
  grind

theorem unwindToItemList_cancel {segue : Segue} {item : Option ItemObject}
    (hs : segue ≠ .saveUnwind) (hf : segue = .foundUnwind → item = none) :
    list.unwindToItemList segue item realm auth = .ok { list := list.showButtons auth, realm } := by
  simp only [unwindToItemList, updateBarButtons_eq]
  cases segue <;> simp_all

end

end ItemsTableViewController
end LosTrouvee
