import LosTrouvee.Execution.Theorems.Session

namespace LosTrouvee

namespace ItemsTableViewController

variable {realm : Realm} {auth : Auth} {t : Tab} {list : ItemsTableViewController} {row : Nat}
  {k : Key} {x y : Item Place Contact} {tr : Trap}

theorem Coherent.deleteRow_ok (h : list.Coherent realm t) (hr : row < list.items.length) :
    ∃ table, list.tableView.deleteRow row (list.items.eraseIdx row).length = .ok table := by
  have hl : (list.items.eraseIdx row).length + 1 = list.tableView.numberOfRows ∧
      row < list.tableView.numberOfRows := by
    rw [h.rows, List.length_eraseIdx_of_lt hr]
    omega
  exact ⟨_, if_pos hl⟩

theorem Coherent.insertRow_ok (h : list.Coherent realm t) :
    ∃ table, list.tableView.insertRow list.items.length (list.items.length + 1) = .ok table := by
  have hl : list.items.length + 1 = list.tableView.numberOfRows + 1 ∧
      list.items.length < list.items.length + 1 := by
    rw [h.rows]
    omega
  exact ⟨_, if_pos hl⟩

theorem Coherent.reloadRow_ok (h : list.Coherent realm t) (hr : row < list.items.length) :
    list.tableView.reloadRow row list.items.length = .ok list.tableView :=
  if_pos ⟨h.rows.symm, hr⟩

variable [Unicode]

-- The row that takes in the item of a form is drawn.
theorem Coherent.updatedItem_eq_error (h : list.Coherent realm t) (hk : list.items[row]? = some k)
    (he : list.updatedItem realm (.unmanaged y) row = .error tr) : list.CellFailure y tr := by
  have ⟨x, hx⟩ := Option.isSome_iff_exists.mp (h.stored k (List.mem_of_getElem? hk))
  have ⟨hr, _⟩ := List.getElem?_eq_some_iff.mp hk
  have h₁ : element list.items row = .ok k := element_eq_ok.mpr hk
  have h₂ : realm.delete (.managed k) = .ok (realm.erase k) :=
    Realm.delete_eq_ok.mpr ⟨k, x, rfl, hx, rfl⟩
  have h₃ : list.tableView.reloadRow row (list.items.set row realm.items.nextKey).length =
      .ok list.tableView := (h.replace (y := y) hk).reloadRow_ok (by simpa using hr)
  simp only [updatedItem, Realm.add, h₁, h₂, h₃, bind_eq_error, pure_ne_error, Except.ok.injEq,
    exists_eq_left', reduceCtorEq, false_or, Realm.erase_nextKey, and_false, exists_false, or_false]
    at he
  have hk' : (list.items.set row realm.items.nextKey)[row]? = some realm.items.nextKey := by
    simp [hr]
  have hx' : ((realm.erase k).insert y).find? realm.items.nextKey = some y := by
    simp [Realm.find?_insert]
  exact (cellForRowAt_eq_error hk' hx' he).congr rfl rfl

theorem Coherent.addedItem_eq_error (h : list.Coherent realm t)
    (he : list.addedItem realm (.unmanaged y) = .error tr) :
    list.isLostList ∧ y.found = false ∧ list.CellFailure y tr := by
  have ⟨table, ht⟩ := h.insertRow_ok
  have h₁ : (realm.insert y).read realm.items.nextKey = .ok y := by simp [Realm.find?_insert]
  have h₂ : list.tableView.insertRow list.items.length
      (list.items ++ [realm.items.nextKey]).length = .ok table := by simpa using ht
  simp only [addedItem, Realm.add, h₁, bind_eq_error, Except.ok.injEq, exists_eq_left',
    reduceCtorEq, false_or] at he
  split at he
  case isFalse => simp at he
  case isTrue hl =>
    simp only [h₂, bind_eq_error, Except.ok.injEq, exists_eq_left', reduceCtorEq, false_or,
      pure_ne_error, and_false, exists_false, or_false] at he
    have hk : (list.items ++ [realm.items.nextKey])[list.items.length]? =
        some realm.items.nextKey := by simp
    have hf := cellForRowAt_eq_error hk (Realm.read_eq_ok.mp h₁) he
    simp only [Bool.and_eq_true, Bool.not_eq_true'] at hl
    exact ⟨hl.left, hl.right, hf.congr rfl (UITableView.insertRow_spec ht).right.left⟩

theorem Coherent.unwindToItemList_eq_error (h : list.Coherent realm t)
    (hs : ∀ row, list.tableView.indexPathForSelectedRow = some row → ∃ k, list.items[row]? = some k)
    (he : list.unwindToItemList .saveUnwind (some (.unmanaged y)) realm auth = .error tr) :
    (list.tableView.indexPathForSelectedRow = none → list.isLostList ∧ y.found = false) ∧
      list.CellFailure y tr := by
  have hb : (list.showButtons auth).Coherent realm t := by
    apply h.congr <;> simp
  simp only [unwindToItemList, updateBarButtons_eq, showButtons_tableView, bind_eq_error,
    Except.ok.injEq, exists_eq_left', reduceCtorEq, false_or] at he
  cases hr : list.tableView.indexPathForSelectedRow <;> simp only [hr] at he
  case none =>
    have ⟨hl, hy, hf⟩ := hb.addedItem_eq_error he
    exact ⟨fun _ => ⟨by simpa using hl, hy⟩, hf.congr (by simp) (by simp)⟩
  case some row =>
    have ⟨k, hk⟩ := hs row hr
    have hf := hb.updatedItem_eq_error (by simpa using hk) he
    exact ⟨by simp, hf.congr (by simp) (by simp)⟩

end ItemsTableViewController

namespace Execution

section

variable [Unicode]

open State in
-- All that can go wrong.
inductive Failure (s : State) : Event → Trap → Prop
  | drawRow {t row k x tr} :
    (s.list t).items[row]? = some k → s.realm.find? k = some x → (s.list t).CellFailure x tr →
    Failure s (.drawRow t row) tr
  | selectRow {t row now k x tr} :
    (s.list t).items[row]? = some k → s.realm.find? k = some x →
    ({ isLostItem := !x.found, item := some (.managed k) } :
      AddItemTableViewController).viewDidLoad s.realm s.auth now = .error tr →
    Failure s (.selectRow t row now) tr
  | save {source d vc t now y tr} :
    s.FormAt source d vc t → vc.saveButton.any (·.isEnabled) → vc.newItem s.auth now = .ok y →
    ((s.list t).tableView.indexPathForSelectedRow = none →
      (vc.item.isNone || vc.isLostItem) ∧ y.found = false) →
    { s.list t with isLostList := vc.item.isNone || vc.isLostItem }.CellFailure y tr →
    Failure s (.unwind source .saveUnwind d now) tr

variable {s : State} {e : Event} {t : Tab} {tr : Trap} {row : Nat}

namespace State

omit [Unicode] in
-- Each row of a table is the row of an item.
theorem Coherent.getElem? (h : s.Coherent) (hr : row < (s.list t).tableView.numberOfRows) :
    ∃ k x, (s.list t).items[row]? = some k ∧ s.realm.find? k = some x := by
  rw [(h.list t).rows] at hr
  have hk := List.getElem?_eq_getElem hr
  have ⟨x, hx⟩ := Option.isSome_iff_exists.mp ((h.list t).stored _ (List.mem_of_getElem? hk))
  exact ⟨_, x, hk, hx⟩

omit [Unicode] in
theorem Coherent.selected_getElem? (h : s.Coherent)
    (hr : (s.list t).tableView.indexPathForSelectedRow = some row) :
    ∃ k, (s.list t).items[row]? = some k := by
  have hd : s.details t ≠ none := by
    intro hd
    have hn : (s.list t).tableView.indexPathForSelectedRow = none := (h.nav t).idle hd
    simp [hn] at hr
  have ⟨_, hd⟩ := Option.ne_none_iff_exists'.mp hd
  have ⟨hr', hk, _, _, _⟩ := (h.nav t).opened hd
  obtain rfl := Option.some.inj (hr.symm.trans hr')
  exact ⟨_, hk⟩

theorem selectRow_eq_error {now : Date} (h : s.selectRow t row now = .error tr) (hc : s.Coherent)
    (hr : row < (s.list t).tableView.numberOfRows) : Failure s (.selectRow t row now) tr := by
  have ⟨k, x, hk, hx⟩ := hc.getElem? hr
  have h₁ : element (s.list t).items row = .ok k := element_eq_ok.mpr hk
  have h₂ : s.realm.read k = .ok x := Realm.read_eq_ok.mpr hx
  simp only [selectRow, ItemsTableViewController.prepareDetails, UITableView.selectRow, unwrap, h₁, h₂,
    bind_eq_error, pure_eq_ok, pure_ne_error, bind_eq_ok, Except.ok.injEq, exists_eq_left',
    reduceCtorEq, false_or, and_false, exists_false, or_false] at h
  exact .selectRow hk hx h

omit [Unicode] in
theorem deleteRow_ne_error (hc : s.Coherent) (hr : row < (s.list t).tableView.numberOfRows) :
    s.deleteRow t row ≠ .error tr := by
  have ⟨k, x, hk, hx⟩ := hc.getElem? hr
  have h₁ : element (s.list t).items row = .ok k := element_eq_ok.mpr hk
  have h₂ : s.realm.delete (.managed k) = .ok (s.realm.erase k) :=
    Realm.delete_eq_ok.mpr ⟨k, x, rfl, hx, rfl⟩
  have ⟨table, h₃⟩ := (hc.list t).deleteRow_ok ((hc.list t).rows ▸ hr)
  intro h
  simp only [deleteRow, ItemsTableViewController.canEditRowAt_eq hk hx, bind_eq_error,
    Except.ok.injEq, exists_eq_left', reduceCtorEq, false_or] at h
  split at h <;> simp [ItemsTableViewController.commitDelete, h₁, h₂, h₃] at h

omit [Unicode] in
theorem form_ne_error {on : Screen} {fe : AddItemTableViewController.FormEvent}
    (ha : s.Allows (.form on fe)) : s.form on fe ≠ .error tr := by
  simp only [Allows, Bool.and_eq_true, decide_eq_true_eq] at ha
  obtain ⟨_, ha⟩ := ha
  intro h
  cases on
  case list t    => simp at ha
  case details t =>
    obtain ⟨vc, hd, ha⟩ := (Option.any_eq_true ..).mp ha
    obtain ⟨vc', hh⟩ : ∃ vc', vc.handle s.auth fe = .ok vc' :=
      AddItemTableViewController.handle_ok ha
    simp [form, hd, hh] at h
  case presented =>
    rcases hp : s.presented with _ | ⟨vc | _ | _, ps⟩ <;> simp only [hp, Bool.false_eq_true] at ha
    obtain ⟨vc', hh⟩ : ∃ vc', vc.handle s.auth fe = .ok vc' :=
      AddItemTableViewController.handle_ok ha
    simp [form, hp, hh] at h

theorem unwindForm_save_eq_error {source : Screen} {d : Destination} {now : Date}
    {vc : AddItemTableViewController} (h : s.unwindForm vc t .saveUnwind now = .error tr)
    (hc : s.Coherent) (hs : s.SessionConsistent) (ha : s.FormAt source d vc t)
    (hb : vc.saveButton.any (·.isEnabled)) : Failure s (.unwind source .saveUnwind d now) tr := by
  obtain ⟨y, hy⟩ : ∃ y, vc.newItem s.auth now = .ok y := hs.newItem_ok hc ha hb
  simp only [unwindForm, AddItemTableViewController.prepare_save, hy, bind_eq_error, bind_eq_ok,
    pure_ne_error, pure_eq_ok, Except.ok.injEq, exists_eq_left', reduceCtorEq, false_or, and_false,
    exists_false, unwindTo] at h
  rcases h with h | ⟨unwound, -, h⟩
  · have hp : { s.list t with
        isLostList := vc.item.isNone || vc.isLostItem }.Coherent s.realm t :=
      (hc.list t).congr rfl rfl rfl rfl rfl
    obtain ⟨hn, hf⟩ := hp.unwindToItemList_eq_error (fun row => hc.selected_getElem?) h
    exact .save ha hb hy hn hf
  · split at h <;> simp [instantiateInitial_eq] at h

theorem unwindForm_found_ne_error {source : Screen} {d : Destination} {now : Date}
    {vc : AddItemTableViewController} (hc : s.Coherent) (hs : s.SessionConsistent)
    (ha : s.FormAt source d vc t) (hb : vc.foundButton.any (·.isEnabled)) :
    s.unwindForm vc t .foundUnwind now ≠ .error tr := by
  rcases hc.formAt_item ha with ⟨-, hn⟩ | ⟨-, @⟨row, k, x, hr, hk, hi, hx, _⟩⟩
  · rcases hs.formAt hc ha with ⟨-, -, hf⟩ | ⟨_, _, hi, -⟩
    · simp [hf.foundButton, hn] at hb
    · simp [hn] at hi
  · have h₁ : element (s.list t).items row = .ok k := element_eq_ok.mpr hk
    have h₂ : s.realm.delete (.managed k) = .ok (s.realm.erase k) :=
      Realm.delete_eq_ok.mpr ⟨k, x, rfl, hx, rfl⟩
    have ⟨hl, _⟩ := List.getElem?_eq_some_iff.mp hk
    have ⟨table, h₃⟩ := (hc.list t).deleteRow_ok hl
    intro h
    simp [unwindForm, AddItemTableViewController.prepare, unwindTo, hi,
      ItemsTableViewController.unwindToItemList, ItemsTableViewController.updateBarButtons_eq,
      ItemsTableViewController.foundItem, hr, h₁, h₂, h₃] at h

theorem unwindForm_eq_error {source : Screen} {segue : Segue} {d : Destination} {now : Date}
    {vc : AddItemTableViewController} (h : s.unwindForm vc t segue now = .error tr)
    (hc : s.Coherent)
    (hs : s.SessionConsistent) (ha : s.FormAt source d vc t) (ho : vc.offers segue) :
    Failure s (.unwind source segue d now) tr := by
  cases segue <;> simp only [AddItemTableViewController.offers, Bool.false_eq_true] at ho
  case cancelUnwind =>
    simp [unwindForm, AddItemTableViewController.prepare, unwindTo_eq] at h
  case saveUnwind   => exact unwindForm_save_eq_error h hc hs ha ho
  case foundUnwind  => exact absurd h (unwindForm_found_ne_error hc hs ha ho)

theorem unwind_eq_error {source : Screen} {segue : Segue} {d : Destination} {now : Date}
    (h : s.unwind source segue d now = .error tr) (hc : s.Coherent) (hs : s.SessionConsistent)
    (ha : s.Allows (.unwind source segue d now)) : Failure s (.unwind source segue d now) tr := by
  rcases allows_unwind ha with ⟨vc, t, hf, ho⟩ | ⟨p, ps, rfl, hp, hf, hs', hf'⟩
  · exact unwindForm_eq_error (hf.unwind_eq ▸ h) hc hs hf ho
  · cases p <;> simp_all [Presented.form?, unwind, unwindTo_eq]

end State

theorem Failure.of_perform (h : s.perform e = .error tr) (hc : s.Coherent)
    (hs : s.SessionConsistent) (ha : s.Allows e) : Failure s e tr := by
  cases e
  case launch | tapLogout =>
    simp [State.perform, State.logoutAction, State.instantiateInitial_eq] at h
  case selectTab t =>
    simp only [State.perform, State.selectTab, ItemsTableViewController.viewDidLoad_eq] at h
    split at h
    · simp at h
    · split at h <;> simp at h
  case drawRow t row =>
    simp only [State.Allows, Bool.and_eq_true, decide_eq_true_eq] at ha
    simp only [State.perform, bind_eq_error, pure_ne_error, and_false, exists_false, or_false] at h
    obtain ⟨k, x, hk, hx⟩ := hc.getElem? ha.right
    exact .drawRow hk hx (ItemsTableViewController.cellForRowAt_eq_error hk hx h)
  case selectRow t row now =>
    simp only [State.Allows, Bool.and_eq_true, decide_eq_true_eq] at ha
    exact State.selectRow_eq_error h hc ha.right
  case deleteRow t row =>
    simp only [State.Allows, Bool.and_eq_true, decide_eq_true_eq] at ha
    exact absurd h (State.deleteRow_ne_error hc ha.right)
  case tapAdd t now =>
    obtain ⟨vc, hl⟩ : ∃ vc, (ItemsTableViewController.prepareAddItem t.addSegue {}).viewDidLoad s.realm
        s.auth now = .ok vc := by
      cases t <;> exact ⟨_, AddItemTableViewController.viewDidLoad_new_eq⟩
    simp [State.perform, State.tapAdd, hl] at h
  case tapLogin | tapRegister | editCredential | switchForm => simp [State.perform] at h
  case form on fe => exact absurd h (State.form_ne_error ha)
  case unwind source segue d now => exact State.unwind_eq_error h hc hs ha
  case tapSubmit =>
    simp only [State.perform, State.tapSubmit] at h
    split at h <;>
      simp [LoginTableViewController.loginAction, RegisterTableViewController.signUpAction,
        UITextField.text] at h
  case complete i email =>
    cases email <;> simp [State.perform, State.complete, State.instantiateInitial_eq] at h

end
end Execution
end LosTrouvee
