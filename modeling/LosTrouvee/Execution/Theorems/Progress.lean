import LosTrouvee.Execution.Theorems.Flags
import LosTrouvee.Execution.Theorems.Validity

namespace LosTrouvee

namespace ItemsTableViewController

variable {realm : Realm} {auth : Auth} {t : Tab} {list : ItemsTableViewController} {row : Nat}
  {k : Key} {y : Item Place Contact}

-- A list that takes itself for the other one asks for the cells of the other one.
theorem Coherent.foreign_iff (h : list.Coherent realm t) :
    list.cellIdentifier ∉ list.tableView.reuseIdentifiers ↔ list.isLostList = t.showsFound := by
  rw [h.cells, cellIdentifier]
  cases t <;> cases list.isLostList <;> decide

variable [Unicode]

theorem Coherent.cellForRowAt_foreign (h : list.Coherent realm t)
    (hf : list.isLostList = t.showsFound) (realm' : Realm) (row : Nat) :
    list.cellForRowAt realm' row = .error .unregisteredIdentifier := by
  have hn := h.foreign_iff.mpr hf
  rw [cellIdentifier] at hn
  rw [cellForRowAt]
  split at hn <;> simp_all [UITableView.dequeueReusableCell_eq_error]

-- The row that takes in an item is drawn.
theorem Coherent.updatedItem_foreign (h : list.Coherent realm t)
    (hf : list.isLostList = t.showsFound) (hk : list.items[row]? = some k) :
    list.updatedItem realm (.unmanaged y) row = .error .unregisteredIdentifier := by
  have ⟨x, hx⟩ := Option.isSome_iff_exists.mp (h.stored k (List.mem_of_getElem? hk))
  have ⟨hr, _⟩ := List.getElem?_eq_some_iff.mp hk
  have h₁ : element list.items row = .ok k := element_eq_ok.mpr hk
  have h₂ : realm.delete (.managed k) = .ok (realm.erase k) :=
    Realm.delete_eq_ok.mpr ⟨k, x, rfl, hx, rfl⟩
  have hl := h.replace (y := y) hk
  have h₃ : list.tableView.reloadRow row (list.items.set row realm.items.nextKey).length =
      .ok list.tableView := hl.reloadRow_ok (by simpa using hr)
  simp only [updatedItem, Realm.add, h₁, h₂, h₃, bind_eq_error, Except.ok.injEq, exists_eq_left',
    reduceCtorEq, false_or, Realm.erase_nextKey]
  exact .inl (hl.cellForRowAt_foreign hf ..)

end ItemsTableViewController

namespace Execution

namespace State

-- A list draws a cell that its own table does not register. Its flag may be the wrong one, or it is
-- about to get the wrong one from the details of an item of the other kind.
def drawsForeignCell (s : State) : Event → Bool
  | .drawRow t _ => (s.list t).isLostList == t.showsFound
  | .unwind (.details t) .saveUnwind _ _ => (s.details t).any (·.isLostItem == t.showsFound)
  | _ => false

end State

section

variable [Unicode] {start : Realm → Prop} {s s' : State} {e : Event} {t : Tab}

theorem Failure.drawsForeignCell (h : Failure s e .unregisteredIdentifier) (hc : s.Coherent) :
    s.drawsForeignCell e := by
  cases h
  case drawRow hk hx hd =>
    cases hd
    case identifier hi => simpa [State.drawsForeignCell] using (hc.list _).foreign_iff.mp hi
  case selectRow hx hl =>
    have ht := AddItemTableViewController.viewDidLoad_details_eq_error hx hl
    contradiction
  case save source d vc t now y ha hb hy hr hd =>
    cases hd
    case identifier hi =>
      have hf := ((hc.list t).prepared s.auth (vc.item.isNone || vc.isLostItem)).foreign_iff.mp
        (by simpa [ItemsTableViewController.cellIdentifier] using hi)
      rcases hc.formAt_item ha with ⟨rfl, hn⟩ | ⟨rfl, ho⟩
      · have ht := hc.newItem_tab ha hy fun h => (hr h).right
        simp [hn, ht, Tab.showsFound] at hf
      · cases ha
        case details hp hd => simpa [State.drawsForeignCell, hd, ho.isNone] using hf

theorem State.drawRow_foreign (hc : s.Coherent) {row : Nat}
    (hf : s.drawsForeignCell (.drawRow t row)) :
    s.perform (.drawRow t row) = .error .unregisteredIdentifier := by
  have hf : (s.list t).isLostList = t.showsFound := by simpa [State.drawsForeignCell] using hf
  simp [State.perform, (hc.list t).cellForRowAt_foreign hf]

-- A row is selected below the details of an item, so its list takes the update path.
theorem State.save_foreign (hc : s.Coherent) (hs : s.SessionConsistent) {d : Destination}
    {now : Date} (ha : s.Allows (.unwind (.details t) .saveUnwind d now))
    (hf : s.drawsForeignCell (.unwind (.details t) .saveUnwind d now)) :
    s.perform (.unwind (.details t) .saveUnwind d now) = .error .unregisteredIdentifier := by
  rcases State.allows_unwind ha with ⟨vc, u, ha, hb⟩ | ⟨_, _, hp, _⟩
  case inr => simp at hp
  have ⟨y, hy⟩ : ∃ y, vc.newItem s.auth now = .ok y := hs.newItem_ok hc ha hb
  have hu : s.unwind (.details t) .saveUnwind d now = s.unwindForm vc u .saveUnwind now :=
    ha.unwind_eq
  rcases hc.formAt_item ha with ⟨hn, -⟩ | ⟨ht, ho⟩
  case inl => simp at hn
  obtain rfl : t = u := by simpa using ht
  have ⟨hr, hk, _, _, _⟩ := ho
  cases ha
  case details hp hd =>
    have hf : vc.isLostItem = s.selectedTab.showsFound := by
      simpa [State.drawsForeignCell, hd] using hf
    have hp := (hc.list s.selectedTab).prepared s.auth vc.isLostItem
    have he := hp.updatedItem_foreign (y := y) (by simpa using hf) (by simpa using hk)
    simp [State.perform, hu, State.unwindForm, AddItemTableViewController.prepare_save, hy,
      State.unwindTo, ItemsTableViewController.unwindToItemList, ho.isNone,
      ItemsTableViewController.updateBarButtons_eq, hr, he]

end

section

attribute [local instance] Unicode.ascii

end
end Execution
end LosTrouvee
