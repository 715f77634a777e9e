import LosTrouvee.Controllers.Theorems.Saving

namespace LosTrouvee.AddItemTableViewController

-- A form whose labels show what its pickers stand at. No date past the time of its loading can be
-- picked.
structure InSync (vc : AddItemTableViewController) (loaded : Date) : Prop where
  category    : vc.categories[vc.categoryPicker.selectedRow]? = vc.categorySelectedLabel.text
  date        : vc.dateSelectedLabel = vc.datePicker.date
  maximumDate : vc.datePicker.maximumDate = some loaded
  date_le     : vc.datePicker.date ≤ loaded

variable {vc vc' : AddItemTableViewController} {auth : Auth} {realm : Realm} {now loaded : Date}
  {x y : Item Place Contact} {k : Key} {b : Bool} {e : FormEvent}

theorem updateSaveButtonState_inSync (auth : Auth) (h : vc.InSync loaded) :
    (vc.updateSaveButtonState auth).InSync loaded := by
  rw [updateSaveButtonState_eq]
  exact { h with }

theorem handle_inSync (h : vc.handle auth e = .ok vc') (hs : vc.InSync loaded) :
    vc'.InSync loaded := by
  cases e
  case editText f s =>
    simp only [handle, Except.ok.injEq] at h
    have ht : (vc.setText f s).InSync loaded := { hs with }
    subst h
    split
    · exact updateSaveButtonState_inSync auth ht
    · exact ht
  case editDescription s =>
    simp only [handle, Except.ok.injEq] at h
    subst h
    exact updateSaveButtonState_inSync auth { hs with }
  case pickCategory row =>
    simp only [handle, pickerViewDidSelectRow, bind_eq_ok, element_eq_ok, pure_eq_ok] at h
    obtain ⟨_, hr, rfl⟩ := h
    exact { hs with category := hr }
  case pickDate d =>
    simp only [handle, Except.ok.injEq] at h
    subst h
    have hm := hs.maximumDate
    exact { hs with
      date    := rfl
      date_le := by simp [datePickerChanged, updateDateSelected, UIDatePicker.setDate,
        UIDatePicker.clamp, hm] }
  case tapRow section' row =>
    simp only [handle, Except.ok.injEq, didSelectRowAt] at h
    subst h
    split
    · split <;> exact { hs with }
    · exact hs

theorem categoryTitles_nodup : categoryTitles.Nodup := by
  have hp := List.perm_insertionSort (· ≤ ·) <|
    (Category.allCases.filter (·.rawValue != "other")).map Category.title
  rw [categoryTitles, List.nodup_cons, hp.mem_iff, hp.nodup_iff]
  decide

theorem categoryTitles_pairwise : categoryTitles.tail.Pairwise (· < ·) := by
  have hs : categoryTitles.tail.Pairwise (· ≤ ·) := List.pairwise_insertionSort ..
  have hn : categoryTitles.tail.Pairwise (· ≠ ·) := categoryTitles_nodup.tail
  exact hs.imp₂ (fun _ _ => lt_of_le_of_ne) hn

-- A form that expands the rows of its pickers only if they take input.
structure GuardsPickers (vc : AddItemTableViewController) : Prop where
  categories       : vc.categories = categoryTitles
  categoryPicker   : vc.categoryPicker.isHidden = !vc.editingEnabled
  datePicker       : vc.datePicker.isHidden = !vc.editingEnabled
  categoryExpanded : vc.isCategoryPickerHidden = false → vc.editingEnabled
  dateExpanded     : vc.isDatePickerHidden = false → vc.editingEnabled

theorem Layout.guardsPickers (h : vc.Layout b) (hc : vc.isCategoryPickerHidden)
    (hd : vc.isDatePickerHidden) : vc.GuardsPickers where
  categories       := h.categories
  categoryPicker   := by rw [h.categoryPicker, h.editingEnabled]
  datePicker       := by rw [h.datePicker, h.editingEnabled]
  categoryExpanded := by simp [hc]
  dateExpanded     := by simp [hd]

-- Only a tap on an editable form expands or collapses a row.
theorem handle_isPickerHidden (h : vc.handle auth e = .ok vc') :
    vc.editingEnabled ∨ vc'.isCategoryPickerHidden = vc.isCategoryPickerHidden ∧
      vc'.isDatePickerHidden = vc.isDatePickerHidden := by
  cases e
  case pickCategory row =>
    simp only [handle, pickerViewDidSelectRow, bind_eq_ok, pure_eq_ok] at h
    obtain ⟨_, -, rfl⟩ := h
    exact .inr ⟨rfl, rfl⟩
  case tapRow section' row =>
    simp only [handle, Except.ok.injEq, didSelectRowAt] at h
    subst h
    split
    case isTrue he => exact .inl he
    case isFalse   => exact .inr ⟨rfl, rfl⟩
  all_goals
    simp only [handle, textEditingChanged, textViewDidChange, datePickerChanged, updateDateSelected,
      Except.ok.injEq] at h
    subst h
    refine .inr ?_
  case editText f s    => split <;> simp [updateSaveButtonState_eq, setText, setTextField]
  case editDescription => simp [updateSaveButtonState_eq]
  case pickDate        => exact ⟨rfl, rfl⟩

theorem handle_guardsPickers (h : vc.handle auth e = .ok vc') (hg : vc.GuardsPickers) :
    vc'.GuardsPickers := by
  have hf := handle_frame h
  have hp := handle_isPickerHidden h
  exact {
    categories       := hf.categories.trans hg.categories
    categoryPicker   := by rw [hf.categoryPicker, hf.editingEnabled, hg.categoryPicker]
    datePicker       := by rw [hf.datePicker, hf.editingEnabled, hg.datePicker]
    categoryExpanded := fun hc => hf.editingEnabled ▸ hp.elim id fun hp =>
      hg.categoryExpanded (hp.left.symm.trans hc)
    dateExpanded     := fun hd => hf.editingEnabled ▸ hp.elim id fun hp =>
      hg.dateExpanded (hp.right.symm.trans hd) }

namespace GuardsPickers

-- A picker takes input while its row is tall.

theorem allows_pickCategory_iff (h : vc.GuardsPickers) {row : Nat} :
    vc.Allows (.pickCategory row) ↔
      vc.heightForRowAt 0 1 = 200 ∧ row < vc.numberOfRowsInComponent := by
  have hc := h.categoryExpanded
  cases hp : vc.isCategoryPickerHidden <;>
    simp_all [Allows, heightForRowAt, numberOfRowsInComponent, h.categoryPicker]

theorem allows_pickDate_iff (h : vc.GuardsPickers) {d : Date} :
    vc.Allows (.pickDate d) ↔ vc.heightForRowAt 0 2 = 200 := by
  have hd := h.dateExpanded
  cases hp : vc.isDatePickerHidden <;> simp_all [Allows, heightForRowAt, h.datePicker]

theorem heightForRowAt_lt (h : vc.GuardsPickers) (he : vc.editingEnabled = false)
    (section' row : Nat) : vc.heightForRowAt section' row < 200 := by
  have hc : vc.isCategoryPickerHidden := by
    by_contra hc
    simp [h.categoryExpanded (by simpa using hc)] at he
  have hd : vc.isDatePickerHidden := by
    by_contra hd
    simp [h.dateExpanded (by simpa using hd)] at he
  unfold heightForRowAt
  split <;> simp [hc, hd]

theorem titleForRow_eq_ok_iff (h : vc.GuardsPickers) {row : Nat} {title : String} :
    vc.titleForRow row = .ok title ↔ categoryTitles[row]? = some title := by
  rw [titleForRow, h.categories, element_eq_ok]

-- Each row of the picker is for a category, and each category has one row.

theorem exists_titleForRow (h : vc.GuardsPickers) {row : Nat}
    (hr : row < vc.numberOfRowsInComponent) :
    ∃ c : Category, vc.titleForRow row = .ok c.title := by
  rw [numberOfRowsInComponent, h.categories] at hr
  have ⟨c, hc⟩ := mem_categoryTitles_iff.mp (List.getElem_mem hr)
  exact ⟨c, h.titleForRow_eq_ok_iff.mpr (hc ▸ List.getElem?_eq_getElem hr)⟩

theorem existsUnique_titleForRow (h : vc.GuardsPickers) (c : Category) :
    ∃! row, vc.titleForRow row = .ok c.title := by
  obtain ⟨row, hr, hc⟩ := List.getElem_of_mem (mem_categoryTitles_iff.mpr ⟨c, rfl⟩)
  refine ⟨row, h.titleForRow_eq_ok_iff.mpr (hc ▸ List.getElem?_eq_getElem hr), fun i hi => ?_⟩
  obtain ⟨hl, hi⟩ := List.getElem?_eq_some_iff.mp (h.titleForRow_eq_ok_iff.mp hi)
  exact (categoryTitles_nodup.getElem_inj_iff).mp (hi.trans hc.symm)

-- The titles come in alphabetical order, after the one of `other`.
theorem titleForRow_lt (h : vc.GuardsPickers) {i j : Nat} {a b : String} (hi : 0 < i) (hj : i < j)
    (ha : vc.titleForRow i = .ok a) (hb : vc.titleForRow j = .ok b) : a < b := by
  rw [h.titleForRow_eq_ok_iff] at ha hb
  obtain ⟨i, rfl⟩ := Nat.exists_eq_add_one.mpr hi
  obtain ⟨j, rfl⟩ := Nat.exists_eq_add_one.mpr (hi.trans hj)
  obtain ⟨hi, rfl⟩ := List.getElem?_eq_some_iff.mp ((List.getElem?_tail ..).trans ha)
  obtain ⟨hj', rfl⟩ := List.getElem?_eq_some_iff.mp ((List.getElem?_tail ..).trans hb)
  exact List.pairwise_iff_getElem.mp categoryTitles_pairwise i j hi hj' (by omega)

end GuardsPickers

theorem finishLoading_isPickerHidden (auth : Auth) (now : Date) (vc : AddItemTableViewController) :
    (vc.finishLoading auth now).isCategoryPickerHidden = vc.isCategoryPickerHidden ∧
      (vc.finishLoading auth now).isDatePickerHidden = vc.isDatePickerHidden := by
  rw [finishLoading, updateSaveButtonState_eq]
  exact ⟨rfl, rfl⟩

theorem unlock_isPickerHidden (owner : Bool) (vc : AddItemTableViewController) :
    (vc.unlock owner).isCategoryPickerHidden = vc.isCategoryPickerHidden ∧
      (vc.unlock owner).isDatePickerHidden = vc.isDatePickerHidden := by
  cases owner <;> exact ⟨rfl, rfl⟩

theorem finishLoading_inSync (auth : Auth) (now : Date)
    (h : vc.categories[vc.categoryPicker.selectedRow]? = vc.categorySelectedLabel.text) :
    (vc.finishLoading auth now).InSync now :=
  updateSaveButtonState_inSync auth ⟨h, rfl, rfl, by simp [UIDatePicker.setMaximumDate]⟩

variable [Unicode]

theorem viewDidLoad_new_inSync
    (h : ({ isLostItem := b } : AddItemTableViewController).viewDidLoad realm auth now = .ok vc) :
    vc.InSync now := by
  rw [viewDidLoad_new_eq, Except.ok.injEq] at h
  subst h
  apply finishLoading_inSync
  cases hu : auth.currentUser <;> simp [showNew, hu, categoryTitles, setText, setTextField]

theorem viewDidLoad_details_inSync
    (h : ({ isLostItem := b, item := some (.managed k) } : AddItemTableViewController).viewDidLoad
      realm auth now = .ok vc) (hx : realm.find? k = some x) : vc.InSync now := by
  obtain ⟨vc', hd, rfl⟩ := (viewDidLoad_details_eq_ok hx).mp h
  have ⟨vc₁, _, hu⟩ := showDetails_spec hd
  obtain ⟨category, row, _, _, -, hr, -, -, rfl⟩ := updateInputFields_eq_ok.mp hu
  have ⟨hl, hc, _⟩ := List.idxOf?_eq_some_iff.mp hr
  exact finishLoading_inSync auth now (by simpa using List.getElem?_eq_some_iff.mpr ⟨hl, hc⟩)

-- A form as `viewDidLoad` leaves it, for a new item or for one that is stored.
inductive Loaded (realm : Realm) (auth : Auth) (now : Date) : AddItemTableViewController → Prop
  | newItem {b : Bool} {vc} :
    ({ isLostItem := b } : AddItemTableViewController).viewDidLoad realm auth now = .ok vc →
    Loaded realm auth now vc
  | details {b : Bool} {k : Key} {x : Item Place Contact} {vc} :
    realm.find? k = some x →
    ({ isLostItem := b, item := some (.managed k) } : AddItemTableViewController).viewDidLoad
      realm auth now = .ok vc →
    Loaded realm auth now vc

theorem Loaded.inSync (h : Loaded realm auth now vc) : vc.InSync now := by
  cases h
  case newItem h    => exact viewDidLoad_new_inSync h
  case details hx h => exact viewDidLoad_details_inSync h hx

theorem Loaded.guardsPickers (h : Loaded realm auth now vc) : vc.GuardsPickers := by
  cases h
  case newItem h =>
    obtain ⟨_, _, hc⟩ := viewDidLoad_new_spec h
    rw [viewDidLoad_new_eq, Except.ok.injEq] at h
    subst h
    refine hc.guardsPickers ?_ ?_ <;>
      simp only [finishLoading_isPickerHidden, showNew] <;>
      cases auth.currentUser <;> rfl
  case details hx h =>
    obtain ⟨_, _, hc⟩ := viewDidLoad_details_spec h hx
    obtain ⟨vc', hd, rfl⟩ := (viewDidLoad_details_eq_ok hx).mp h
    obtain ⟨vc₁, hr, hu⟩ := showDetails_spec hd
    obtain ⟨_, _, _, _, -, -, -, -, rfl⟩ := updateInputFields_eq_ok.mp hu
    refine hc.guardsPickers ?_ ?_ <;>
      simp only [finishLoading_isPickerHidden] <;>
      rw [hr.eq] <;>
      simp only [unlock_isPickerHidden]

-- What is saved from a form in sync is what its pickers stand at and its labels show.
structure Saved (vc : AddItemTableViewController) (y : Item Place Contact) : Prop where
  categoryPicker        : vc.categories[vc.categoryPicker.selectedRow]? = some y.category.title
  categorySelectedLabel : vc.categorySelectedLabel.text = some y.category.title
  datePicker            : vc.datePicker.date = y.timestamp
  dateSelectedLabel     : vc.dateSelectedLabel = y.timestamp

theorem InSync.newItem (hs : vc.InSync loaded)
    (hl : ∃ c : Category, vc.categorySelectedLabel.text = some c.title)
    (h : vc.newItem auth now = .ok y) : vc.Saved y := by
  have ⟨hv, _⟩ := newItem_spec h
  have ⟨c, hl⟩ := hl
  have hd : y.timestamp = vc.datePicker.date := by simpa [Item.value, value] using hv .date
  have hr : y.categoryRaw = c.rawValue := by
    simpa [Item.value, value, hl, c.lowercased_title] using hv .category
  have hc : y.category = c := by simp [Item.category, hr, c.ofRawValue_rawValue]
  exact {
    categoryPicker        := by rw [hs.category, hl, hc]
    categorySelectedLabel := by rw [hl, hc]
    datePicker            := hd.symm
    dateSelectedLabel     := hs.date.trans hd.symm }

end LosTrouvee.AddItemTableViewController
