import LosTrouvee.Controllers.Theorems.Form
import LosTrouvee.Objects.WellFormed

namespace LosTrouvee

open AddItemTableViewController TextField

-- The property of an item that a text field shows.
def Item.text (item : Item Place Contact) : TextField → Option String
  | titleTextField           => some item.title
  | placeNameTextField       => item.place.map Place.placeName
  | placeStreetTextField     => item.place.map Place.street
  | placeNrTextField         => item.place.map Place.nr
  | placePostalTextField     => item.place.map Place.postalCode
  | placeCityTextField       => item.place.map Place.city
  | contactFirstameTextField => item.contact.map Contact.firstname
  | contactLastnameTextField => item.contact.map Contact.lastname
  | contactEmailTextField    => item.contact.map Contact.email
  | contactTelTextField      => item.contact.map Contact.tel
  | contactMobileTextField   => item.contact.map Contact.mobile

theorem Item.text_eq_itemText {item : Item Place Contact} {place : Place} {contact : Contact}
    (hp : item.place = some place) (hc : item.contact = some contact) (f : TextField) :
    item.text f = some (itemText item place contact f) := by
  cases f <;> simp [Item.text, itemText, hp, hc]

-- The property of an item that an input of the form is about.
def Item.value (item : Item Place Contact) : Field → Value
  | .text f      => .inl <| item.text f
  | .description => .inl <| some item.itemDescription
  | .category    => .inl <| some item.categoryRaw
  | .date        => .inr <| item.timestamp

namespace AddItemTableViewController

variable {vc vc' : AddItemTableViewController} {auth : Auth} {realm : Realm} {now : Date}
  {x : Item Place Contact} {k : Key} {b : Bool} {e : FormEvent}

def categoryTitles : List String :=
  "Other" :: ((Category.allCases.filter (·.rawValue != "other")).map Category.title).insertionSort
    (· ≤ ·)

-- The picker offers the title of every category.
theorem mem_categoryTitles_iff {s : String} : s ∈ categoryTitles ↔ ∃ c : Category, s = c.title := by
  simp only [categoryTitles, List.mem_cons, List.mem_insertionSort, List.mem_map, List.mem_filter]
  constructor
  case mp =>
    rintro (rfl | ⟨c, -, rfl⟩)
    · exact ⟨.other, by decide⟩
    · exact ⟨c, rfl⟩
  case mpr =>
    rintro ⟨c, rfl⟩
    by_cases h : c = .other
    case pos => subst h; exact .inl (by decide)
    case neg => exact .inr ⟨c, ⟨c.mem_allCases, by cases c <;> simp_all [Category.rawValue]⟩, rfl⟩

theorem loadCategories_eq [Unicode] : loadCategories = .ok categoryTitles := by
  have h : (fun c : Category => Unicode.capitalized c.rawValue) = fun c => pure c.title :=
    funext Category.capitalized_rawValue
  simp [loadCategories, h, List.mapM_pure, categoryTitles]

-- What a form shows from the moment it is loaded. It lets the user edit if it is `editable`.
structure Layout (editable : Bool) (vc : AddItemTableViewController) : Prop where
  categories     : vc.categories = categoryTitles
  label          : ∃ c : Category, vc.categorySelectedLabel.text = some c.title
  saveButton     : vc.saveButton.isSome = editable
  foundButton    : vc.foundButton = if editable && vc.item.isSome then some {} else none
  editingEnabled : vc.editingEnabled = editable
  isEnabled      : ∀ f, (vc.textField f).isEnabled = editable
  isEditable     : vc.descriptionTextView.isEditable = editable
  categoryPicker : vc.categoryPicker.isHidden = !editable
  datePicker     : vc.datePicker.isHidden = !editable

structure Consistent (auth : Auth) (editable : Bool) (vc : AddItemTableViewController) : Prop
    extends Layout editable vc where
  upToDate : vc.SaveButtonUpToDate auth

theorem Consistent.congr {auth' : Auth} (h : vc.Consistent auth b)
    (hu : auth'.currentUser = auth.currentUser) : vc.Consistent auth' b where
  toLayout := h.toLayout
  upToDate := by simpa [SaveButtonUpToDate, hu] using h.upToDate

theorem handle_consistent (h : vc.handle auth e = .ok vc') (hc : vc.Consistent auth b) :
    vc'.Consistent auth b := by
  have hf := handle_frame h
  exact {
    categories     := hf.categories ▸ hc.categories
    label          := by
      rcases handle_label h with hl | ⟨s, hs, hl⟩
      · exact hl ▸ hc.label
      · have ⟨c, hs⟩ := mem_categoryTitles_iff.mp (hc.categories ▸ hs)
        exact ⟨c, hs ▸ hl⟩
    saveButton     := hf.saveButton ▸ hc.saveButton
    foundButton    := by rw [hf.foundButton, hf.item, hc.foundButton]
    editingEnabled := hf.editingEnabled ▸ hc.editingEnabled
    isEnabled      := fun f => hf.isEnabled f ▸ hc.isEnabled f
    isEditable     := hf.isEditable ▸ hc.isEditable
    categoryPicker := hf.categoryPicker ▸ hc.categoryPicker
    datePicker     := hf.datePicker ▸ hc.datePicker
    upToDate       := handle_upToDate h hc.upToDate }

section

variable [Unicode]

-- The last steps of `viewDidLoad`.
def finishLoading (auth : Auth) (now : Date) (vc : AddItemTableViewController) :
    AddItemTableViewController :=
  { vc with
    dateLabel         := { text := some (if vc.isLostItem then "Lost on" else "Found on") }
    datePicker        := vc.datePicker.setMaximumDate now
    dateSelectedLabel := (vc.datePicker.setMaximumDate now).date }.updateSaveButtonState auth

theorem viewDidLoad_new_eq :
    ({ isLostItem := b } : AddItemTableViewController).viewDidLoad realm auth now =
      .ok (finishLoading auth now <|
        showNew auth { isLostItem := b, categories := categoryTitles }) := by
  simp [viewDidLoad, loadCategories_eq, bind, Except.bind, pure, Except.pure]
  rfl

theorem viewDidLoad_details_eq_ok (hx : realm.find? k = some x) :
    ({ isLostItem := b, item := some (.managed k) } : AddItemTableViewController).viewDidLoad
      realm auth now = .ok vc ↔
    ∃ vc', showDetails auth x
      { isLostItem := b, item := some (.managed k), categories := categoryTitles } = .ok vc' ∧
      vc'.finishLoading auth now = vc := by
  have hr := Realm.read_eq_ok.mpr hx
  simp only [viewDidLoad, loadCategories_eq, hr, bind_eq_ok, pure_eq_ok, Except.ok.injEq]
  simp
  rfl

-- A form whose item was deleted does not load.
theorem viewDidLoad_details_found
    (h : ({ isLostItem := b, item := some (.managed k) } : AddItemTableViewController).viewDidLoad
      realm auth now = .ok vc) : ∃ x, realm.find? k = some x := by
  simp only [viewDidLoad, bind_eq_ok, Realm.read_eq_ok] at h
  obtain ⟨_, _, x, hx, _⟩ := h
  exact ⟨x, hx⟩

omit [Unicode] in
theorem finishLoading_frame (auth : Auth) (now : Date) (vc : AddItemTableViewController) :
    (vc.finishLoading auth now).item = vc.item ∧
      (vc.finishLoading auth now).isLostItem = vc.isLostItem := by
  rw [finishLoading, updateSaveButtonState_eq]
  exact ⟨rfl, rfl⟩

theorem finishLoading_value {f : Field} (h : f = .date → vc.datePicker.date ≤ now) :
    (vc.finishLoading auth now).value f = vc.value f := by
  rw [finishLoading, updateSaveButtonState_value]
  cases f <;> try rfl
  simpa [value, UIDatePicker.setMaximumDate] using h rfl

omit [Unicode] in
theorem finishLoading_consistent (h : vc.Layout b) :
    (vc.finishLoading auth now).Consistent auth b where
  toLayout := by
    rw [finishLoading, updateSaveButtonState_eq]
    exact { h with saveButton := by simp [h.saveButton], datePicker := h.datePicker }
  upToDate := updateSaveButtonState_upToDate auth _

omit [Unicode] in
theorem showNew_spec (auth : Auth) (b : Bool) :
    let vc := showNew auth { isLostItem := b, categories := categoryTitles }
    vc.item = none ∧ vc.isLostItem = b ∧ vc.Layout true := by
  have hl : ∃ c : Category, some "Other" = some c.title := ⟨.other, by decide⟩
  cases hu : auth.currentUser <;> simp only [showNew, hu]
  case none      => exact ⟨trivial, trivial, rfl, hl, rfl, rfl, rfl, fun _ => rfl, rfl, rfl, rfl⟩
  case some user =>
    refine ⟨rfl, rfl, rfl, hl, rfl, rfl, rfl, fun f => ?_, rfl, rfl, rfl⟩
    by_cases hf : f = contactEmailTextField
    case pos => subst hf; rfl
    case neg => simp [setText, setTextField_of_ne hf]

theorem viewDidLoad_new_spec
    (h : ({ isLostItem := b } : AddItemTableViewController).viewDidLoad realm auth now = .ok vc) :
    vc.item = none ∧ vc.isLostItem = b ∧ vc.Consistent auth true := by
  rw [viewDidLoad_new_eq, Except.ok.injEq] at h
  subst h
  have ⟨hi, hb, hl⟩ := showNew_spec auth b
  have ⟨hi', hb'⟩ := finishLoading_frame auth now <|
    showNew auth { isLostItem := b, categories := categoryTitles }
  exact ⟨hi'.trans hi, hb'.trans hb, finishLoading_consistent hl⟩

-- Placeholders and hidden fields make no difference to the rest of the form.
structure Restyles (vc vc' : AddItemTableViewController) : Prop where
  eq        : vc' = { vc with textField := vc'.textField }
  isEnabled : ∀ f, (vc'.textField f).isEnabled = (vc.textField f).isEnabled

namespace Restyles

omit [Unicode]

theorem refl (vc : AddItemTableViewController) : Restyles vc vc :=
  ⟨rfl, fun _ => rfl⟩

theorem trans {vc'' : AddItemTableViewController} (h₁ : Restyles vc vc') (h₂ : Restyles vc' vc'') :
    Restyles vc vc'' where
  eq          := by rw [h₂.eq, h₁.eq]
  isEnabled f := (h₂.isEnabled f).trans (h₁.isEnabled f)

theorem layout (r : Restyles vc vc') (h : vc.Layout b) : vc'.Layout b := by
  rw [r.eq]
  exact { h with isEnabled := fun f => (r.isEnabled f).trans (h.isEnabled f) }

end Restyles

omit [Unicode] in
theorem setTextField_restyles {f : TextField} {field : UITextField}
    (h : field.isEnabled = (vc.textField f).isEnabled) : Restyles vc (vc.setTextField f field) where
  eq := rfl
  isEnabled g := by
    by_cases hg : g = f
    case pos => subst hg; simpa using h
    case neg => rw [setTextField_of_ne hg]

omit [Unicode] in
theorem fillOrHideEmptyFields_restyles (h : vc.fillOrHideEmptyFields x = .ok vc') :
    Restyles vc vc' := by
  have placeholder (vc : AddItemTableViewController) (f : TextField) (s : String) :
      Restyles vc (vc.setPlaceholder f s) := setTextField_restyles rfl
  have hide (vc : AddItemTableViewController) (f : TextField) : Restyles vc (vc.hide f) :=
    setTextField_restyles rfl
  simp only [fillOrHideEmptyFields, bind_eq_ok, unwrap_eq_ok] at h
  obtain ⟨place, -, contact, -, h⟩ := h
  have hn : Restyles vc <| if place.placeName.isEmpty then
      vc.setPlaceholder placeNameTextField "No name available" else vc := by
    split
    · exact placeholder ..
    · exact .refl vc
  refine hn.trans ?_
  generalize (if place.placeName.isEmpty then _ else vc) = vc₁ at h ⊢
  have hr : Restyles vc₁ <| if place.nr.isEmpty then vc₁.hide placeNrTextField else vc₁ := by
    split
    · exact hide ..
    · exact .refl vc₁
  refine hr.trans ?_
  generalize (if place.nr.isEmpty then _ else vc₁) = vc₂ at h ⊢
  split_ifs at h <;> simp only [pure_eq_ok] at h <;> subst h
  · exact (placeholder ..).trans (placeholder ..)
  · exact hide ..
  · exact hide ..
  · exact .refl vc₂

omit [Unicode] in
theorem fillOrHideEmptyFields_ok {place : Place} {contact : Contact} (hp : x.place = some place)
    (hc : x.contact = some contact) : ∃ vc', vc.fillOrHideEmptyFields x = .ok vc' := by
  simp only [fillOrHideEmptyFields, hp, hc, bind_eq_ok, unwrap_eq_ok, Option.some.injEq,
    exists_eq_left']
  split_ifs <;> exact ⟨_, rfl⟩

theorem updateInputFields_eq_ok : vc.updateInputFields x = .ok vc' ↔
    ∃ category row place contact, Unicode.capitalized x.categoryRaw = .ok category ∧
      vc.categories.idxOf? category = some row ∧ x.place = some place ∧ x.contact = some contact ∧
      { vc with
        navigationTitle       := x.title
        textField             := fun f => (vc.textField f).setText (itemText x place contact f)
        categorySelectedLabel := { text := some category }
        categoryPicker        := { vc.categoryPicker with selectedRow := row }
        datePicker            := vc.datePicker.setDate x.timestamp
        descriptionTextView   := { vc.descriptionTextView with contents := x.itemDescription } } =
        vc' := by
  simp only [updateInputFields, bind_eq_ok, unwrap_eq_ok, pure_eq_ok]
  grind

omit [Unicode] in
-- The form as the owner of its item or someone else gets to see it, up to its text fields.
def unlock (owner : Bool) (vc : AddItemTableViewController) : AddItemTableViewController :=
  if owner then
    vc.enableEditing true
  else
    { vc with saveButton := none, foundButton := none }.enableEditing false

theorem showDetails_spec (h : vc.showDetails auth x = .ok vc') :
    ∃ vc₁, Restyles (vc.unlock (auth.email == some x.userEmail)) vc₁ ∧
      vc₁.updateInputFields x = .ok vc' := by
  simp only [showDetails, Auth.isCurrentUser_eq_ok, bind_eq_ok, Except.ok.injEq, exists_eq_left']
    at h
  unfold unlock
  split_ifs at h ⊢ <;> simp only [bind_eq_ok, pure_eq_ok, exists_eq_left'] at h
  · exact ⟨_, .refl _, h⟩
  · exact h.imp fun _ h => ⟨fillOrHideEmptyFields_restyles h.left, h.right⟩

theorem showDetails_ok {category : Category} {place : Place} {contact : Contact}
    (hv : vc.categories = categoryTitles) (hc : x.categoryRaw = category.rawValue)
    (hp : x.place = some place) (hq : x.contact = some contact) :
    ∃ vc', vc.showDetails auth x = .ok vc' := by
  have fill (vc : AddItemTableViewController) (hv : vc.categories = categoryTitles) :
      ∃ vc', vc.updateInputFields x = .ok vc' := by
    have hm : category.title ∈ vc.categories := hv ▸ mem_categoryTitles_iff.mpr ⟨category, rfl⟩
    obtain ⟨row, hr⟩ := Option.isSome_iff_exists.mp <| List.isSome_idxOf?.mpr hm
    exact ⟨_, updateInputFields_eq_ok.mpr
      ⟨_, row, place, contact, hc ▸ category.capitalized_rawValue, hr, hp, hq, rfl⟩⟩
  simp only [showDetails, Auth.isCurrentUser_eq_ok, bind_eq_ok, Except.ok.injEq, exists_eq_left']
  split <;> simp only [bind_eq_ok, pure_eq_ok, exists_eq_left']
  · exact fill (vc.enableEditing true) hv
  · obtain ⟨vc₁, h₁⟩ : ∃ vc₁, ({ vc with saveButton := none, foundButton := none }.enableEditing
      false).fillOrHideEmptyFields x = .ok vc₁ := fillOrHideEmptyFields_ok hp hq
    obtain ⟨vc', h⟩ := fill vc₁ ((fillOrHideEmptyFields_restyles h₁).eq ▸ hv)
    exact ⟨vc', vc₁, h₁, h⟩

omit [Unicode] in
theorem unlock_layout (owner b : Bool) (k : Key) :
    (unlock owner { isLostItem := b, item := some (.managed k), categories := categoryTitles }).Layout
      owner := by
  have hl : ∃ c : Category, some "Other" = some c.title := ⟨.other, by decide⟩
  cases owner <;> exact ⟨rfl, hl, rfl, rfl, rfl, fun _ => rfl, rfl, rfl, rfl⟩

omit [Unicode] in
theorem unlock_frame (owner : Bool) (vc : AddItemTableViewController) :
    (vc.unlock owner).item = vc.item ∧ (vc.unlock owner).isLostItem = vc.isLostItem ∧
      (vc.unlock owner).datePicker.maximumDate = vc.datePicker.maximumDate := by
  cases owner <;> simp [unlock, enableEditing]

theorem updateInputFields_layout (h : vc.updateInputFields x = .ok vc') (hl : vc.Layout b) :
    vc'.Layout b := by
  obtain ⟨category, row, place, contact, -, hi, -, -, rfl⟩ := updateInputFields_eq_ok.mp h
  have hm : category ∈ categoryTitles :=
    hl.categories ▸ List.isSome_idxOf?.mp (Option.isSome_of_mem hi)
  have ⟨c, hc⟩ := mem_categoryTitles_iff.mp hm
  exact { hl with label := ⟨c, hc ▸ rfl⟩ }

theorem updateInputFields_value {f : Field} (h : vc.updateInputFields x = .ok vc')
    (hm : vc.datePicker.maximumDate = none) (hw : x.WellFormed) : vc'.value f = x.value f := by
  obtain ⟨category, row, place, contact, hc, -, hp, hq, rfl⟩ := updateInputFields_eq_ok.mp h
  have ⟨c, hr⟩ := hw.categoryRaw
  cases f
  case text f      => simp [value, Item.value, Item.text_eq_itemText hp hq, UITextField.setText]
  case description => rfl
  case date        => simp [value, Item.value, UIDatePicker.setDate, UIDatePicker.clamp, hm]
  case category    =>
    rw [hr, c.capitalized_rawValue, Except.ok.injEq] at hc
    simp [value, Item.value, ← hc, hr, c.lowercased_title]

theorem viewDidLoad_details_spec
    (h : ({ isLostItem := b, item := some (.managed k) } : AddItemTableViewController).viewDidLoad
      realm auth now = .ok vc) (hx : realm.find? k = some x) :
    vc.item = some (.managed k) ∧ vc.isLostItem = b ∧
      vc.Consistent auth (auth.email == some x.userEmail) := by
  obtain ⟨vc', hd, rfl⟩ := (viewDidLoad_details_eq_ok hx).mp h
  have ⟨vc₁, hr, hu⟩ := showDetails_spec hd
  have hl := updateInputFields_layout hu <| hr.layout <| unlock_layout ..
  have ⟨hi, hb, _⟩ := unlock_frame (auth.email == some x.userEmail)
    { isLostItem := b, item := some (.managed k), categories := categoryTitles }
  have ⟨hi', hb'⟩ := finishLoading_frame auth now vc'
  have he : vc₁.item = some (.managed k) ∧ vc₁.isLostItem = b := by
    rw [hr.eq]
    exact ⟨hi, hb⟩
  obtain ⟨_, _, _, _, -, -, -, -, rfl⟩ := updateInputFields_eq_ok.mp hu
  exact ⟨hi'.trans he.left, hb'.trans he.right, finishLoading_consistent hl⟩

-- The form of a well formed item shows it. Its date is not shown if it lies in the future.
theorem viewDidLoad_details_value {f : Field}
    (h : ({ isLostItem := b, item := some (.managed k) } : AddItemTableViewController).viewDidLoad
      realm auth now = .ok vc) (hx : realm.find? k = some x) (hw : x.WellFormed)
    (ht : f = .date → x.timestamp ≤ now) : vc.value f = x.value f := by
  obtain ⟨vc', hd, rfl⟩ := (viewDidLoad_details_eq_ok hx).mp h
  have ⟨vc₁, hr, hu⟩ := showDetails_spec hd
  have hm : vc₁.datePicker.maximumDate = none := by
    rw [hr.eq]
    exact (unlock_frame ..).right.right
  have hv (f : Field) := updateInputFields_value (f := f) hu hm hw
  rw [finishLoading_value, hv]
  rintro rfl
  have hd : vc'.datePicker.date = x.timestamp := by simpa [value, Item.value] using hv .date
  exact hd ▸ ht rfl

theorem viewDidLoad_details_ok (hx : realm.find? k = some x) (hw : x.WellFormed) :
    ∃ vc, ({ isLostItem := b, item := some (.managed k) } : AddItemTableViewController).viewDidLoad
      realm auth now = .ok vc := by
  have ⟨_, hp, _⟩ := hw.place
  have ⟨_, hq, _⟩ := hw.contact
  have ⟨_, hc⟩ := hw.categoryRaw
  have ⟨vc', h⟩ : ∃ vc', showDetails auth x
      { isLostItem := b, item := some (.managed k), categories := categoryTitles } = .ok vc' :=
    showDetails_ok rfl hc hp hq
  exact ⟨_, (viewDidLoad_details_eq_ok hx).mpr ⟨vc', h, rfl⟩⟩

theorem updateInputFields_eq_error {tr : Trap} (h : vc.updateInputFields x = .error tr) :
    tr = .unexpectedNil := by
  have ⟨_, hc⟩ := Unicode.capitalized_ok x.categoryRaw
  simp only [updateInputFields, hc, bind_eq_error, unwrap_eq_error, pure_ne_error, Except.ok.injEq,
    exists_eq_left', reduceCtorEq] at h
  grind

omit [Unicode] in
theorem fillOrHideEmptyFields_eq_error {tr : Trap} (h : vc.fillOrHideEmptyFields x = .error tr) :
    tr = .unexpectedNil := by
  simp only [fillOrHideEmptyFields, bind_eq_error, unwrap_eq_error] at h
  rcases h with ⟨-, rfl⟩ | ⟨_, -, ⟨-, rfl⟩ | ⟨_, -, h⟩⟩
  · rfl
  · rfl
  · split_ifs at h <;> simp at h

-- Only a missing part of its item keeps a form from loading.
theorem viewDidLoad_details_eq_error {tr : Trap} (hx : realm.find? k = some x)
    (h : ({ isLostItem := b, item := some (.managed k) } : AddItemTableViewController).viewDidLoad
      realm auth now = .error tr) : tr = .unexpectedNil := by
  have hr := Realm.read_eq_ok.mpr hx
  simp only [viewDidLoad, loadCategories_eq, hr, showDetails, Auth.isCurrentUser_eq_ok,
    bind_eq_error, pure_ne_error, Except.ok.injEq, exists_eq_left', reduceCtorEq, false_or,
    and_false,
    exists_false, or_false] at h
  split at h <;> rcases bind_eq_error.mp h with h | ⟨_, _, h⟩
  · simp at h
  · exact updateInputFields_eq_error h
  · exact fillOrHideEmptyFields_eq_error h
  · exact updateInputFields_eq_error h

end
end AddItemTableViewController
end LosTrouvee
