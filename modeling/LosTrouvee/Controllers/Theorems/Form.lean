import LosTrouvee.Controllers.AddItemTableViewController

namespace LosTrouvee.AddItemTableViewController

open TextField

variable {vc vc' : AddItemTableViewController} {auth : Auth} {e : FormEvent} {f g : TextField}
  {s : String}

@[simp]
theorem text_eq (vc : AddItemTableViewController) (f : TextField) :
    vc.text f = some (vc.textField f).contents :=
  rfl

@[simp]
theorem setTextField_self (vc : AddItemTableViewController) (f : TextField) (field : UITextField) :
    (vc.setTextField f field).textField f = field :=
  Function.update_self ..

theorem setTextField_of_ne {field : UITextField} (h : g ≠ f) :
    (vc.setTextField f field).textField g = vc.textField g :=
  Function.update_of_ne h ..

@[simp]
theorem isBlank_some_iff : isBlank (some s) ↔ s = "" := by
  simp [isBlank]

theorem isValidTelNr_iff : isValidTelNr s ↔ s ≠ "" ∧ ∀ c ∈ s.toList, c.isDigit :=
  Validation.selfMatches_telRegex_iff

@[simp]
theorem isInvalidTelNr_some_iff :
    isInvalidTelNr (some s) ↔ ¬∀ c ∈ s.toList, c.isDigit := by
  by_cases hs : s = ""
  case pos => simp [isInvalidTelNr, hs]
  case neg => simp [isInvalidTelNr, hs, ← Bool.not_eq_true, isValidTelNr_iff, -not_forall]

-- What the user must have filled in. The name and the number of the place are optional.
structure Complete (vc : AddItemTableViewController) : Prop where
  title       : (vc.textField titleTextField).contents ≠ ""
  description : vc.descriptionTextView.contents ≠ ""
  street      : (vc.textField placeStreetTextField).contents ≠ ""
  postalCode  : (vc.textField placePostalTextField).contents ≠ ""
  city        : (vc.textField placeCityTextField).contents ≠ ""
  firstname   : (vc.textField contactFirstameTextField).contents ≠ ""
  lastname    : (vc.textField contactLastnameTextField).contents ≠ ""
  email       : isValidEmail (vc.textField contactEmailTextField).contents
  tel         : ∀ c ∈ (vc.textField contactTelTextField).contents.toList, c.isDigit
  mobile      : ∀ c ∈ (vc.textField contactMobileTextField).contents.toList, c.isDigit

theorem validateInput_iff : vc.validateInput ↔ vc.Complete := by
  simp only [validateInput, text_eq, UITextView.text, isBlank_some_iff, isInvalidTelNr_some_iff,
    Option.all_some, Bool.not_eq_true']
  constructor
  case mp =>
    intro h
    split_ifs at h
    constructor <;> simp_all
  case mpr =>
    intro h
    simp [h.title, h.description, h.street, h.postalCode, h.city, h.firstname, h.lastname, h.email]
    exact ⟨h.tel, h.mobile⟩

-- The check reads the contents of the wired text fields and of the description.
theorem Complete.congr (h : vc.Complete)
    (ht : ∀ f, f.isWired → (vc'.textField f).contents = (vc.textField f).contents)
    (hd : vc'.descriptionTextView.contents = vc.descriptionTextView.contents) : vc'.Complete where
  title       := ht titleTextField rfl ▸ h.title
  description := hd ▸ h.description
  street      := ht placeStreetTextField rfl ▸ h.street
  postalCode  := ht placePostalTextField rfl ▸ h.postalCode
  city        := ht placeCityTextField rfl ▸ h.city
  firstname   := ht contactFirstameTextField rfl ▸ h.firstname
  lastname    := ht contactLastnameTextField rfl ▸ h.lastname
  email       := ht contactEmailTextField rfl ▸ h.email
  tel         := ht contactTelTextField rfl ▸ h.tel
  mobile      := ht contactMobileTextField rfl ▸ h.mobile

theorem validateInput_congr
    (ht : ∀ f, f.isWired → (vc'.textField f).contents = (vc.textField f).contents)
    (hd : vc'.descriptionTextView.contents = vc.descriptionTextView.contents) :
    vc'.validateInput = vc.validateInput := by
  rw [Bool.eq_iff_iff, validateInput_iff, validateInput_iff]
  exact ⟨(·.congr (fun f hf => (ht f hf).symm) hd.symm), (·.congr ht hd)⟩

-- The inputs of the form. Each holds a text or a date.
inductive Field
  | text (f : TextField)
  | description
  | category
  | date
  deriving DecidableEq

abbrev Value := Option String ⊕ Date

-- The input that an event changes. A tap on a row changes none.
def FormEvent.field? : FormEvent → Option Field
  | .editText f _      => some (.text f)
  | .editDescription _ => some .description
  | .pickCategory _    => some .category
  | .pickDate _        => some .date
  | .tapRow _ _        => none

-- What a form shows in an input, in terms of the property of an item that is saved from it. The
-- category is shown by its title.
def value [Unicode] (vc : AddItemTableViewController) : Field → Value
  | .text f      => .inl <| vc.text f
  | .description => .inl <| vc.descriptionTextView.text
  | .category    => .inl <| vc.categorySelectedLabel.text.map Unicode.lowercased
  | .date        => .inr <| vc.datePicker.date

theorem updateSaveButtonState_eq (auth : Auth) (vc : AddItemTableViewController) :
    vc.updateSaveButtonState auth = { vc with
      saveButton := vc.saveButton.map fun _ =>
        { isEnabled := vc.validateInput && auth.currentUser.isSome } } := by
  rcases vc with ⟨_, _, _, _, _, _, _, _, _, _, _, _, _, _ | _, _, _⟩ <;> rfl

-- What no event on the form changes.
structure Frame (vc vc' : AddItemTableViewController) : Prop where
  item           : vc'.item = vc.item
  isLostItem     : vc'.isLostItem = vc.isLostItem
  categories     : vc'.categories = vc.categories
  saveButton     : vc'.saveButton.isSome = vc.saveButton.isSome
  foundButton    : vc'.foundButton = vc.foundButton
  editingEnabled : vc'.editingEnabled = vc.editingEnabled
  isEnabled      : ∀ f, (vc'.textField f).isEnabled = (vc.textField f).isEnabled
  isEditable     : vc'.descriptionTextView.isEditable = vc.descriptionTextView.isEditable
  categoryPicker : vc'.categoryPicker.isHidden = vc.categoryPicker.isHidden
  datePicker     : vc'.datePicker.isHidden = vc.datePicker.isHidden
  maximumDate    : vc'.datePicker.maximumDate = vc.datePicker.maximumDate

namespace Frame

theorem refl (vc : AddItemTableViewController) : Frame vc vc := by
  constructor <;> simp

theorem updateSaveButtonState (h : Frame vc vc') (auth : Auth) :
    Frame vc (vc'.updateSaveButtonState auth) := by
  rw [updateSaveButtonState_eq]
  exact { h with saveButton := by simp [h.saveButton] }

end Frame

theorem setText_frame : Frame vc (vc.setText f (some s)) := by
  constructor <;> try rfl
  intro g
  by_cases h : g = f
  case pos => subst h; simp [setText, UITextField.setText]
  case neg => simp [setText, setTextField_of_ne h]

theorem handle_frame (h : vc.handle auth e = .ok vc') : Frame vc vc' := by
  cases e
  case editText f s =>
    simp only [handle, Except.ok.injEq] at h
    subst h
    split
    · exact setText_frame.updateSaveButtonState auth
    · exact setText_frame
  case editDescription s =>
    simp only [handle, textViewDidChange, Except.ok.injEq] at h
    subst h
    have hf : Frame vc
        { vc with descriptionTextView := { vc.descriptionTextView with contents := s } } :=
      ⟨rfl, rfl, rfl, rfl, rfl, rfl, fun _ => rfl, rfl, rfl, rfl, rfl⟩
    exact hf.updateSaveButtonState auth
  case pickCategory row =>
    simp only [handle, pickerViewDidSelectRow, bind_eq_ok, pure_eq_ok] at h
    obtain ⟨_, -, rfl⟩ := h
    exact ⟨rfl, rfl, rfl, rfl, rfl, rfl, fun _ => rfl, rfl, rfl, rfl, rfl⟩
  case pickDate d =>
    simp only [handle, Except.ok.injEq] at h
    subst h
    exact ⟨rfl, rfl, rfl, rfl, rfl, rfl, fun _ => rfl, rfl, rfl, rfl, rfl⟩
  case tapRow section' row =>
    simp only [handle, Except.ok.injEq, didSelectRowAt] at h
    subst h
    split
    · split <;> exact ⟨rfl, rfl, rfl, rfl, rfl, rfl, fun _ => rfl, rfl, rfl, rfl, rfl⟩
    · exact .refl vc

@[simp]
theorem updateSaveButtonState_value [Unicode] (auth : Auth) (vc : AddItemTableViewController) :
    (vc.updateSaveButtonState auth).value = vc.value := by
  funext f
  rw [updateSaveButtonState_eq]
  rfl

@[simp]
theorem updateSaveButtonState_label (auth : Auth) (vc : AddItemTableViewController) :
    (vc.updateSaveButtonState auth).categorySelectedLabel = vc.categorySelectedLabel := by
  rw [updateSaveButtonState_eq]

theorem handle_value [Unicode] {f : Field} (h : vc.handle auth e = .ok vc')
    (hf : e.field? ≠ some f) : vc'.value f = vc.value f := by
  cases e
  case editText g s =>
    simp only [handle, textEditingChanged, Except.ok.injEq] at h
    have hs : (vc.setText g s).value f = vc.value f := by
      cases f <;> try rfl
      case text f =>
        have hne : f ≠ g := by rintro rfl; exact hf rfl
        simp [value, setText, setTextField_of_ne hne]
    subst h
    split <;> simpa using hs
  case editDescription s =>
    simp only [handle, textViewDidChange, Except.ok.injEq] at h
    subst h
    rw [updateSaveButtonState_value]
    cases f <;> simp_all [value, FormEvent.field?]
  case pickCategory row =>
    simp only [handle, pickerViewDidSelectRow, bind_eq_ok, pure_eq_ok] at h
    obtain ⟨_, -, rfl⟩ := h
    cases f <;> simp_all [value, FormEvent.field?]
  case pickDate d =>
    simp only [handle, Except.ok.injEq] at h
    subst h
    cases f <;> simp_all [value, FormEvent.field?, datePickerChanged, updateDateSelected]
  case tapRow section' row =>
    simp only [handle, Except.ok.injEq, didSelectRowAt] at h
    subst h
    split
    · split <;> rfl
    · rfl

-- A row of the picker holds one of the categories.
theorem handle_label (h : vc.handle auth e = .ok vc') :
    vc'.categorySelectedLabel = vc.categorySelectedLabel ∨
      ∃ s ∈ vc.categories, vc'.categorySelectedLabel.text = some s := by
  cases e
  case pickCategory row =>
    simp only [handle, pickerViewDidSelectRow, bind_eq_ok, element_eq_ok, pure_eq_ok] at h
    obtain ⟨s, hs, rfl⟩ := h
    exact .inr ⟨s, List.mem_of_getElem? hs, rfl⟩
  all_goals
    simp only [handle, textEditingChanged, textViewDidChange, datePickerChanged, updateDateSelected,
      didSelectRowAt, Except.ok.injEq] at h
    subst h
    refine .inl ?_
  case editText        => split <;> simp [setText, setTextField]
  case editDescription => simp
  case pickDate        => rfl
  case tapRow          =>
    split
    · split <;> rfl
    · rfl

-- The button is up to date with the contents of the form.
def SaveButtonUpToDate (auth : Auth) (vc : AddItemTableViewController) : Prop :=
  ∀ b, vc.saveButton = some b → b.isEnabled = (vc.validateInput && auth.currentUser.isSome)

theorem updateSaveButtonState_upToDate (auth : Auth) (vc : AddItemTableViewController) :
    (vc.updateSaveButtonState auth).SaveButtonUpToDate auth := by
  rw [updateSaveButtonState_eq]
  intro b hb
  have ⟨_, _, hb⟩ := Option.map_eq_some_iff.mp hb
  exact hb ▸ rfl

-- An event either updates the button or changes nothing that the check reads.
theorem handle_upToDate (h : vc.handle auth e = .ok vc') (hu : vc.SaveButtonUpToDate auth) :
    vc'.SaveButtonUpToDate auth := by
  have unread (hb : vc'.saveButton = vc.saveButton)
      (ht : ∀ f, f.isWired → (vc'.textField f).contents = (vc.textField f).contents)
      (hd : vc'.descriptionTextView.contents = vc.descriptionTextView.contents) :
      vc'.SaveButtonUpToDate auth := by
    intro b h
    rw [validateInput_congr ht hd]
    exact hu b (hb ▸ h)
  cases e
  case editText f s =>
    simp only [handle, Except.ok.injEq] at h
    subst h
    split
    case isTrue       => exact updateSaveButtonState_upToDate auth _
    case isFalse hf   =>
      rw [if_neg hf] at unread
      refine unread rfl (fun g hg => ?_) rfl
      have hne : g ≠ f := by rintro rfl; exact hf hg
      simp [setText, setTextField_of_ne hne]
  case editDescription s =>
    simp only [handle, textViewDidChange, Except.ok.injEq] at h
    subst h
    exact updateSaveButtonState_upToDate auth _
  case pickCategory row =>
    simp only [handle, pickerViewDidSelectRow, bind_eq_ok, pure_eq_ok] at h
    obtain ⟨_, -, rfl⟩ := h
    exact unread rfl (fun _ _ => rfl) rfl
  case pickDate d =>
    simp only [handle, Except.ok.injEq] at h
    subst h
    exact unread rfl (fun _ _ => rfl) rfl
  case tapRow section' row =>
    simp only [handle, Except.ok.injEq, didSelectRowAt] at h
    subst h
    split
    · split <;> exact hu
    · exact hu

-- No event that the form allows traps.
theorem handle_ok (ha : vc.Allows e) : ∃ vc', vc.handle auth e = .ok vc' := by
  cases e
  case pickCategory row =>
    have ⟨_, hr⟩ : ∃ s, vc.categories[row]? = some s := by simp_all [Allows]
    exact ⟨_, by simp [handle, pickerViewDidSelectRow, element, hr]; rfl⟩
  all_goals exact ⟨_, rfl⟩

end LosTrouvee.AddItemTableViewController
