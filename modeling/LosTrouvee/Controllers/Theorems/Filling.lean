import LosTrouvee.Controllers.Theorems.Pickers
import LosTrouvee.Library.TransitionSystem

namespace LosTrouvee.AddItemTableViewController

open TextField

-- What the user does on a form. Every form can be the first one.
def editing (auth : Auth) : TransitionSystem AddItemTableViewController FormEvent where
  Init _ := True
  Step vc e vc' := vc.Allows e ∧ vc.handle auth e = .ok vc'

-- A form that takes every input. It was loaded at the given time.
structure Editable (auth : Auth) (loaded : Date) (vc : AddItemTableViewController) : Prop where
  consistent  : vc.Consistent auth true
  isHidden    : ∀ f, (vc.textField f).isHidden = false
  maximumDate : vc.datePicker.maximumDate = some loaded

variable {vc vc' : AddItemTableViewController} {auth : Auth} {e : FormEvent} {es : List FormEvent}
  {realm : Realm} {loaded now : Date} {x y : Item Place Contact} {k : Key} {b : Bool}

@[simp]
theorem updateSaveButtonState_textField (auth : Auth) (vc : AddItemTableViewController) :
    (vc.updateSaveButtonState auth).textField = vc.textField := by
  rw [updateSaveButtonState_eq]

theorem setText_isHidden (f g : TextField) (s : Option String) :
    ((vc.setText f s).textField g).isHidden = (vc.textField g).isHidden := by
  by_cases h : g = f
  case pos => subst h; simp [setText, UITextField.setText]
  case neg => simp [setText, setTextField_of_ne h]

theorem handle_isHidden (h : vc.handle auth e = .ok vc') (f : TextField) :
    (vc'.textField f).isHidden = (vc.textField f).isHidden := by
  cases e
  case editText g s =>
    simp only [handle, textEditingChanged, Except.ok.injEq] at h
    subst h
    split <;> simp [setText_isHidden]
  case editDescription s =>
    simp only [handle, textViewDidChange, Except.ok.injEq] at h
    subst h
    simp
  case pickCategory row =>
    simp only [handle, pickerViewDidSelectRow, bind_eq_ok, pure_eq_ok] at h
    obtain ⟨_, -, rfl⟩ := h
    rfl
  case pickDate d =>
    simp only [handle, Except.ok.injEq] at h
    subst h
    rfl
  case tapRow section' row =>
    simp only [handle, Except.ok.injEq, didSelectRowAt] at h
    subst h
    split
    · split <;> rfl
    · rfl

theorem handle_editable (h : vc.handle auth e = .ok vc') (hv : vc.Editable auth loaded) :
    vc'.Editable auth loaded where
  consistent  := handle_consistent h hv.consistent
  isHidden f  := (handle_isHidden h f).trans (hv.isHidden f)
  maximumDate := (handle_frame h).maximumDate.trans hv.maximumDate

-- The picker of a category is opened by a tap on the row above it, and so is that of the date.

theorem Editable.openCategory (hv : vc.Editable auth loaded) :
    ∃ es vc', (editing auth).Run vc es vc' ∧ vc'.Editable auth loaded ∧
      vc'.isCategoryPickerHidden = false ∧ ∀ e ∈ es, e.field? = none := by
  cases hp : vc.isCategoryPickerHidden
  case false => exact ⟨[], vc, .refl, hv, hp, by simp⟩
  case true  =>
    have h : vc.handle auth (.tapRow 0 1) = .ok { vc with isCategoryPickerHidden := false } := by
      simp [handle, didSelectRowAt, hv.consistent.editingEnabled, hp]
    exact ⟨_, _, .single ⟨rfl, h⟩, handle_editable h hv, rfl, by simp [FormEvent.field?]⟩

theorem Editable.openDate (hv : vc.Editable auth loaded) :
    ∃ es vc', (editing auth).Run vc es vc' ∧ vc'.Editable auth loaded ∧
      vc'.isDatePickerHidden = false ∧ ∀ e ∈ es, e.field? = none := by
  cases hp : vc.isDatePickerHidden
  case false => exact ⟨[], vc, .refl, hv, hp, by simp⟩
  case true  =>
    have h : vc.handle auth (.tapRow 0 2) = .ok { vc with isDatePickerHidden := false } := by
      simp [handle, didSelectRowAt, hv.consistent.editingEnabled, hp]
    exact ⟨_, _, .single ⟨rfl, h⟩, handle_editable h hv, rfl, by simp [FormEvent.field?]⟩

theorem editing_frame (r : (editing auth).Run vc es vc') :
    vc'.item = vc.item ∧ vc'.isLostItem = vc.isLostItem := by
  induction r
  case refl        => exact ⟨rfl, rfl⟩
  case step h _ hi =>
    have hf := handle_frame h.right
    exact ⟨hi.left.trans hf.item, hi.right.trans hf.isLostItem⟩

section

variable [Unicode]

-- Events change the inputs that they are for.
theorem editing_value {f : Field} (r : (editing auth).Run vc es vc')
    (hf : ∀ e ∈ es, e.field? ≠ some f) : vc'.value f = vc.value f := by
  induction r
  case refl        => rfl
  case step h _ hi =>
    have ⟨hf, hfs⟩ := List.forall_mem_cons.mp hf
    exact (hi hfs).trans (handle_value h.right hf)

-- The last event of a run sets an input, and the others before it none.
theorem Editable.fill {vc₁ vc₂ : AddItemTableViewController} {f : Field} {v : Value}
    (r : (editing auth).Run vc es vc₁) (hv : vc₁.Editable auth loaded)
    (hn : ∀ e ∈ es, e.field? = none) (he : e.field? = some f) (ha : vc₁.Allows e)
    (h : vc₁.handle auth e = .ok vc₂) (hf : vc₂.value f = v) :
    ∃ es vc', (editing auth).Run vc es vc' ∧ vc'.Editable auth loaded ∧ vc'.value f = v ∧
      ∀ g ≠ f, vc'.value g = vc.value g := by
  refine ⟨es ++ [e], vc₂, r.concat ⟨ha, h⟩, handle_editable h hv, hf, fun g hg => ?_⟩
  have hg : some f ≠ some g := fun h => hg (Option.some.inj h).symm
  exact (handle_value h (he ▸ hg)).trans (editing_value r fun e he => by simp [hn e he])

theorem handle_editText_value {f : TextField} {s : String}
    (h : vc.handle auth (.editText f s) = .ok vc') : vc'.value (.text f) = .inl (some s) := by
  simp only [handle, textEditingChanged, Except.ok.injEq] at h
  subst h
  split <;> simp [value, setText, UITextField.setText]

-- Every input can be given the value that it has for a well-formed item.
theorem Editable.fillField (hv : vc.Editable auth loaded) (hy : y.WellFormed)
    (ht : y.timestamp ≤ loaded) (f : Field) :
    ∃ es vc', (editing auth).Run vc es vc' ∧ vc'.Editable auth loaded ∧
      vc'.value f = y.value f ∧ ∀ g ≠ f, vc'.value g = vc.value g := by
  have hc := hv.consistent
  cases f
  case text f =>
    obtain ⟨_, hp, _⟩ := hy.place
    obtain ⟨_, hq, _⟩ := hy.contact
    obtain ⟨s, hs⟩ : ∃ s, y.text f = some s := ⟨_, Item.text_eq_itemText hp hq f⟩
    have ha : vc.Allows (.editText f s) := by
      simp [Allows, hc.isEnabled f, hv.isHidden f]
    refine Editable.fill (e := .editText f s) .refl hv (by simp) rfl ha rfl ?_
    rw [handle_editText_value rfl, Item.value, hs]
  case description =>
    refine Editable.fill (e := .editDescription y.itemDescription) .refl hv (by simp) rfl
      hc.isEditable rfl ?_
    simp only [textViewDidChange, updateSaveButtonState_value]
    rfl
  case category =>
    obtain ⟨es, vc₁, r, hv₁, hp, hn⟩ := hv.openCategory
    have hc := hv₁.consistent
    obtain ⟨c, hr⟩ := hy.categoryRaw
    obtain ⟨row, hl, hs⟩ := List.getElem_of_mem (mem_categoryTitles_iff.mpr ⟨c, rfl⟩)
    have hs : vc₁.categories[row]? = some c.title := by
      rw [hc.categories]
      exact List.getElem?_eq_some_iff.mpr ⟨hl, hs⟩
    have ha : vc₁.Allows (.pickCategory row) := by
      simpa [Allows, hc.categoryPicker, hp, hc.categories] using hl
    obtain ⟨vc₂, h, hl⟩ : ∃ vc₂, vc₁.handle auth (.pickCategory row) = .ok vc₂ ∧
        vc₂.categorySelectedLabel.text = some c.title := by
      simp only [handle, pickerViewDidSelectRow, element, hs]
      exact ⟨_, rfl, rfl⟩
    refine Editable.fill r hv₁ hn rfl ha h ?_
    simp [value, Item.value, hl, c.lowercased_title, hr]
  case date =>
    obtain ⟨es, vc₁, r, hv₁, hp, hn⟩ := hv.openDate
    have ha : vc₁.Allows (.pickDate y.timestamp) := by
      simp [Allows, hv₁.consistent.datePicker, hp]
    refine Editable.fill r hv₁ hn rfl ha rfl ?_
    simp [value, Item.value, datePickerChanged, updateDateSelected, UIDatePicker.setDate,
      UIDatePicker.clamp, hv₁.maximumDate, ht]

theorem Editable.fillFields (hv : vc.Editable auth loaded) (hy : y.WellFormed)
    (ht : y.timestamp ≤ loaded) (fs : List Field) :
    ∃ es vc', (editing auth).Run vc es vc' ∧ vc'.Editable auth loaded ∧
      (∀ f ∈ fs, vc'.value f = y.value f) ∧ ∀ f ∉ fs, vc'.value f = vc.value f := by
  induction fs generalizing vc
  case nil => exact ⟨[], vc, .refl, hv, by simp, fun _ _ => rfl⟩
  case cons f fs hi =>
    have ⟨es₁, vc₁, r₁, hv₁, hf, hn⟩ := hv.fillField hy ht f
    have ⟨es₂, vc₂, r₂, hv₂, hfs, hns⟩ := hi hv₁
    refine ⟨es₁ ++ es₂, vc₂, r₁.append r₂, hv₂, fun g hg => ?_, fun g hg => ?_⟩
    · by_cases hm : g ∈ fs
      case pos => exact hfs g hm
      case neg =>
        obtain rfl : g = f := by simpa [hm] using hg
        exact (hns g hm).trans hf
    · simp only [List.mem_cons, not_or] at hg
      exact (hns g hg.right).trans (hn g hg.left)

def Field.all : List Field :=
  [.text titleTextField, .text placeNameTextField, .text placeStreetTextField,
    .text placeNrTextField, .text placePostalTextField, .text placeCityTextField,
    .text contactFirstameTextField, .text contactLastnameTextField, .text contactEmailTextField,
    .text contactMobileTextField, .text contactTelTextField, .description, .category, .date]

omit [Unicode] in
theorem Field.mem_all (f : Field) : f ∈ all := by
  rcases f with f | _ | _ | _
  case text => cases f <;> decide
  all_goals decide

-- A form that shows a well-formed item is complete.
theorem complete_of_value (hv : ∀ f, vc.value f = y.value f) (hy : y.WellFormed) :
    vc.Complete := by
  have ⟨place, hp, hpw⟩ := hy.place
  have ⟨contact, hc, hcw⟩ := hy.contact
  have text (f : TextField) : (vc.textField f).contents = itemText y place contact f := by
    simpa [value, Item.value, Item.text_eq_itemText hp hc] using hv (.text f)
  have hd : vc.descriptionTextView.contents = y.itemDescription := by
    simpa [value, Item.value, UITextView.text] using hv .description
  exact {
    title       := text titleTextField ▸ hy.title
    description := hd ▸ hy.itemDescription
    street      := text placeStreetTextField ▸ hpw.street
    postalCode  := text placePostalTextField ▸ hpw.postalCode
    city        := text placeCityTextField ▸ hpw.city
    firstname   := text contactFirstameTextField ▸ hcw.firstname
    lastname    := text contactLastnameTextField ▸ hcw.lastname
    email       := text contactEmailTextField ▸ hcw.email
    tel         := text contactTelTextField ▸ hcw.tel
    mobile      := text contactMobileTextField ▸ hcw.mobile }

-- Every well-formed item can be typed into a form, which then offers to save it.
theorem Editable.fillIn (hv : vc.Editable auth loaded) (hy : y.WellFormed)
    (ht : y.timestamp ≤ loaded) (hu : auth.email = some y.userEmail)
    (hf : (!vc.isLostItem) = y.found) : ∃ es vc', (editing auth).Run vc es vc' ∧
      vc'.saveButton.any (·.isEnabled) ∧ vc'.newItem auth y.timeAdded = .ok y := by
  have ⟨es, vc', r, hv', hs, _⟩ := hv.fillFields hy ht Field.all
  have hs (f : Field) : vc'.value f = y.value f := hs f (Field.mem_all f)
  have hc := complete_of_value hs hy
  refine ⟨es, vc', r, ?_, ?_⟩
  · have ⟨button, hb⟩ : ∃ button, vc'.saveButton = some button :=
      Option.isSome_iff_exists.mp hv'.consistent.saveButton
    have hu : auth.currentUser.isSome := by simp [Auth.email_eq_some_iff.mp hu]
    simp [hb, hv'.consistent.upToDate button hb, validateInput_iff.mpr hc, hu]
  · have ⟨_, hl⟩ := hv'.consistent.label
    have ⟨z, hz⟩ : ∃ z, vc'.newItem auth y.timeAdded = .ok z := newItem_ok hl hu
    have ⟨hzv, hzf, hzu, hzt⟩ := newItem_spec hz
    have hf : z.found = y.found := by rw [hzf, (editing_frame r).right, hf]
    have hu : z.userEmail = y.userEmail := Option.some.inj (hzu.symm.trans hu)
    have he := Item.eq_of_value_eq (newItem_wellFormed hz hc) hy
      (fun f => (hzv f).trans (hs f)) hf hu hzt
    exact hz.trans (congrArg _ he)

-- A form takes every input once it is loaded, if it is for a new item or for the owner of its item.

theorem viewDidLoad_new_editable
    (h : ({ isLostItem := b } : AddItemTableViewController).viewDidLoad realm auth now = .ok vc) :
    vc.Editable auth now where
  consistent  := (viewDidLoad_new_spec h).right.right
  maximumDate := (viewDidLoad_new_inSync h).maximumDate
  isHidden f  := by
    rw [viewDidLoad_new_eq, Except.ok.injEq] at h
    subst h
    rw [finishLoading, updateSaveButtonState_textField]
    cases hu : auth.currentUser <;> simp only [showNew, hu]
    exact setText_isHidden ..

theorem viewDidLoad_details_editable
    (h : ({ isLostItem := b, item := some (.managed k) } : AddItemTableViewController).viewDidLoad
      realm auth now = .ok vc) (hx : realm.find? k = some x)
    (hu : auth.email = some x.userEmail) : vc.Editable auth now where
  consistent  := by simpa [hu] using (viewDidLoad_details_spec h hx).right.right
  maximumDate := (viewDidLoad_details_inSync h hx).maximumDate
  isHidden f  := by
    obtain ⟨vc', hd, rfl⟩ := (viewDidLoad_details_eq_ok hx).mp h
    simp only [showDetails, Auth.isCurrentUser_eq_ok, hu, beq_self_eq_true, if_true, bind_eq_ok,
      Except.ok.injEq, exists_eq_left', pure_eq_ok] at hd
    obtain ⟨_, _, _, _, _, _, _, _, rfl⟩ := updateInputFields_eq_ok.mp hd
    simp [finishLoading, UITextField.setText, enableEditing]

end

end LosTrouvee.AddItemTableViewController
