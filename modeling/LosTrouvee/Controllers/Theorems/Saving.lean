import LosTrouvee.Controllers.Theorems.Loading

namespace LosTrouvee

open AddItemTableViewController TextField

variable {x y : Item Place Contact}

-- An item with a place and a contact is determined by what the form shows of it, but for three
-- properties that are not on the form.
theorem Item.eq_of_value_eq (hx : x.WellFormed) (hy : y.WellFormed)
    (hv : ∀ f, x.value f = y.value f) (hf : x.found = y.found) (hu : x.userEmail = y.userEmail)
    (ht : x.timeAdded = y.timeAdded) : x = y := by
  have ⟨p, hp, _⟩ := hx.place
  have ⟨q, hq, _⟩ := hy.place
  have ⟨c, hc, _⟩ := hx.contact
  have ⟨d, hd, _⟩ := hy.contact
  have text (f : TextField) : itemText x p c f = itemText y q d f := by
    simpa [Item.value, text_eq_itemText hp hc, text_eq_itemText hq hd] using hv (.text f)
  have h₁ : x.itemDescription = y.itemDescription := by simpa [Item.value] using hv .description
  have h₂ : x.categoryRaw = y.categoryRaw := by simpa [Item.value] using hv .category
  have h₃ : x.timestamp = y.timestamp := by simpa [Item.value] using hv .date
  have h₄ : x.title = y.title := text titleTextField
  have h₅ : p = q := by
    rw [Place.mk.injEq]
    exact ⟨text placePostalTextField, text placeCityTextField, text placeStreetTextField,
      text placeNrTextField, text placeNameTextField⟩
  have h₆ : c = d := by
    rw [Contact.mk.injEq]
    exact ⟨text contactFirstameTextField, text contactLastnameTextField,
      text contactEmailTextField, text contactTelTextField, text contactMobileTextField⟩
  cases x
  cases y
  simp_all

namespace AddItemTableViewController

variable {vc vc' vc₀ : AddItemTableViewController} {auth : Auth} {realm : Realm} {now : Date}
  {b : Bool} {es : List FormEvent}

theorem handleAll_consistent (h : es.foldlM (handle auth) vc = .ok vc')
    (hc : vc.Consistent auth b) :
    vc'.Consistent auth b :=
  foldlM_preserves (fun _ _ _ _ => handle_consistent) h hc

section

variable [Unicode]

theorem newItem_eq_ok : vc.newItem auth now = .ok y ↔
    ∃ label category userEmail, vc.categorySelectedLabel.text = some label ∧
      Category.ofRawValue (Unicode.lowercased label) = some category ∧
      auth.email = some userEmail ∧
      Item.init (vc.textField titleTextField).contents vc.descriptionTextView.contents
        (!vc.isLostItem) category
        { postalCode := (vc.textField placePostalTextField).contents
          city       := (vc.textField placeCityTextField).contents
          street     := (vc.textField placeStreetTextField).contents
          nr         := (vc.textField placeNrTextField).contents
          placeName  := (vc.textField placeNameTextField).contents }
        { firstname  := (vc.textField contactFirstameTextField).contents
          lastname   := (vc.textField contactLastnameTextField).contents
          email      := (vc.textField contactEmailTextField).contents
          tel        := (vc.textField contactTelTextField).contents
          mobile     := (vc.textField contactMobileTextField).contents }
        vc.datePicker.date userEmail now = y := by
  simp only [newItem, bind_eq_ok, unwrap_eq_ok, pure_eq_ok, text_eq, UITextView.text,
    Option.some.injEq, exists_eq_left', Auth.email, Option.bind_eq_some_iff]
  grind

theorem newItem_spec (h : vc.newItem auth now = .ok y) :
    (∀ f, y.value f = vc.value f) ∧ y.found = !vc.isLostItem ∧ auth.email = some y.userEmail ∧
      y.timeAdded = now := by
  have ⟨label, category, userEmail, hl, hc, hu, hy⟩ := newItem_eq_ok.mp h
  subst hy
  refine ⟨fun f => ?_, rfl, hu, rfl⟩
  cases f
  case text f      => cases f <;> rfl
  case description => rfl
  case date        => rfl
  case category    => simp [Item.value, value, Item.init, hl, Category.rawValue_of_ofRawValue hc]

theorem newItem_parts (h : vc.newItem auth now = .ok y) :
    ∃ place contact, y.place = some place ∧ y.contact = some contact := by
  have ⟨_, _, _, _, _, _, hy⟩ := newItem_eq_ok.mp h
  subst hy
  exact ⟨_, _, rfl, rfl⟩

-- The check of the form is the one that its item is well formed.
theorem newItem_wellFormed (h : vc.newItem auth now = .ok y) (hc : vc.Complete) : y.WellFormed := by
  have ⟨label, category, userEmail, _, _, _, hy⟩ := newItem_eq_ok.mp h
  subst hy
  exact {
    title           := hc.title
    itemDescription := hc.description
    place           := ⟨_, rfl, hc.street, hc.postalCode, hc.city⟩
    contact         := ⟨_, rfl, hc.firstname, hc.lastname, hc.email, hc.tel, hc.mobile⟩
    categoryRaw     := ⟨category, rfl⟩ }

theorem newItem_ok {c : Category} {userEmail : String}
    (hl : vc.categorySelectedLabel.text = some c.title) (hu : auth.email = some userEmail) :
    ∃ y, vc.newItem auth now = .ok y :=
  ⟨_, newItem_eq_ok.mpr
    ⟨c.title, c, userEmail, hl, c.lowercased_title ▸ c.ofRawValue_rawValue, hu, rfl⟩⟩

end

-- A form for a new item makes the list it returns to the list of lost items.
theorem prepare_save [Unicode] (list : ItemsTableViewController) :
    vc.prepare .saveUnwind auth now list = do
      let item ← vc.newItem auth now
      return ({ vc with item := some (.unmanaged item) },
        { list with isLostList := vc.item.isNone || vc.isLostItem }) := by
  cases hi : vc.item <;> simp [prepare, hi]

-- The save button of a form after any sequence of events. It is there for a new item and for the
-- owner of an item, and it is enabled if and only if the form can be saved.
theorem saveButton_correct [Unicode] {item : Option Key}
    (h₀ : ({ isLostItem := b, item := item.map .managed } : AddItemTableViewController).viewDidLoad
      realm auth now = .ok vc₀) (h : es.foldlM (handle auth) vc₀ = .ok vc) :
    (vc.saveButton.isSome ↔
      ∀ k, item = some k → ∃ x, realm.find? k = some x ∧ auth.email = some x.userEmail) ∧
    (∀ button, vc.saveButton = some button →
      (button.isEnabled ↔ auth.currentUser.isSome ∧ vc.Complete)) ∧
    ∀ f s, f = placeNameTextField ∨ f = placeNrTextField →
      (vc.handle auth (.editText f s)).map saveButton = .ok vc.saveButton := by
  have ⟨editable, hc₀, he⟩ : ∃ editable, vc₀.Consistent auth editable ∧ (editable ↔
      ∀ k, item = some k → ∃ x, realm.find? k = some x ∧ auth.email = some x.userEmail) := by
    cases item
    case none   =>
      have ⟨_, _, hc⟩ := viewDidLoad_new_spec h₀
      exact ⟨_, hc, by simp⟩
    case some k =>
      have ⟨x, hx⟩ := viewDidLoad_details_found h₀
      have ⟨_, _, hc⟩ := viewDidLoad_details_spec h₀ hx
      exact ⟨_, hc, by simp [hx]⟩
  have hc := handleAll_consistent h hc₀
  refine ⟨hc.saveButton ▸ he, fun button hb => ?_, ?_⟩
  · rw [hc.upToDate button hb, Bool.and_eq_true, validateInput_iff, and_comm]
  · rintro f s (rfl | rfl) <;> rfl

section

attribute [local instance] Unicode.ascii

theorem saveButton_correct_newItem :
    let auth := Auth.restore (some "a@b.cc")
    ∃ vc, [FormEvent.editText titleTextField "Keys", .tapRow 0 1, .pickCategory 3].foldlM (handle auth)
        (finishLoading auth 0 <| showNew auth { categories := categoryTitles }) = .ok vc ∧
      vc.saveButton.isSome ∧
      ∀ button, vc.saveButton = some button →
        (button.isEnabled ↔ auth.currentUser.isSome ∧ vc.Complete) := by
  intro auth
  have ⟨vc, h⟩ : ∃ vc, [FormEvent.editText titleTextField "Keys", .tapRow 0 1, .pickCategory 3].foldlM
      (handle auth) (finishLoading auth 0 <| showNew auth { categories := categoryTitles }) = .ok vc :=
    ⟨_, rfl⟩
  have h₀ : ({ item := none.map .managed } : AddItemTableViewController).viewDidLoad .empty auth 0 =
      .ok _ := viewDidLoad_new_eq
  have ⟨hs, he, _⟩ := saveButton_correct h₀ h
  exact ⟨vc, h, hs.mpr (by simp), he⟩

end

end AddItemTableViewController
end LosTrouvee
