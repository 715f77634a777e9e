import LosTrouvee.Controllers.ItemsTableViewController
import LosTrouvee.Objects.Validation
import Mathlib.Data.List.Sort
import Mathlib.Data.String.Basic

namespace LosTrouvee

-- The text fields of the form by their outlets.
inductive TextField
  | titleTextField
  | placeNameTextField
  | placeStreetTextField
  | placeNrTextField
  | placePostalTextField
  | placeCityTextField
  | contactFirstameTextField
  | contactLastnameTextField
  | contactEmailTextField
  | contactMobileTextField
  | contactTelTextField
  deriving DecidableEq

-- The storyboard connects the event `editingChanged` of every text field but two to
-- `textEditingChanged(_:)`.
def TextField.isWired : TextField → Bool
  | placeNameTextField | placeNrTextField => false
  | _ => true

-- The date that the storyboard gives to the date picker.
def storyboardDate : Date :=
  56752974806514895

-- The form for a new item (`item` is `nil`) and for the details of an item. The outlets of the two
-- buttons are weak and the navigation item holds the only other reference to them, so a button that
-- is not shown is `nil`.
structure AddItemTableViewController where
  isLostItem             : Bool := true
  categories             : List String := []
  isCategoryPickerHidden : Bool := true
  isDatePickerHidden     : Bool := true
  item                   : Option ItemObject := none
  navigationTitle        : String := "New Item"
  textField              : TextField → UITextField := fun _ => {}
  categorySelectedLabel  : UILabel := { text := some "Other" }
  categoryPicker         : UIPickerView := {}
  dateLabel              : UILabel := { text := some "Date" }
  -- The date that the label formats.
  dateSelectedLabel      : Date := storyboardDate
  datePicker             : UIDatePicker := { date := storyboardDate }
  descriptionTextView    : UITextView := {}
  saveButton             : Option UIBarButtonItem := some {}
  foundButton            : Option UIBarButtonItem := some {}
  editingEnabled         : Bool := false

namespace AddItemTableViewController

open TextField

def text (vc : AddItemTableViewController) (f : TextField) : Option String :=
  (vc.textField f).text

def setTextField (vc : AddItemTableViewController) (f : TextField) (field : UITextField) :
    AddItemTableViewController :=
  { vc with textField := Function.update vc.textField f field }

def setText (vc : AddItemTableViewController) (f : TextField) (text : Option String) :
    AddItemTableViewController :=
  vc.setTextField f ((vc.textField f).setText text)

-- `isValidEmail(testStr:)`
def isValidEmail (testStr : String) : Bool :=
  Validation.selfMatches Validation.emailRegEx testStr

-- `isValidTelNr(testStr:)`
def isValidTelNr (testStr : String) : Bool :=
  Validation.selfMatches Validation.telRegex testStr

-- The test `text == nil || text == ""`.
def isBlank (text : Option String) : Bool :=
  text == none || text == some ""

-- The test `text != nil && text != "" && !isValidTelNr(testStr: text!)`.
def isInvalidTelNr (text : Option String) : Bool :=
  match text with
  | none   => false
  | some s => s != "" && !isValidTelNr s

def validateInput (vc : AddItemTableViewController) : Bool :=
  if isBlank (vc.text titleTextField) then false
  else if isBlank vc.descriptionTextView.text then false
  else if isBlank (vc.text placeStreetTextField) then false
  else if isBlank (vc.text placePostalTextField) then false
  else if isBlank (vc.text placeCityTextField) then false
  else if isBlank (vc.text contactFirstameTextField) then false
  else if isBlank (vc.text contactLastnameTextField) then false
  else if (vc.text contactEmailTextField).all fun s => !isValidEmail s then false
  else if isInvalidTelNr (vc.text contactTelTextField) then false
  else if isInvalidTelNr (vc.text contactMobileTextField) then false
  else true

def updateSaveButtonState (auth : Auth) (vc : AddItemTableViewController) :
    AddItemTableViewController :=
  match vc.saveButton with
  | some _ =>
    { vc with saveButton := some { isEnabled := vc.validateInput && auth.currentUser.isSome } }
  | none => vc

def updateDateSelected (date : Date) (vc : AddItemTableViewController) :
    AddItemTableViewController :=
  { vc with dateSelectedLabel := date }

def enableEditing (enabled : Bool) (vc : AddItemTableViewController) :
    AddItemTableViewController :=
  { vc with
    editingEnabled      := enabled
    textField           := fun f => { vc.textField f with isEnabled := enabled }
    categoryPicker      := { vc.categoryPicker with isHidden := !enabled }
    datePicker          := { vc.datePicker with isHidden := !enabled }
    descriptionTextView := { vc.descriptionTextView with isEditable := enabled } }

def setPlaceholder (f : TextField) (placeholder : String) (vc : AddItemTableViewController) :
    AddItemTableViewController :=
  vc.setTextField f { vc.textField f with placeholder := some placeholder }

def hide (f : TextField) (vc : AddItemTableViewController) : AddItemTableViewController :=
  vc.setTextField f { vc.textField f with isHidden := true }

def fillOrHideEmptyFields (item : Item Place Contact) (vc : AddItemTableViewController) :
    Except Trap AddItemTableViewController := do
  let place ← unwrap item.place
  let vc := if place.placeName.isEmpty then
    vc.setPlaceholder placeNameTextField "No name available" else vc
  let vc := if place.nr.isEmpty then vc.hide placeNrTextField else vc
  let contact ← unwrap item.contact
  if contact.mobile.isEmpty && contact.tel.isEmpty then
    return vc.setPlaceholder contactMobileTextField "No mobile number"
      |>.setPlaceholder contactTelTextField "No telephone number"
  else if contact.mobile.isEmpty then
    return vc.hide contactMobileTextField
  else if contact.tel.isEmpty then
    return vc.hide contactTelTextField
  else
    return vc

-- The texts that `updateInputFields(with:)` puts into the text fields.
def itemText (item : Item Place Contact) (place : Place) (contact : Contact) : TextField → String
  | titleTextField           => item.title
  | placeNameTextField       => place.placeName
  | placeStreetTextField     => place.street
  | placeNrTextField         => place.nr
  | placePostalTextField     => place.postalCode
  | placeCityTextField       => place.city
  | contactFirstameTextField => contact.firstname
  | contactLastnameTextField => contact.lastname
  | contactEmailTextField    => contact.email
  | contactTelTextField      => contact.tel
  | contactMobileTextField   => contact.mobile

section

variable [Unicode]

def updateInputFields (item : Item Place Contact) (vc : AddItemTableViewController) :
    Except Trap AddItemTableViewController := do
  let category ← Unicode.capitalized item.categoryRaw
  let row ← unwrap (vc.categories.idxOf? category)
  let place ← unwrap item.place
  let contact ← unwrap item.contact
  return { vc with
    navigationTitle       := item.title
    textField             := fun f => (vc.textField f).setText (itemText item place contact f)
    categorySelectedLabel := { text := some category }
    categoryPicker        := { vc.categoryPicker with selectedRow := row }
    datePicker            := vc.datePicker.setDate item.timestamp
    descriptionTextView   := { vc.descriptionTextView with contents := item.itemDescription } }

-- The loop at the start of `viewDidLoad`.
def loadCategories : Except Trap (List String) := do
  let titles ← (Category.allCases.filter (·.rawValue != "other")).mapM fun cat =>
    Unicode.capitalized cat.rawValue
  return "Other" :: titles.insertionSort (· ≤ ·)

-- The part of `viewDidLoad` for the details of an item.
def showDetails (auth : Auth) (item : Item Place Contact) (vc : AddItemTableViewController) :
    Except Trap AddItemTableViewController := do
  let vc ← if ← auth.isCurrentUser item.userEmail then
    pure <| vc.enableEditing true
  else
    -- Without bar button items both buttons are released.
    let vc := { vc with saveButton := none, foundButton := none }
    (vc.enableEditing false).fillOrHideEmptyFields item
  vc.updateInputFields item

-- The part of `viewDidLoad` for a new item. The found button is not among the bar button items.
def showNew (auth : Auth) (vc : AddItemTableViewController) : AddItemTableViewController :=
  let vc := { vc with
    editingEnabled  := true
    foundButton     := none
    navigationTitle := if vc.isLostItem then "New lost item" else "New found item"
    categoryPicker  := { vc.categoryPicker with selectedRow := 0 } }
  match auth.currentUser with
  | some user => vc.setText contactEmailTextField user.email
  | none      => vc

-- `now` is the current time.
def viewDidLoad (realm : Realm) (auth : Auth) (now : Date) (vc : AddItemTableViewController) :
    Except Trap AddItemTableViewController := do
  let vc := { vc with categories := ← loadCategories }
  let vc ← match vc.item with
    | some (.managed key)    => do vc.showDetails auth (← realm.read key)
    | some (.unmanaged item) => vc.showDetails auth item
    | none                   => pure <| vc.showNew auth
  let vc := { vc with
    dateLabel  := { text := some (if vc.isLostItem then "Lost on" else "Found on") }
    datePicker := vc.datePicker.setMaximumDate now }
  return vc.updateDateSelected vc.datePicker.date |>.updateSaveButtonState auth

def textEditingChanged (auth : Auth) (vc : AddItemTableViewController) :
    AddItemTableViewController :=
  vc.updateSaveButtonState auth

def datePickerChanged (vc : AddItemTableViewController) : AddItemTableViewController :=
  vc.updateDateSelected vc.datePicker.date

def textViewDidChange (auth : Auth) (vc : AddItemTableViewController) :
    AddItemTableViewController :=
  vc.updateSaveButtonState auth

-- `pickerView(_:didSelectRow:inComponent:)`
def pickerViewDidSelectRow (row : Nat) (vc : AddItemTableViewController) :
    Except Trap AddItemTableViewController := do
  let category ← element vc.categories row
  return { vc with categorySelectedLabel := { text := some category } }

-- `tableView(_:didSelectRowAt:)` opens and closes the pickers.
def didSelectRowAt (section' row : Nat) (vc : AddItemTableViewController) :
    AddItemTableViewController :=
  if vc.editingEnabled then
    match section', row with
    | 0, 1 => { vc with isCategoryPickerHidden := !vc.isCategoryPickerHidden }
    | 0, 2 => { vc with isDatePickerHidden := !vc.isDatePickerHidden }
    | _, _ => vc
  else
    vc

-- `tableView(_:heightForRowAt:)`
def heightForRowAt (section' row : Nat) (vc : AddItemTableViewController) : Nat :=
  let normalCellHeight := 44
  let mediumCellHeight := 150
  let largeCellHeight := 200
  match section', row with
  | 0, 1 => if vc.isCategoryPickerHidden then normalCellHeight else largeCellHeight
  | 0, 2 => if vc.isDatePickerHidden then normalCellHeight else largeCellHeight
  | 1, 0 => mediumCellHeight
  | _, _ => normalCellHeight

-- `pickerView(_:numberOfRowsInComponent:)` for the only component of the picker.
def numberOfRowsInComponent (vc : AddItemTableViewController) : Nat :=
  vc.categories.length

-- `pickerView(_:titleForRow:forComponent:)`
def titleForRow (row : Nat) (vc : AddItemTableViewController) : Except Trap String :=
  element vc.categories row

-- The item that a form is saved as.
def newItem (auth : Auth) (now : Date) (vc : AddItemTableViewController) :
    Except Trap (Item Place Contact) := do
  let title ← unwrap (vc.text titleTextField)
  let category ← unwrap <|
    Category.ofRawValue (Unicode.lowercased (← unwrap vc.categorySelectedLabel.text))
  let timestamp := vc.datePicker.date
  let description ← unwrap vc.descriptionTextView.text
  let placeName ← unwrap (vc.text placeNameTextField)
  let street ← unwrap (vc.text placeStreetTextField)
  let nr ← unwrap (vc.text placeNrTextField)
  let postal ← unwrap (vc.text placePostalTextField)
  let city ← unwrap (vc.text placeCityTextField)
  let firstname ← unwrap (vc.text contactFirstameTextField)
  let lastname ← unwrap (vc.text contactLastnameTextField)
  let email ← unwrap (vc.text contactEmailTextField)
  let tel ← unwrap (vc.text contactTelTextField)
  let mobile ← unwrap (vc.text contactMobileTextField)
  let userEmail ← unwrap (← unwrap auth.currentUser).email
  let place : Place := { postalCode := postal, city, street, nr, placeName }
  let contact : Contact := { firstname, lastname, email, tel, mobile }
  return .init title description (!vc.isLostItem) category place contact timestamp userEmail now

-- `prepare(for:sender:)`
def prepare (segue : Segue) (auth : Auth) (now : Date) (vc : AddItemTableViewController)
    (destination : ItemsTableViewController) :
    Except Trap (AddItemTableViewController × ItemsTableViewController) := do
  let destination := { destination with isLostList := vc.isLostItem }
  if segue = .saveUnwind then
    let destination :=
      if vc.item.isNone then { destination with isLostList := true } else destination
    let item ← vc.newItem auth now
    return ({ vc with item := some (.unmanaged item) }, destination)
  else
    return (vc, destination)

end

-- What a user can do on the form short of leaving it.
inductive FormEvent
  | editText (f : TextField) (text : String)
  | editDescription (text : String)
  | pickCategory (row : Nat)
  | pickDate (date : Date)
  | tapRow (section' row : Nat)
  deriving DecidableEq

-- A control accepts input if it is enabled and shown. A picker is shown while its row is expanded.
def Allows (vc : AddItemTableViewController) : FormEvent → Bool
  | .editText f _      => (vc.textField f).isEnabled && !(vc.textField f).isHidden
  | .editDescription _ => vc.descriptionTextView.isEditable
  | .pickCategory row  =>
    !vc.categoryPicker.isHidden && !vc.isCategoryPickerHidden && row < vc.categories.length
  | .pickDate _        => !vc.datePicker.isHidden && !vc.isDatePickerHidden
  | .tapRow _ _        => true

-- The control takes the input and fires the action it is wired to.
def handle (auth : Auth) (vc : AddItemTableViewController) :
    FormEvent → Except Trap AddItemTableViewController
  | .editText f s =>
    let vc := vc.setText f s
    .ok <| if f.isWired then vc.textEditingChanged auth else vc
  | .editDescription s =>
    let vc := { vc with descriptionTextView := { vc.descriptionTextView with contents := s } }
    .ok <| vc.textViewDidChange auth
  | .pickCategory row =>
    { vc with categoryPicker := { vc.categoryPicker with selectedRow := row } }
      |>.pickerViewDidSelectRow row
  | .pickDate d =>
    .ok <| { vc with datePicker := vc.datePicker.setDate d }.datePickerChanged
  | .tapRow section' row =>
    .ok <| vc.didSelectRowAt section' row

end AddItemTableViewController
end LosTrouvee
