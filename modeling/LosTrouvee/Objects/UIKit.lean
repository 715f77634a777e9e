import LosTrouvee.Objects.Item

namespace LosTrouvee

-- The parts of UIKit's views that the app reads or writes.

structure UITextField where
  contents    : String := ""
  isEnabled   : Bool := true
  isHidden    : Bool := false
  placeholder : Option String := none

-- The getter never returns `nil`, and the setter stores the empty string for `nil`.
def UITextField.text (field : UITextField) : Option String :=
  some field.contents

def UITextField.setText (field : UITextField) (text : Option String) : UITextField :=
  { field with contents := text.getD "" }

structure UITextView where
  contents   : String := ""
  isEditable : Bool := true

def UITextView.text (view : UITextView) : Option String :=
  some view.contents

structure UILabel where
  text : Option String := none

structure UIPickerView where
  selectedRow : Nat := 0
  isHidden    : Bool := false

structure UIDatePicker where
  date        : Date
  maximumDate : Option Date := none
  isHidden    : Bool := false

namespace UIDatePicker

-- A date past the maximum is replaced by the maximum.
def clamp (picker : UIDatePicker) (date : Date) : Date :=
  match picker.maximumDate with
  | some m => min date m
  | none   => date

def setDate (picker : UIDatePicker) (date : Date) : UIDatePicker :=
  { picker with date := picker.clamp date }

def setMaximumDate (picker : UIDatePicker) (m : Date) : UIDatePicker :=
  { picker with maximumDate := some m, date := min picker.date m }

end UIDatePicker

structure UIBarButtonItem where
  isEnabled : Bool := true

-- A table view knows the cells its storyboard scene registers and the number of rows it last asked
-- its data source for.
structure UITableView where
  reuseIdentifiers        : List String
  numberOfRows            : Nat := 0
  indexPathForSelectedRow : Option Nat := none

namespace UITableView

def dequeueReusableCell (table : UITableView) (identifier : String) : Except Trap Unit :=
  if identifier ∈ table.reuseIdentifiers then .ok () else .error .unregisteredIdentifier

def reloadData (table : UITableView) (count : Nat) : UITableView :=
  { table with numberOfRows := count, indexPathForSelectedRow := none }

-- The row updates raise an exception if the data source has not changed its number of rows in the
-- same way. Here `count` is the new answer of the data source.

def insertRow (table : UITableView) (row count : Nat) : Except Trap UITableView :=
  if count = table.numberOfRows + 1 ∧ row < count then
    .ok { table with
      numberOfRows            := count
      indexPathForSelectedRow := table.indexPathForSelectedRow.map fun i => if i < row then i else i + 1 }
  else
    .error .invalidUpdate

def deleteRow (table : UITableView) (row count : Nat) : Except Trap UITableView :=
  if count + 1 = table.numberOfRows ∧ row < table.numberOfRows then
    .ok { table with
      numberOfRows            := count
      indexPathForSelectedRow := table.indexPathForSelectedRow.bind fun i =>
        if i = row then none else if i < row then some i else some (i - 1) }
  else
    .error .invalidUpdate

def reloadRow (table : UITableView) (row count : Nat) : Except Trap UITableView :=
  if count = table.numberOfRows ∧ row < count then .ok table else .error .invalidUpdate

def selectRow (table : UITableView) (row : Nat) : UITableView :=
  { table with indexPathForSelectedRow := some row }

def clearSelection (table : UITableView) : UITableView :=
  { table with indexPathForSelectedRow := none }

variable {table table' : UITableView} {row count : Nat}

theorem dequeueReusableCell_eq_error {identifier : String} {t : Trap} :
    table.dequeueReusableCell identifier = .error t ↔
      identifier ∉ table.reuseIdentifiers ∧ t = .unregisteredIdentifier := by
  rw [dequeueReusableCell]
  split <;> simp_all [eq_comm]

theorem insertRow_spec (h : table.insertRow row count = .ok table') :
    table'.numberOfRows = count ∧ table'.reuseIdentifiers = table.reuseIdentifiers ∧
      (table.indexPathForSelectedRow = none → table'.indexPathForSelectedRow = none) := by
  rw [insertRow] at h
  split at h <;> simp_all
  subst h
  simp_all

theorem deleteRow_spec (h : table.deleteRow row count = .ok table') :
    table'.numberOfRows = count ∧ table'.reuseIdentifiers = table.reuseIdentifiers ∧
      (table.indexPathForSelectedRow = none → table'.indexPathForSelectedRow = none) := by
  rw [deleteRow] at h
  split at h <;> simp_all
  subst h
  simp_all

theorem reloadRow_spec (h : table.reloadRow row count = .ok table') :
    table' = table ∧ table.numberOfRows = count := by
  rw [reloadRow] at h
  split at h <;> simp_all

end UITableView
end LosTrouvee
