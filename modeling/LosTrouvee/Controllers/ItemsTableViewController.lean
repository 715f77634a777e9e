import LosTrouvee.Controllers.ItemTableViewCell
import LosTrouvee.Objects.Firebase
import LosTrouvee.Objects.UIKit

namespace LosTrouvee

-- The segues of the storyboard by their identifiers.
inductive Segue
  | lostListToAdd
  | lostListToLogin
  | lostListToRegister
  | foundListToAdd
  | foundListToLogin
  | foundListToRegister
  | listToDetails
  | loginToRegister
  | registerToLogin
  | cancelUnwind
  | saveUnwind
  | foundUnwind
  | cancelLoginSegue
  | cancelRegisterSegue
  deriving DecidableEq

-- The two tabs, each of which shows a list of items.
inductive Tab
  | lost
  | found
  deriving DecidableEq

namespace Tab

def title : Tab → String
  | lost  => "Lost items"
  | found => "Found Items"

def reuseIdentifier : Tab → String
  | lost  => "LostItemCellIdentifier"
  | found => "FoundItemCellIdentifier"

end Tab

inductive ListButton
  | logout
  | login
  | register
  | add
  deriving DecidableEq

structure ItemsTableViewController where
  title               : String
  items               : List Key := []
  isLostList          : Bool := true
  tableView           : UITableView
  leftBarButtonItems  : List ListButton := [.logout, .login, .register]
  rightBarButtonItems : List ListButton := [.add]
  isViewLoaded        : Bool := false

namespace ItemsTableViewController

-- The controller of a tab as the storyboard sets it up.
def instantiate (t : Tab) : ItemsTableViewController where
  title     := t.title
  tableView := { reuseIdentifiers := [t.reuseIdentifier] }

def updateBarButtons (auth : Auth) (list : ItemsTableViewController) :
    Except Trap ItemsTableViewController :=
  match auth.currentUser with
  | none =>
    .ok { list with leftBarButtonItems := [.login, .register], rightBarButtonItems := [] }
  | some user => do
    -- The email is printed.
    let _ ← unwrap user.email
    return { list with leftBarButtonItems := [.logout], rightBarButtonItems := [.add] }

-- Every object in the result of the query is valid, so its property can be read.
def isListed (realm : Realm) (isLostList : Bool) (key : Key) : Bool :=
  (realm.find? key).any fun value => if isLostList then !value.found else value.found

-- Once its view is loaded, the table asks for its number of rows.
def viewDidLoad (realm : Realm) (auth : Auth) (list : ItemsTableViewController) :
    Except Trap ItemsTableViewController := do
  let isLostList := list.title == "Lost items"
  let items := realm.objects.filter (isListed realm isLostList)
  let list := { list with isLostList, items, isViewLoaded := true }
  let list ← list.updateBarButtons auth
  return { list with tableView := list.tableView.reloadData items.length }

-- The table clears its selection whenever it is about to appear.
def viewWillAppear (list : ItemsTableViewController) : ItemsTableViewController :=
  { list with tableView := list.tableView.clearSelection }

def cellForRowAt [Unicode] (realm : Realm) (row : Nat) (list : ItemsTableViewController) :
    Except Trap ItemTableViewCell := do
  if list.isLostList then
    list.tableView.dequeueReusableCell "LostItemCellIdentifier"
  else
    list.tableView.dequeueReusableCell "FoundItemCellIdentifier"
  let item ← realm.read (← element list.items row)
  ItemTableViewCell.update item

def canEditRowAt (realm : Realm) (auth : Auth) (row : Nat) (list : ItemsTableViewController) :
    Except Trap Bool := do
  if auth.currentUser.isNone then
    return false
  let item ← realm.read (← element list.items row)
  auth.isCurrentUser item.userEmail

-- `tableView(_:commit:forRowAt:)` for the editing style `.delete`.
def commitDelete (realm : Realm) (row : Nat) (list : ItemsTableViewController) :
    Except Trap (ItemsTableViewController × Realm) := do
  let key ← element list.items row
  let realm ← realm.delete (.managed key)
  let items := list.items.eraseIdx row
  let tableView ← list.tableView.deleteRow row items.length
  return ({ list with items, tableView }, realm)

-- What an unwind to the list leaves behind. If `replacesRoot` holds, the root view controller is
-- replaced by a fresh one.
structure Unwound where
  list         : ItemsTableViewController
  realm        : Realm
  replacesRoot : Bool := false

section

variable [Unicode]

-- The branch `//updated item` of `unwindToItemList`.
def updatedItem (realm : Realm) (item : ItemObject) (row : Nat) (list : ItemsTableViewController) :
    Except Trap Unwound := do
  let old ← element list.items row
  let realm ← realm.delete (.managed old)
  let (realm, key) ← realm.add item
  let list := { list with items := list.items.set row key }
  let tableView ← list.tableView.reloadRow row list.items.length
  let list := { list with tableView }
  let _ ← list.cellForRowAt realm row
  return { list, realm }

-- The branch `//added item` of `unwindToItemList`. The item is appended to the list before it is
-- added to the Realm, which makes no difference to either.
def addedItem (realm : Realm) (item : ItemObject) (list : ItemsTableViewController) :
    Except Trap Unwound := do
  let row := list.items.length
  let (realm, key) ← realm.add item
  let list := { list with items := list.items ++ [key] }
  let added ← realm.read key
  if list.isLostList && !added.found then
    let tableView ← list.tableView.insertRow row list.items.length
    let list := { list with tableView }
    let _ ← list.cellForRowAt realm row
    return { list, realm }
  else
    return { list, realm, replacesRoot := true }

-- The branch for `foundUnwind` of `unwindToItemList`.
def foundItem (realm : Realm) (item : ItemObject) (list : ItemsTableViewController) :
    Except Trap Unwound := do
  let realm ← realm.delete item
  let row ← unwrap list.tableView.indexPathForSelectedRow
  let _ ← element list.items row
  let items := list.items.eraseIdx row
  let tableView ← list.tableView.deleteRow row items.length
  return { list := { list with items, tableView }, realm }

-- `item` is the item of the controller that is left, if it is an `AddItemTableViewController`.
def unwindToItemList (segue : Segue) (item : Option ItemObject) (realm : Realm) (auth : Auth)
    (list : ItemsTableViewController) : Except Trap Unwound := do
  let list ← list.updateBarButtons auth
  match segue, item with
  | .saveUnwind, some item =>
    match list.tableView.indexPathForSelectedRow with
    | some row => list.updatedItem realm item row
    | none     => list.addedItem realm item
  | .foundUnwind, some item => list.foundItem realm item
  | _, _ => return { list, realm }

end

end ItemsTableViewController
end LosTrouvee
