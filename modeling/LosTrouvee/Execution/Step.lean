import LosTrouvee.Execution.State
import LosTrouvee.Library.TransitionSystem

namespace LosTrouvee

-- `prepare(for:sender:)` of `ItemsTableViewController`, by the type of the destination.
namespace ItemsTableViewController

def prepareAddItem (segue : Segue) (destination : AddItemTableViewController) :
    AddItemTableViewController :=
  match segue with
  | .lostListToAdd  => { destination with isLostItem := true }
  | .foundListToAdd => { destination with isLostItem := false }
  | _               => destination

def prepareLogin (segue : Segue) (destination : LoginTableViewController) :
    LoginTableViewController :=
  match segue with
  | .lostListToLogin  => { destination with navFromLostList := true }
  | .foundListToLogin => { destination with navFromLostList := false }
  | _                 => destination

def prepareRegister (segue : Segue) (destination : RegisterTableViewController) :
    RegisterTableViewController :=
  match segue with
  | .lostListToRegister  => { destination with navFromLostList := true }
  | .foundListToRegister => { destination with navFromLostList := false }
  | _                    => destination

def prepareDetails (realm : Realm) (list : ItemsTableViewController)
    (destination : AddItemTableViewController) : Except Trap AddItemTableViewController := do
  let row ← unwrap list.tableView.indexPathForSelectedRow
  let key ← element list.items row
  let selectedItem ← realm.read key
  return { destination with item := some (.managed key), isLostItem := !selectedItem.found }

end ItemsTableViewController

-- The segues that the storyboard connects to the bar button items of the two lists.
namespace Tab

def addSegue : Tab → Segue
  | lost  => .lostListToAdd
  | found => .foundListToAdd

def loginSegue : Tab → Segue
  | lost  => .lostListToLogin
  | found => .foundListToLogin

def registerSegue : Tab → Segue
  | lost  => .lostListToRegister
  | found => .foundListToRegister

end Tab

-- The unwinding segues that the buttons of the form offer.
def AddItemTableViewController.offers (vc : AddItemTableViewController) : Segue → Bool
  | .cancelUnwind => true
  | .saveUnwind   => vc.saveButton.any (·.isEnabled)
  | .foundUnwind  => vc.foundButton.any (·.isEnabled)
  | _             => false

namespace Execution

-- An unwind from a presented screen ends at the list that opened it or at the list of the first
-- tab.
inductive Destination
  | opener
  | firstTab
  deriving DecidableEq

-- The steps of the user and of the outstanding requests. `now` is the time of the step. The
-- completion of a request gets the email of the user it signs in, or `none` if it fails.
inductive Event
  | launch
  | selectTab (t : Tab)
  | drawRow (t : Tab) (row : Nat)
  | selectRow (t : Tab) (row : Nat) (now : Date)
  | deleteRow (t : Tab) (row : Nat)
  | tapAdd (t : Tab) (now : Date)
  | tapLogin (t : Tab)
  | tapRegister (t : Tab)
  | tapLogout (t : Tab) (throws : Bool)
  | form (on : Screen) (e : AddItemTableViewController.FormEvent)
  | unwind (source : Screen) (segue : Segue) (destination : Destination) (now : Date)
  | editCredential (field : CredentialField) (text : String)
  | tapSubmit
  | switchForm
  | complete (i : Nat) (email : Option String)
  deriving DecidableEq

namespace State

-- The tab whose list an unwind ends at.
def destinationTab (s : State) : Destination → Tab
  | .opener   => s.selectedTab
  | .firstTab => .lost

section

variable [Unicode]

-- Which events UIKit and the network let happen.
def Allows (s : State) : Event → Bool
  | .launch          => true
  | .selectTab _     => s.presented.isEmpty
  | .drawRow t row   => (s.list t).isViewLoaded && row < (s.list t).tableView.numberOfRows
  | .selectRow t row _ | .deleteRow t row =>
    s.visible = .list t && row < (s.list t).tableView.numberOfRows
  | .tapAdd t _      => s.visible = .list t && (s.list t).rightBarButtonItems.contains .add
  | .tapLogin t      => s.visible = .list t && (s.list t).leftBarButtonItems.contains .login
  | .tapRegister t   => s.visible = .list t && (s.list t).leftBarButtonItems.contains .register
  | .tapLogout t _   => s.visible = .list t && (s.list t).leftBarButtonItems.contains .logout
  | .form on e       =>
    s.visible = on && match on, s.presented with
    | .details t, _               => (s.details t).any (·.Allows e)
    | .presented, .addItem vc :: _ => vc.Allows e
    | _, _                        => false
  | .unwind source segue destination _ =>
    s.visible = source && match source, s.presented with
    | .details t, _                 => (s.details t).any (·.offers segue) && destination = .opener
    | .presented, .addItem vc :: _  => vc.offers segue
    | .presented, .login _ :: _     => segue = .cancelLoginSegue
    | .presented, .register _ :: _  => segue = .cancelRegisterSegue
    | _, _                          => false
  | .editCredential field _ =>
    match s.presented with
    | .login _ :: _    => field ≠ .confirmPassword
    | .register _ :: _ => true
    | _                => false
  | .tapSubmit =>
    match s.presented with
    | .login vc :: _    => vc.submitButton.isEnabled
    | .register vc :: _ => vc.submitButton.isEnabled
    | _                 => false
  | .switchForm =>
    match s.presented with
    | .login _ :: _ | .register _ :: _ => true
    | _                                => false
  | .complete i _ => i < s.auth.pending.length

-- Showing a tab loads its list if that has not happened yet. A tap on the selected tab pops its
-- details screen.
def selectTab (s : State) (t : Tab) : Except Trap State := do
  let nav := s.navs t
  if t = s.selectedTab then
    return s.setNav t { list := nav.list.viewWillAppear }
  else
    let list ← if nav.list.isViewLoaded then pure nav.list else
      nav.list.viewDidLoad s.realm s.auth
    let list := if nav.details.isNone then list.viewWillAppear else list
    return { s.setNav t { nav with list } with selectedTab := t }

def selectRow (s : State) (t : Tab) (row : Nat) (now : Date) : Except Trap State := do
  let list := s.list t
  let list := { list with tableView := list.tableView.selectRow row }
  let vc ← list.prepareDetails s.realm {}
  let vc ← vc.viewDidLoad s.realm s.auth now
  return s.setNav t { list, details := some vc }

-- A swipe over a row offers to delete it if the row can be edited.
def deleteRow (s : State) (t : Tab) (row : Nat) : Except Trap State := do
  if ← (s.list t).canEditRowAt s.realm s.auth row then
    let (list, realm) ← (s.list t).commitDelete s.realm row
    return { s.setNav t { s.navs t with list } with realm }
  else
    return s

def tapAdd (s : State) (t : Tab) (now : Date) : Except Trap State := do
  let vc := ItemsTableViewController.prepareAddItem t.addSegue {}
  let vc ← vc.viewDidLoad s.realm s.auth now
  return { s with presented := [.addItem vc] }

def tapLogin (s : State) (t : Tab) : State :=
  let vc := ItemsTableViewController.prepareLogin t.loginSegue {}
  { s with presented := [.login vc.viewDidLoad] }

def tapRegister (s : State) (t : Tab) : State :=
  let vc := ItemsTableViewController.prepareRegister t.registerSegue {}
  { s with presented := [.register vc.viewDidLoad] }

-- `logoutAction(_:)` replaces the root view controller even if `signOut` throws.
def logoutAction (s : State) (throws : Bool) : Except Trap State :=
  instantiateInitial s.realm (if throws then s.auth else s.auth.signOut)

def form (s : State) (on : Screen) (e : AddItemTableViewController.FormEvent) :
    Except Trap State := do
  match on, s.presented with
  | .presented, .addItem vc :: rest =>
    let vc ← vc.handle s.auth e
    return { s with presented := .addItem vc :: rest }
  | .details t, _ =>
    match s.details t with
    | some vc =>
      let vc ← vc.handle s.auth e
      return s.setNav t { s.navs t with details := some vc }
    | none => return s
  | _, _ => return s

-- Everything above the list is dismissed or popped, and its table is about to appear.
def returnTo (s : State) (t : Tab) (list : ItemsTableViewController) (realm : Realm) : State :=
  { s.setNav t { list := list.viewWillAppear } with
    realm
    selectedTab := t
    presented   := [] }

-- The action of an unwind to the list of `t`, after `prepare` of the screen that is left.
def unwindTo (s : State) (t : Tab) (segue : Segue) (item : Option ItemObject)
    (list : ItemsTableViewController) : Except Trap State := do
  let unwound ← list.unwindToItemList segue item s.realm s.auth
  if unwound.replacesRoot then
    instantiateInitial unwound.realm s.auth
  else
    return s.returnTo t unwound.list unwound.realm

def unwindForm (s : State) (vc : AddItemTableViewController) (t : Tab) (segue : Segue)
    (now : Date) : Except Trap State := do
  let (vc, list) ← vc.prepare segue s.auth now (s.list t)
  s.unwindTo t segue vc.item list

-- The unwind from a details screen ends at the list below it.
def unwind (s : State) (source : Screen) (segue : Segue) (destination : Destination)
    (now : Date) : Except Trap State := do
  let t := s.destinationTab destination
  match source, s.presented with
  | .presented, .addItem vc :: _  => s.unwindForm vc t segue now
  | .presented, .login vc :: _    => s.unwindTo t segue none (vc.prepareUnwind (s.list t))
  | .presented, .register vc :: _ => s.unwindTo t segue none (vc.prepareUnwind (s.list t))
  | .details t, _ =>
    match s.details t with
    | some vc => s.unwindForm vc t segue now
    | none    => return s
  | _, _ => return s

def editCredential (s : State) (field : CredentialField) (text : String) : State :=
  match s.presented with
  | .login vc :: rest    => { s with presented := .login (vc.edit field text) :: rest }
  | .register vc :: rest => { s with presented := .register (vc.edit field text) :: rest }
  | _                    => s

def tapSubmit (s : State) : Except Trap State := do
  match s.presented with
  | .login vc :: _    => return { s with auth := ← vc.loginAction s.auth }
  | .register vc :: _ => return { s with auth := ← vc.signUpAction s.auth }
  | _                 => return s

-- The segues `LoginToRegister` and `RegisterToLogin` present one form over the other.
def switchForm (s : State) : State :=
  match s.presented with
  | .login vc :: _    =>
    { s with presented := .register (vc.prepareRegister {}).viewDidLoad :: s.presented }
  | .register vc :: _ =>
    { s with presented := .login (vc.prepareLogin {}).viewDidLoad :: s.presented }
  | _ => s

-- A successful request replaces the root view controller. A failed one shows an alert.
def complete (s : State) (i : Nat) : Option String → Except Trap State
  | some email => instantiateInitial s.realm (s.auth.succeed i email)
  | none       => .ok { s with auth := s.auth.fail i }

def perform (s : State) : Event → Except Trap State
  | .launch                => instantiateInitial s.realm (.restore s.auth.email)
  | .selectTab t           => s.selectTab t
  | .drawRow t row         => do
    let _ ← (s.list t).cellForRowAt s.realm row
    return s
  | .selectRow t row now   => s.selectRow t row now
  | .deleteRow t row       => s.deleteRow t row
  | .tapAdd t now          => s.tapAdd t now
  | .tapLogin t            => .ok (s.tapLogin t)
  | .tapRegister t         => .ok (s.tapRegister t)
  | .tapLogout _ throws    => s.logoutAction throws
  | .form on e             => s.form on e
  | .unwind source segue destination now => s.unwind source segue destination now
  | .editCredential field text => .ok (s.editCredential field text)
  | .tapSubmit             => s.tapSubmit
  | .switchForm            => .ok s.switchForm
  | .complete i email      => s.complete i email

end

end State

-- A step is an event that can happen and that the code handles without a trap.
structure Step [Unicode] (s : State) (e : Event) (s' : State) : Prop where
  allows   : s.Allows e
  performs : s.perform e = .ok s'

-- The app launched over a Realm that meets `start`, with or without the session of an earlier
-- launch.
def app [Unicode] (start : Realm → Prop) : TransitionSystem State Event where
  Init s := ∃ realm email, start realm ∧ State.instantiateInitial realm (.restore email) = .ok s
  Step   := Step

end Execution
end LosTrouvee
