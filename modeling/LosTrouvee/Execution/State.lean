import LosTrouvee.Controllers.AddItemTableViewController
import LosTrouvee.Controllers.SessionControllers

namespace LosTrouvee.Execution

-- The navigation controller of a tab: its list and the details screen that is pushed onto it.
structure NavigationController where
  list    : ItemsTableViewController
  details : Option AddItemTableViewController := none

-- A screen presented over the tab bar.
inductive Presented
  | addItem (vc : AddItemTableViewController)
  | login (vc : LoginTableViewController)
  | register (vc : RegisterTableViewController)

-- The running app. The topmost presented screen comes first. As they cover the tab bar, the
-- selected tab is the one whose list has opened them.
structure State where
  realm       : Realm
  auth        : Auth
  navs        : Tab → NavigationController
  selectedTab : Tab
  presented   : List Presented

inductive Screen
  | list (t : Tab)
  | details (t : Tab)
  | presented
  deriving DecidableEq

namespace State

def list (s : State) (t : Tab) : ItemsTableViewController :=
  (s.navs t).list

def details (s : State) (t : Tab) : Option AddItemTableViewController :=
  (s.navs t).details

-- The screen that takes the user's input.
def visible (s : State) : Screen :=
  if s.presented.isEmpty then
    if (s.details s.selectedTab).isSome then .details s.selectedTab else .list s.selectedTab
  else
    .presented

def setNav (s : State) (t : Tab) (nav : NavigationController) : State :=
  { s with navs := Function.update s.navs t nav }

-- `instantiateInitialViewController()` for a new root view controller. The first tab is shown, so
-- its list is loaded. The other list is not loaded before its tab is selected.
def instantiateInitial (realm : Realm) (auth : Auth) : Except Trap State := do
  let list ← (ItemsTableViewController.instantiate .lost).viewDidLoad realm auth
  let found := ItemsTableViewController.instantiate .found
  return {
    realm, auth
    navs
      | .lost  => { list := list.viewWillAppear }
      | .found => { list := found }
    selectedTab := .lost
    presented   := [] }

variable (s : State) (t : Tab) (nav : NavigationController)

@[simp]
theorem setNav_realm : (s.setNav t nav).realm = s.realm :=
  rfl

@[simp]
theorem setNav_auth : (s.setNav t nav).auth = s.auth :=
  rfl

@[simp]
theorem setNav_selectedTab : (s.setNav t nav).selectedTab = s.selectedTab :=
  rfl

@[simp]
theorem setNav_presented : (s.setNav t nav).presented = s.presented :=
  rfl

@[simp]
theorem setNav_navs_self : (s.setNav t nav).navs t = nav :=
  Function.update_self ..

end State
end LosTrouvee.Execution
