import LosTrouvee.Controllers.ItemsTableViewController
import LosTrouvee.Objects.Validation

namespace LosTrouvee

-- The fields of the two forms for a session.
inductive CredentialField
  | email
  | password
  | confirmPassword
  deriving DecidableEq

structure LoginTableViewController where
  navFromLostList   : Bool := true
  emailTextField    : UITextField := {}
  passwordTextField : UITextField := {}
  submitButton      : UIBarButtonItem := {}

namespace LoginTableViewController

-- `isValidEmail(testStr:)`
def isValidEmail (testStr : String) : Bool :=
  Validation.selfMatches Validation.emailRegEx testStr

variable [Unicode]

def validateInput (vc : LoginTableViewController) : Bool :=
  if vc.passwordTextField.text.all fun s => Unicode.count s ≤ 6 then false
  else if vc.emailTextField.text.all fun s => !isValidEmail s then false
  else true

def updateSubmitButtonState (vc : LoginTableViewController) : LoginTableViewController :=
  { vc with submitButton := { isEnabled := vc.validateInput } }

def viewDidLoad (vc : LoginTableViewController) : LoginTableViewController :=
  vc.updateSubmitButtonState

-- An edit of a text field fires `textEditingChanged(_:)`.
def edit (field : CredentialField) (text : String) (vc : LoginTableViewController) :
    LoginTableViewController :=
  match field with
  | .email           =>
    { vc with emailTextField := vc.emailTextField.setText text }.updateSubmitButtonState
  | .password        =>
    { vc with passwordTextField := vc.passwordTextField.setText text }.updateSubmitButtonState
  | .confirmPassword => vc

omit [Unicode] in
-- `loginAction(_:)` sends a request and leaves the rest to its completion.
def loginAction (auth : Auth) (vc : LoginTableViewController) : Except Trap Auth := do
  let email ← unwrap vc.emailTextField.text
  let password ← unwrap vc.passwordTextField.text
  return auth.request { method := .signIn, email, password }

end LoginTableViewController

structure RegisterTableViewController where
  navFromLostList          : Bool := true
  emailTextField           : UITextField := {}
  passwordTextField        : UITextField := {}
  confirmPasswordTextField : UITextField := {}
  submitButton             : UIBarButtonItem := {}

namespace RegisterTableViewController

-- `isValidEmail(testStr:)`
def isValidEmail (testStr : String) : Bool :=
  Validation.selfMatches Validation.emailRegEx testStr

variable [Unicode]

def validateInput (vc : RegisterTableViewController) : Bool :=
  if vc.passwordTextField.text.all fun s => Unicode.count s ≤ 6 then false
  else if vc.confirmPasswordTextField.text == none ||
    vc.confirmPasswordTextField.text != vc.passwordTextField.text then false
  else if vc.emailTextField.text.all fun s => !isValidEmail s then false
  else true

def updateSubmitButtonState (vc : RegisterTableViewController) : RegisterTableViewController :=
  { vc with submitButton := { isEnabled := vc.validateInput } }

def viewDidLoad (vc : RegisterTableViewController) : RegisterTableViewController :=
  vc.updateSubmitButtonState

-- An edit of a text field fires `textEditingChanged(_:)`. The storyboard connects the outlet of the
-- password to the field under the heading for its confirmation and vice versa.
def edit (field : CredentialField) (text : String) (vc : RegisterTableViewController) :
    RegisterTableViewController :=
  match field with
  | .email           =>
    { vc with emailTextField := vc.emailTextField.setText text }.updateSubmitButtonState
  | .password        =>
    { vc with
      confirmPasswordTextField := vc.confirmPasswordTextField.setText text }.updateSubmitButtonState
  | .confirmPassword =>
    { vc with passwordTextField := vc.passwordTextField.setText text }.updateSubmitButtonState

omit [Unicode] in
-- `signUpAction(_:)` sends a request and leaves the rest to its completion.
def signUpAction (auth : Auth) (vc : RegisterTableViewController) : Except Trap Auth := do
  let email ← unwrap vc.emailTextField.text
  let password ← unwrap vc.passwordTextField.text
  return auth.request { method := .createUser, email, password }

end RegisterTableViewController

-- `prepare(for:sender:)` of the two controllers, for a segue to the other one and for an unwind.

def LoginTableViewController.prepareRegister (vc : LoginTableViewController)
    (destination : RegisterTableViewController) : RegisterTableViewController :=
  { destination with navFromLostList := vc.navFromLostList }

def LoginTableViewController.prepareUnwind (vc : LoginTableViewController)
    (destination : ItemsTableViewController) : ItemsTableViewController :=
  { destination with isLostList := vc.navFromLostList }

def RegisterTableViewController.prepareLogin (vc : RegisterTableViewController)
    (destination : LoginTableViewController) : LoginTableViewController :=
  { destination with navFromLostList := vc.navFromLostList }

def RegisterTableViewController.prepareUnwind (vc : RegisterTableViewController)
    (destination : ItemsTableViewController) : ItemsTableViewController :=
  { destination with isLostList := vc.navFromLostList }

end LosTrouvee
