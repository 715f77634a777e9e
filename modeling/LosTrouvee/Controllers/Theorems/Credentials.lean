import LosTrouvee.Controllers.SessionControllers

namespace LosTrouvee

section

variable [Unicode]

-- What a form for a session demands before it sends a request.
structure Request.WellFormed (r : Request) : Prop where
  email    : Validation.selfMatches Validation.emailRegEx r.email
  password : 6 < Unicode.count r.password

namespace LoginTableViewController

variable {vc : LoginTableViewController} {auth auth' : Auth}

theorem validateInput_iff : vc.validateInput ↔
    6 < Unicode.count vc.passwordTextField.contents ∧ isValidEmail vc.emailTextField.contents := by
  simp only [validateInput, UITextField.text, Option.all_some, decide_eq_true_eq,
    Bool.not_eq_true', ← Int.not_le]
  split_ifs <;> simp_all

-- The button is up to date with the contents of the form.
def Ready (vc : LoginTableViewController) : Prop :=
  vc.submitButton.isEnabled = vc.validateInput

theorem viewDidLoad_ready (vc : LoginTableViewController) : vc.viewDidLoad.Ready :=
  rfl

theorem edit_ready {field : CredentialField} {text : String} (h : vc.Ready) :
    (vc.edit field text).Ready := by
  cases field
  case confirmPassword => exact h
  all_goals rfl

theorem Ready.loginAction (h : vc.Ready) (hb : vc.submitButton.isEnabled)
    (ha : vc.loginAction auth = .ok auth') :
    ∃ r : Request, r.WellFormed ∧ auth' = auth.request r := by
  simp only [LoginTableViewController.loginAction, UITextField.text, bind_eq_ok, unwrap_eq_ok,
    Option.some.injEq, exists_eq_left', pure_eq_ok] at ha
  rw [h, validateInput_iff] at hb
  exact ⟨⟨.signIn, _, _⟩, ⟨hb.right, hb.left⟩, ha.symm⟩

end LoginTableViewController

namespace RegisterTableViewController

variable {vc vc' : RegisterTableViewController} {auth auth' : Auth}

theorem validateInput_iff : vc.validateInput ↔
    6 < Unicode.count vc.passwordTextField.contents ∧
      vc.confirmPasswordTextField.contents = vc.passwordTextField.contents ∧
      isValidEmail vc.emailTextField.contents := by
  simp only [validateInput, UITextField.text, Option.all_some, decide_eq_true_eq,
    Bool.not_eq_true', ← Int.not_le]
  split_ifs <;> simp_all

def Ready (vc : RegisterTableViewController) : Prop :=
  vc.submitButton.isEnabled = vc.validateInput

theorem viewDidLoad_ready (vc : RegisterTableViewController) : vc.viewDidLoad.Ready :=
  rfl

theorem edit_ready (field : CredentialField) (text : String) : (vc.edit field text).Ready := by
  cases field <;> rfl

theorem Ready.signUpAction (h : vc.Ready) (hb : vc.submitButton.isEnabled)
    (ha : vc.signUpAction auth = .ok auth') :
    ∃ r : Request, r.WellFormed ∧ auth' = auth.request r := by
  simp only [RegisterTableViewController.signUpAction, UITextField.text, bind_eq_ok, unwrap_eq_ok,
    Option.some.injEq, exists_eq_left', pure_eq_ok] at ha
  rw [h, validateInput_iff] at hb
  exact ⟨⟨.createUser, _, _⟩, ⟨hb.right.right, hb.left⟩, ha.symm⟩

end RegisterTableViewController

-- The same field with the two fields for the password exchanged.
def CredentialField.swap : CredentialField → CredentialField
  | email           => email
  | password        => confirmPassword
  | confirmPassword => password

namespace RegisterTableViewController

variable {vc vc' : RegisterTableViewController} {auth : Auth} {field : CredentialField}
  {text : String}

-- Two forms with the contents of their fields for the password exchanged.
structure Mirrors (vc vc' : RegisterTableViewController) : Prop where
  email           : vc'.emailTextField.contents = vc.emailTextField.contents
  password        : vc'.passwordTextField.contents = vc.confirmPasswordTextField.contents
  confirmPassword : vc'.confirmPasswordTextField.contents = vc.passwordTextField.contents
  submitButton    : vc'.submitButton.isEnabled = vc.submitButton.isEnabled

theorem validateInput_mirrors
    (he : vc'.emailTextField.contents = vc.emailTextField.contents)
    (hp : vc'.passwordTextField.contents = vc.confirmPasswordTextField.contents)
    (hc : vc'.confirmPasswordTextField.contents = vc.passwordTextField.contents) :
    vc'.validateInput = vc.validateInput := by
  rw [Bool.eq_iff_iff, validateInput_iff, validateInput_iff, he, hp, hc]
  constructor <;> exact fun ⟨hl, hm, hv⟩ => ⟨hm ▸ hl, hm.symm, hv⟩

theorem updateSubmitButtonState_mirrors
    (he : vc'.emailTextField.contents = vc.emailTextField.contents)
    (hp : vc'.passwordTextField.contents = vc.confirmPasswordTextField.contents)
    (hc : vc'.confirmPasswordTextField.contents = vc.passwordTextField.contents) :
    vc.updateSubmitButtonState.Mirrors vc'.updateSubmitButtonState where
  email           := he
  password        := hp
  confirmPassword := hc
  submitButton    := validateInput_mirrors he hp hc

theorem Mirrors.edit (h : vc.Mirrors vc') (field : CredentialField) (text : String) :
    (vc.edit field text).Mirrors (vc'.edit field.swap text) := by
  cases field
  case email           => exact updateSubmitButtonState_mirrors rfl h.password h.confirmPassword
  case password        => exact updateSubmitButtonState_mirrors h.email rfl h.confirmPassword
  case confirmPassword => exact updateSubmitButtonState_mirrors h.email h.password rfl

def editAll (vc : RegisterTableViewController) (edits : List (CredentialField × String)) :
    RegisterTableViewController :=
  edits.foldl (fun vc edit => vc.edit edit.1 edit.2) vc

theorem Mirrors.editAll (h : vc.Mirrors vc') (edits : List (CredentialField × String)) :
    (vc.editAll edits).Mirrors (vc'.editAll (edits.map fun edit => (edit.1.swap, edit.2))) := by
  induction edits generalizing vc vc'
  case nil             => exact h
  case cons edit _ hi  => exact hi (h.edit edit.1 edit.2)

theorem editAll_ready (h : vc.Ready) (edits : List (CredentialField × String)) :
    (vc.editAll edits).Ready := by
  induction edits generalizing vc
  case nil        => exact h
  case cons _ hi  => exact hi (edit_ready ..)

end RegisterTableViewController

end

section

attribute [local instance] Unicode.ascii

end

end LosTrouvee
