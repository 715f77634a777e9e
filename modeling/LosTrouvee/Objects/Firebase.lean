import LosTrouvee.Objects.Swift

namespace LosTrouvee

structure User where
  email : Option String
  deriving DecidableEq

-- The calls of `signIn` and `createUser` whose completion has not run yet.
inductive AuthMethod
  | signIn
  | createUser
  deriving DecidableEq

structure Request where
  method   : AuthMethod
  email    : String
  password : String
  deriving DecidableEq

-- `Auth.auth()`. The app signs in with email and password only, so every user has an email.
structure Auth where
  currentUser : Option User
  pending     : List Request
  hasEmail    : ∀ {u}, currentUser = some u → u.email.isSome

namespace Auth

variable {auth : Auth} {e : String}

def email (auth : Auth) : Option String :=
  auth.currentUser.bind User.email

-- The session that was left behind by the last launch.
def restore (email : Option String) : Auth where
  currentUser := email.map fun e => ⟨some e⟩
  pending     := []
  hasEmail    := by cases email <;> simp

def request (auth : Auth) (r : Request) : Auth :=
  { auth with pending := auth.pending ++ [r] }

-- The `i`-th request fails, or it succeeds and signs in the user with the given email.

def fail (auth : Auth) (i : Nat) : Auth :=
  { auth with pending := auth.pending.eraseIdx i }

def succeed (auth : Auth) (i : Nat) (email : String) : Auth where
  currentUser := some ⟨some email⟩
  pending     := auth.pending.eraseIdx i
  hasEmail    := by simp

def signOut (auth : Auth) : Auth where
  currentUser := none
  pending     := auth.pending
  hasEmail    := by simp

-- `user != nil && user!.email! == userEmail`
def isCurrentUser (auth : Auth) (userEmail : String) : Except Trap Bool :=
  match auth.currentUser with
  | none      => .ok false
  | some user => do
    let email ← unwrap user.email
    return email == userEmail

theorem email_congr {auth' : Auth} (h : auth'.currentUser = auth.currentUser) :
    auth'.email = auth.email := by
  rw [email, email, h]

theorem email_eq_none_iff : auth.email = none ↔ auth.currentUser = none := by
  cases hu : auth.currentUser
  case none   => simp [email, hu]
  case some u =>
    have h := auth.hasEmail hu
    simp_all [email, Option.isSome_iff_ne_none]

theorem email_eq_some_iff : auth.email = some e ↔ auth.currentUser = some ⟨some e⟩ := by
  cases hu : auth.currentUser
  case none   => simp [email, hu]
  case some u => cases u; simp [email, hu]

theorem isCurrentUser_eq_ok : auth.isCurrentUser e = .ok (auth.email == some e) := by
  cases hu : auth.currentUser
  case none   => simp [isCurrentUser, email, hu]
  case some u =>
    have ⟨_, h⟩ := Option.isSome_iff_exists.mp (auth.hasEmail hu)
    simp [isCurrentUser, email, hu, h, unwrap, bind, Except.bind, pure, Except.pure]

@[simp]
theorem request_email (auth : Auth) (r : Request) : (auth.request r).email = auth.email :=
  rfl

@[simp]
theorem fail_email (auth : Auth) (i : Nat) : (auth.fail i).email = auth.email :=
  rfl

@[simp]
theorem request_currentUser (auth : Auth) (r : Request) :
    (auth.request r).currentUser = auth.currentUser :=
  rfl

@[simp]
theorem fail_currentUser (auth : Auth) (i : Nat) : (auth.fail i).currentUser = auth.currentUser :=
  rfl

end Auth
end LosTrouvee
