import LosTrouvee.Execution.Theorems.Transition

namespace LosTrouvee.Execution

variable [Unicode] {start : Realm → Prop} {C : State → Event → Bool} {s s' : State} {e : Event}
  {es : List Event}

-- Performs a list of events if each of them can happen, meets a condition and does not trap.
def State.executeIf (C : State → Event → Bool) (s : State) : List Event → Option State
  | []      => some s
  | e :: es =>
    if C s e && s.Allows e then
      match s.perform e with
      | .ok s'   => s'.executeIf C es
      | .error _ => none
    else
      none

def State.execute (s : State) (es : List Event) : Option State :=
  s.executeIf (fun _ _ => true) es

theorem State.executeIf_cons (h : s.executeIf C (e :: es) = some s') :
    ∃ s₁, C s e ∧ Step s e s₁ ∧ s₁.executeIf C es = some s' := by
  rw [executeIf] at h
  split at h
  case isFalse => simp at h
  case isTrue hc =>
    have ⟨hc, ha⟩ := Bool.and_eq_true_iff.mp hc
    split at h
    case h_1 s₁ hp => exact ⟨s₁, hc, ⟨ha, hp⟩, h⟩
    case h_2       => simp at h

theorem run_of_executeIf (h : s.executeIf C es = some s') :
    ((app start).restrict (C · ·)).Run s es s' := by
  induction es generalizing s
  case nil          => cases h; exact .refl
  case cons e es hi =>
    have ⟨_, hc, hs, h⟩ := State.executeIf_cons h
    exact .step ⟨hc, hs⟩ (hi h)

theorem run_of_execute (h : s.execute es = some s') : (app start).Run s es s' :=
  (run_of_executeIf h).of_restrict

theorem step_of_execute (h : s.execute [e] = some s') : Step s e s' := by
  have ⟨_, _, hs, h⟩ := State.executeIf_cons h
  cases h
  exact hs

-- The state in which the app is after a list of events.
theorem reachable_of_executeIf {realm : Realm} {email : Option String} (hr : start realm)
    (h : (State.fresh realm (.restore email)).executeIf C es = some s) :
    ((app start).restrict (C · ·)).Reachable s :=
  .of_run ⟨realm, email, hr, State.instantiateInitial_eq ..⟩ (run_of_executeIf h)

theorem reachable_of_execute {realm : Realm} {email : Option String} (hr : start realm)
    (h : (State.fresh realm (.restore email)).execute es = some s) : (app start).Reachable s :=
  (reachable_of_executeIf hr h).of_restrict

section

open AddItemTableViewController TextField

-- The user signs in from the first list.
def signIn (email : String) : List Event :=
  [.tapLogin .lost, .editCredential .email email, .editCredential .password "secret12", .tapSubmit,
    .complete 0 (some email)]

-- The user fills in what a form for a new item demands.
def fillIn : List Event :=
  [.editText titleTextField "Keys", .editDescription "Five keys",
    .editText placeStreetTextField "Veldstraat", .editText placePostalTextField "9000",
    .editText placeCityTextField "Gent", .editText contactFirstameTextField "Ann",
    .editText contactLastnameTextField "Peeters"].map (.form .presented)

-- The user posts an item on the list of a tab.
def post (t : Tab) : List Event :=
  .tapAdd t 0 :: fillIn ++ [.unwind .presented .saveUnwind .opener 0]

-- Ann posts a lost item. Bob opens it, leaves it open and fills in a form on the other tab.
def leaveOpen : List Event :=
  signIn "ann@los.be" ++ post .lost ++ [.tapLogout .lost false] ++ signIn "bob@los.be" ++
    [.selectRow .lost 0 0, .selectTab .found, .tapAdd .found 0] ++ fillIn

end

end LosTrouvee.Execution
