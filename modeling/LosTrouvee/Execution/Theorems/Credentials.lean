import LosTrouvee.Controllers.Theorems.Credentials
import LosTrouvee.Execution.Theorems.Session
import Mathlib.Data.List.Chain

namespace LosTrouvee.Execution

namespace Presented

def isLogin : Presented → Bool
  | login _ => true
  | addItem _ | register _ => false

-- The submit button of a form for a session is up to date.
def Ready [Unicode] : Presented → Prop
  | addItem _   => True
  | login vc    => vc.Ready
  | register vc => vc.Ready

end Presented

-- Forms for a session that were opened one over the other.
structure Sessions (ps : List Presented) : Prop where
  form?     : ∀ p ∈ ps, p.form? = none
  alternate : ps.IsChain fun p q => p.isLogin ≠ q.isLogin

-- Without a session, only the forms for one are presented. With one, it is a form for a new item.
inductive Stack (email : Option String) : List Presented → Prop
  | nil :
    Stack email []
  | addItem {vc} :
    email.isSome → Stack email [.addItem vc]
  | sessions {p ps} :
    email = none → Sessions (p :: ps) → Stack email (p :: ps)

-- What a step does to the screens that are presented.
inductive StackStep [Unicode] (s : State) : List Presented → Prop
  | keep :
    StackStep s s.presented
  | dismiss :
    StackStep s []
  | addItem {vc} :
    StackStep s [.addItem vc]
  | session {t b p} :
    s.visible = .list t → b ∈ (s.list t).leftBarButtonItems → b ≠ .logout → p.form? = none →
    p.Ready → StackStep s [p]
  | editItem {vc vc' ps} :
    s.presented = .addItem vc :: ps → StackStep s (.addItem vc' :: ps)
  | edit {p p' ps} :
    s.presented = p :: ps → p.form? = none → p'.form? = none → p'.isLogin = p.isLogin →
    p'.Ready → StackStep s (p' :: ps)
  | «switch» {p p' ps} :
    s.presented = p :: ps → p.form? = none → p'.form? = none → p'.isLogin ≠ p.isLogin →
    p'.Ready → StackStep s (p' :: p :: ps)

-- The events on the forms for a session and those that open one.
def Event.onSession : Event → Bool
  | tapLogin _ | tapRegister _ | editCredential _ _ | switchForm => true
  | _ => false

section

variable [Unicode] {start : Realm → Prop} {s s' : State} {e : Event}

theorem Transition.stackStep (h : Transition s e s') (he : e.onSession = false) :
    StackStep s s'.presented := by
  cases h
  case openSession t p hv hp hf ho => rcases ho with rfl | rfl <;> simp [Event.onSession] at he
  case editCredential | switchForm => simp [Event.onSession] at he
  case tapAdd                      => exact .addItem
  case editNew vc vc' ps hs hh     => exact .editItem hs
  case submit | fail | drawRow | keepRow => exact .keep
  case save unwound _ _ _ _        => cases hu : unwound.replacesRoot <;> exact .dismiss
  all_goals exact .dismiss

theorem Step.stackStep (h : Step s e s') (hr : ∀ p ∈ s.presented, p.Ready) :
    StackStep s s'.presented := by
  cases e
  case tapLogin t =>
    obtain ⟨ha, hp⟩ := h
    simp only [State.Allows, Bool.and_eq_true, decide_eq_true_eq, List.contains_iff_mem] at ha
    exact Except.ok.inj hp ▸ .session ha.left ha.right (by simp) rfl
      (LoginTableViewController.viewDidLoad_ready _)
  case tapRegister t =>
    obtain ⟨ha, hp⟩ := h
    simp only [State.Allows, Bool.and_eq_true, decide_eq_true_eq, List.contains_iff_mem] at ha
    exact Except.ok.inj hp ▸ .session ha.left ha.right (by simp) rfl
      (RegisterTableViewController.viewDidLoad_ready _)
  case editCredential field text =>
    obtain ⟨ha, hp⟩ := h
    simp only [State.Allows] at ha
    rcases hs : s.presented with _ | ⟨vc | vc | vc, ps⟩ <;> simp only [hs, Bool.false_eq_true] at ha
    all_goals
      simp only [State.perform, State.editCredential, hs, Except.ok.injEq] at hp
      subst hp
    · have hv : vc.Ready := hr (.login vc) (by simp [hs])
      exact .edit hs rfl rfl rfl (LoginTableViewController.edit_ready hv)
    · exact .edit hs rfl rfl rfl (RegisterTableViewController.edit_ready ..)
  case switchForm =>
    obtain ⟨ha, hp⟩ := h
    simp only [State.Allows] at ha
    rcases hs : s.presented with _ | ⟨vc | vc | vc, ps⟩ <;> simp only [hs, Bool.false_eq_true] at ha
    all_goals
      simp only [State.perform, State.switchForm, hs, Except.ok.injEq] at hp
      subst hp
    · exact .switch hs rfl rfl (by simp [Presented.isLogin])
        (RegisterTableViewController.viewDidLoad_ready _)
    · exact .switch hs rfl rfl (by simp [Presented.isLogin])
        (LoginTableViewController.viewDidLoad_ready _)
  all_goals exact h.transition.stackStep rfl

omit [Unicode] in
theorem Sessions.cons_of_edit {p p' : Presented} {ps : List Presented} (h : Sessions (p :: ps))
    (hf : p'.form? = none) (hl : p'.isLogin = p.isLogin) : Sessions (p' :: ps) where
  form?     := List.forall_mem_cons.mpr ⟨hf, (List.forall_mem_cons.mp h.form?).right⟩
  alternate := by
    cases ps
    case nil       => exact .singleton _
    case cons q ps =>
      have ha := h.alternate
      rw [List.isChain_cons_cons] at ha ⊢
      exact ⟨hl ▸ ha.left, ha.right⟩

omit [Unicode] in
theorem Sessions.cons_of_switch {p p' : Presented} {ps : List Presented} (h : Sessions (p :: ps))
    (hf : p'.form? = none) (hl : p'.isLogin ≠ p.isLogin) : Sessions (p' :: p :: ps) where
  form?     := List.forall_mem_cons.mpr ⟨hf, h.form?⟩
  alternate := List.isChain_cons_cons.mpr ⟨hl, h.alternate⟩

-- A step that leaves a screen on display does not change the session.
theorem Transition.email_eq (h : Transition s e s') (hp : s'.presented ≠ []) :
    s'.auth.email = s.auth.email := by
  cases h
  case reset => simp [State.fresh] at hp
  case save unwound _ _ _ _ => cases hu : unwound.replacesRoot <;> rfl
  all_goals rfl

theorem StackStep.ready {ps : List Presented} (h : StackStep s ps)
    (hr : ∀ p ∈ s.presented, p.Ready) : ∀ p ∈ ps, p.Ready := by
  cases h
  case keep     => exact hr
  case dismiss  => simp
  case addItem  => simp [Presented.Ready]
  case session  => simpa
  case editItem hs => 
    rw [hs] at hr
    exact List.forall_mem_cons.mpr ⟨trivial, (List.forall_mem_cons.mp hr).right⟩
  case edit hs _ _ _ hr' =>
    rw [hs] at hr
    exact List.forall_mem_cons.mpr ⟨hr', (List.forall_mem_cons.mp hr).right⟩
  case «switch» hs _ _ _ hr' =>
    rw [hs] at hr
    exact List.forall_mem_cons.mpr ⟨hr', hr⟩

omit [Unicode] in
theorem Stack.sessions_of_form? {email : Option String} {p : Presented} {ps : List Presented}
    (h : Stack email (p :: ps)) (hf : p.form? = none) : email = none ∧ Sessions (p :: ps) := by
  cases h
  case addItem         => simp [Presented.form?] at hf
  case sessions he hs  => exact ⟨he, hs⟩

theorem StackStep.stack {ps : List Presented} (h : StackStep s ps) (hc : s.Coherent)
    (hs : s.SessionConsistent) (ha : ∀ vc, .addItem vc ∈ ps → s.auth.email.isSome)
    (hk : Stack s.auth.email s.presented) : Stack s.auth.email ps := by
  cases h
  case keep         => exact hk
  case dismiss      => exact .nil
  case addItem vc   => exact .addItem (ha vc (by simp))
  case session t b p hv hb hl hf hr =>
    obtain ⟨_, _, ht⟩ := State.visible_eq_list_iff.mp hv
    refine .sessions ?_ ⟨by simpa using hf, .singleton p⟩
    by_contra he
    have hu := Option.isSome_iff_ne_none.mpr (mt Auth.email_eq_none_iff.mpr he)
    simp [((hs.buttons (ht ▸ hc.selected)).signedIn hu).left, hl] at hb
  case editItem vc vc' ps hp =>
    rw [hp] at hk
    cases hk
    case addItem he    => exact .addItem he
    case sessions hs   => simpa [Presented.form?] using hs.form? (.addItem vc) (by simp)
  case edit p p' ps hp hf hf' hl hr =>
    obtain ⟨he, hs⟩ := (hp ▸ hk).sessions_of_form? hf
    exact .sessions he (hs.cons_of_edit hf' hl)
  case «switch» p p' ps hp hf hf' hl hr =>
    obtain ⟨he, hs⟩ := (hp ▸ hk).sessions_of_form? hf
    exact .sessions he (hs.cons_of_switch hf' hl)

-- Only a submission adds a request.
theorem Transition.auth_eq (h : Transition s e s') (hr : e.resets = false) (hs : e ≠ .tapSubmit)
    (hc : ∀ i, e ≠ .complete i none) : s'.auth = s.auth := by
  cases h
  case reset he             => simp [he] at hr
  case submit               => exact absurd rfl hs
  case fail i               => exact absurd rfl (hc i)
  case save unwound _ _ _ _ => cases hu : unwound.replacesRoot <;> rfl
  all_goals rfl

theorem Step.pending (h : Step s e s') (hp : ∀ p ∈ s.presented, p.Ready)
    (hr : ∀ r ∈ s.auth.pending, r.WellFormed) : ∀ r ∈ s'.auth.pending, r.WellFormed := by
  have ht := h.transition
  obtain ⟨ha, h⟩ := h
  cases e
  case launch =>
    simp only [State.perform, State.instantiateInitial_eq, Except.ok.injEq] at h
    subst h
    simp [State.fresh, Auth.restore]
  case tapLogout t throws =>
    simp only [State.perform, State.logoutAction, State.instantiateInitial_eq, Except.ok.injEq]
      at h
    subst h
    cases throws <;> exact hr
  case complete i email =>
    cases email
    all_goals
      simp only [State.perform, State.complete, State.instantiateInitial_eq, Except.ok.injEq] at h
      subst h
      exact fun r hm => hr r (List.mem_of_mem_eraseIdx hm)
  case tapSubmit =>
    have request {auth : Auth} {r : Request} (hw : r.WellFormed) (ha : auth = s.auth.request r) :
        ∀ r ∈ auth.pending, r.WellFormed := by
      subst ha
      exact List.forall_mem_append.mpr ⟨hr, by simpa using hw⟩
    simp only [State.Allows] at ha
    rcases hs : s.presented with _ | ⟨vc | vc | vc, ps⟩ <;> simp only [hs, Bool.false_eq_true] at ha
    all_goals
      simp only [State.perform, State.tapSubmit, hs, bind_eq_ok, pure_eq_ok] at h
      obtain ⟨auth, h, rfl⟩ := h
    · have hv : vc.Ready := hp (.login vc) (by simp [hs])
      obtain ⟨_, hw, he⟩ := hv.loginAction ha h
      exact request hw he
    · have hv : vc.Ready := hp (.register vc) (by simp [hs])
      obtain ⟨_, hw, he⟩ := hv.signUpAction ha h
      exact request hw he
  all_goals rwa [ht.auth_eq rfl (by simp) (by simp)]

-- The screens that are presented and the requests that are on their way.
structure State.Credentials (s : State) : Prop where
  stack   : Stack s.auth.email s.presented
  ready   : ∀ p ∈ s.presented, p.Ready
  pending : ∀ r ∈ s.auth.pending, r.WellFormed

theorem Step.credentials (h : Step s e s') (hc : s.Coherent) (hs : s.SessionConsistent)
    (hs' : s'.SessionConsistent) (hk : s.Credentials) : s'.Credentials where
  stack := by
    by_cases hp : s'.presented = []
    case pos => exact hp ▸ .nil
    case neg =>
      have he := h.transition.email_eq hp
      rw [he]
      exact (h.stackStep hk.ready).stack hc hs (fun vc hv => he ▸ (hs'.newItem hv).left) hk.stack
  ready   := (h.stackStep hk.ready).ready hk.ready
  pending := h.pending hk.ready hk.pending

theorem app_credentials (h : (app start).Reachable s) : s.Credentials := by
  have i : (app start).Invariant State.Credentials := {
    init h := by
      obtain ⟨_, _, _, rfl⟩ := app_init h
      exact ⟨.nil, by simp [State.fresh], by simp [State.fresh, Auth.restore]⟩
    step := fun hr hk h => Step.credentials h (app_coherent hr) (app_sessionConsistent hr)
      (app_sessionConsistent (hr.step h)) hk }
  exact i.holds h

-- A form is presented alone and to a user only. Without a session, forms for one may be presented
-- over each other, the two kinds in turns. All of them know which list has opened the first one.
theorem app_stack (h : (app start).Reachable s) : Stack s.auth.email s.presented ∧
    ∀ p ∈ s.presented, p.fromLostList = !s.selectedTab.showsFound :=
  ⟨(app_credentials h).stack, (app_coherent h).opener⟩

end

section

attribute [local instance] Unicode.ascii

-- Three forms are presented over each other.
theorem app_stack_switchForm : ∃ s, (State.fresh .empty (.restore none)).execute
    [.selectTab .found, .tapLogin .found, .switchForm, .switchForm] = some s ∧
    s.presented.length = 3 ∧ Stack s.auth.email s.presented := by
  have h : ((State.fresh .empty (.restore none)).execute
      [.selectTab .found, .tapLogin .found, .switchForm, .switchForm]).any
      fun s => s.presented.length == 3 := by
    decide +kernel
  simp only [Option.any_eq_true, beq_iff_eq] at h
  obtain ⟨s, hs, hl⟩ := h
  have hr : (app (· = .empty)).Reachable s := reachable_of_execute rfl hs
  exact ⟨s, hs, hl, (app_stack hr).left⟩

end

end LosTrouvee.Execution
