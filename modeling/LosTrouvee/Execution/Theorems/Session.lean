import LosTrouvee.Execution.Theorems.Origins
import LosTrouvee.Execution.Theorems.Runs

namespace LosTrouvee

namespace AddItemTableViewController

-- Whether a details screen lets the user save, mark as found and edit.
structure OffersEditing (vc : AddItemTableViewController) (owned : Prop) : Prop where
  saveButton          : vc.saveButton.isSome ↔ owned
  foundButton         : vc.foundButton.any (·.isEnabled) ↔ owned
  textField           : ∀ f, (vc.textField f).isEnabled ↔ owned
  descriptionTextView : vc.descriptionTextView.isEditable ↔ owned
  categoryPicker      : vc.categoryPicker.isHidden = false ↔ owned
  datePicker          : vc.datePicker.isHidden = false ↔ owned

theorem Consistent.offersEditing {vc : AddItemTableViewController} {auth : Auth} {b : Bool}
    (h : vc.Consistent auth b) (hi : vc.item.isSome) : vc.OffersEditing (b = true) where
  saveButton          := by rw [h.saveButton]
  foundButton         := by rw [h.foundButton]; cases b <;> simp [hi]
  textField f         := by rw [h.isEnabled f]
  descriptionTextView := by rw [h.isEditable]
  categoryPicker      := by rw [h.categoryPicker]; simp
  datePicker          := by rw [h.datePicker]; simp

end AddItemTableViewController

namespace Execution

-- What every screen on display was built for.
structure State.SessionConsistent (s : State) : Prop where
  buttons : ∀ {t}, (s.list t).isViewLoaded → (s.list t).ShowsButtons s.auth
  newItem : ∀ {vc}, .addItem vc ∈ s.presented → s.auth.email.isSome ∧ vc.Consistent s.auth true
  details : ∀ {t vc k x}, s.details t = some vc → vc.item = some (.managed k) →
    s.realm.find? k = some x → vc.Consistent s.auth (s.auth.email == some x.userEmail)

section

variable [Unicode] {start : Realm → Prop} {s s' s₁ s₂ : State} {e : Event} {es : List Event}
  {t : Tab} {k : Key} {x : Item Place Contact} {vc : AddItemTableViewController}

omit [Unicode] in
theorem State.fresh_sessionConsistent (realm : Realm) (auth : Auth) :
    (State.fresh realm auth).SessionConsistent where
  buttons := State.fresh_showsButtons
  newItem := by simp [State.fresh]
  details := by
    intro t _ _ _ hd
    cases t <;> simp [State.fresh, State.details] at hd

theorem Transition.sessionConsistent (h : Transition s e s') (hc : s.Coherent)
    (hs : s.SessionConsistent) : s'.SessionConsistent where
  buttons := by
    intro t hl
    rcases h.buttons_origin hl with hb | ⟨hu, hl, hb, hb'⟩
    · exact hb
    · have ⟨ho, hi⟩ := hs.buttons hl
      exact ⟨by rw [hu, hb, hb']; exact ho, by rw [hu, hb, hb']; exact hi⟩
  newItem := by
    intro vc' hp
    obtain ⟨hu, hp | ⟨vc, fe, hp, -, hh⟩ | ⟨t, now, -, hv, hb, hl⟩⟩ := h.newItem_origin hp
    all_goals rw [Auth.email_congr hu]
    · have ⟨he, hf⟩ := hs.newItem hp
      exact ⟨he, hf.congr hu⟩
    · have ⟨he, hf⟩ := hs.newItem hp
      exact ⟨he, (AddItemTableViewController.handle_consistent hh hf).congr hu⟩
    · obtain ⟨_, _, ht⟩ := State.visible_eq_list_iff.mp hv
      have ⟨ho, _⟩ := hs.buttons (ht ▸ hc.selected)
      obtain ⟨_, _, hf⟩ := AddItemTableViewController.viewDidLoad_new_spec hl
      refine ⟨Option.isSome_iff_ne_none.mpr fun he => ?_, hf.congr hu⟩
      have ⟨_, hr⟩ := ho (Auth.email_eq_none_iff.mp he)
      simp [hr] at hb
  details := by
    intro t vc' k x hd hi hx
    obtain ⟨hu, hd | ⟨vc, fe, hd, -, hh⟩ | ⟨row, now, j, y, -, hk, hy, hr, hl⟩⟩ :=
      h.details_origin hd
    all_goals rw [Auth.email_congr hu]
    · obtain ⟨y, hy, -⟩ := ((hc.nav t).opened hd).find? hi
      obtain rfl := h.storeStep.eq_of_find? hy hx
      exact (hs.details hd hi hy).congr hu
    · have hf := AddItemTableViewController.handle_frame hh
      obtain ⟨y, hy, -⟩ := ((hc.nav t).opened hd).find? (hf.item.symm.trans hi)
      obtain rfl := h.storeStep.eq_of_find? hy hx
      have hv := hs.details hd (hf.item.symm.trans hi) hy
      exact (AddItemTableViewController.handle_consistent hh hv).congr hu
    · obtain ⟨hi', _, hf⟩ := AddItemTableViewController.viewDidLoad_details_spec hl hy
      obtain ⟨⟩ := hi.symm.trans hi'
      obtain rfl : y = x := by simpa [← hr, hx] using hy.symm
      exact hf.congr hu

theorem app_sessionConsistent (h : (app start).Reachable s) : s.SessionConsistent := by
  have i : (app start).Invariant State.SessionConsistent := {
    init h := by
      obtain ⟨_, _, _, rfl⟩ := app_init h
      exact State.fresh_sessionConsistent _ _
    step := fun hr hs h => h.transition.sessionConsistent (app_coherent hr) hs }
  exact i.holds h

omit [Unicode] in
-- A form on top of the app goes with the session and, if it has an item, with its owner.
theorem State.SessionConsistent.formAt (h : s.SessionConsistent) (hc : s.Coherent) {source : Screen}
    {d : Destination} (ha : s.FormAt source d vc t) :
    vc.item = none ∧ s.auth.email.isSome ∧ vc.Consistent s.auth true ∨
    ∃ k x, vc.item = some (.managed k) ∧ s.realm.find? k = some x ∧
      vc.Consistent s.auth (s.auth.email == some x.userEmail) := by
  cases ha
  case details hp hd   =>
    have ⟨_, _, hi, hx, _⟩ := (hc.nav _).opened hd
    exact .inr ⟨_, _, hi, hx, h.details hd hi hx⟩
  case presented ps hp =>
    have hi := hc.newItem (.addItem vc) (by simp [hp]) rfl
    exact .inl ⟨hi, h.newItem (by simp [hp])⟩

omit [Unicode] in
-- The buttons of a form with an item are for the owner of the item only.
theorem State.SessionConsistent.owner (h : s.SessionConsistent) (hc : s.Coherent) {source : Screen}
    {d : Destination} {vc : AddItemTableViewController} (ha : s.FormAt source d vc t)
    (hb : vc.saveButton.any (·.isEnabled) ∨ vc.foundButton.any (·.isEnabled))
    (hi : vc.item = some (.managed k)) (hx : s.realm.find? k = some x) :
    s.auth.email = some x.userEmail := by
  rcases h.formAt hc ha with ⟨hn, -⟩ | ⟨j, z, hj, hz, hv⟩
  · simp [hi] at hn
  · obtain rfl : k = j := by simpa [hi] using hj
    obtain rfl : x = z := by simpa [hx] using hz
    have hu : s.auth.email == some x.userEmail := by
      rcases hb with hb | hb
      · obtain ⟨button, hb, -⟩ := (Option.any_eq_true ..).mp hb
        simpa [hb] using hv.saveButton.symm
      · by_contra hn
        simp [hv.foundButton, hn] at hb
    simpa using hu

omit [Unicode] in
theorem State.SessionConsistent.complete (h : s.SessionConsistent) (hc : s.Coherent)
    {source : Screen} {d : Destination} (ha : s.FormAt source d vc t)
    (hb : vc.saveButton.any (·.isEnabled)) : s.auth.currentUser.isSome ∧ vc.Complete := by
  have ⟨b, hf⟩ : ∃ b, vc.Consistent s.auth b := by
    rcases h.formAt hc ha with ⟨-, -, hf⟩ | ⟨_, _, -, -, hf⟩ <;> exact ⟨_, hf⟩
  have ⟨button, hv, hb⟩ := (Option.any_eq_true ..).mp hb
  rw [hf.upToDate button hv, Bool.and_eq_true, AddItemTableViewController.validateInput_iff] at hb
  exact hb.symm

theorem State.SessionConsistent.newItem_ok (h : s.SessionConsistent) (hc : s.Coherent)
    {source : Screen} {d : Destination} {now : Date} (ha : s.FormAt source d vc t)
    (hb : vc.saveButton.any (·.isEnabled)) : ∃ y, vc.newItem s.auth now = .ok y := by
  have ⟨_, hl⟩ : ∃ c : Category, vc.categorySelectedLabel.text = some c.title := by
    rcases h.formAt hc ha with ⟨-, -, hf⟩ | ⟨_, _, -, -, hf⟩ <;> exact hf.label
  have ⟨hu, _⟩ := h.complete hc ha hb
  have ⟨_, he⟩ := Option.ne_none_iff_exists'.mp <|
    mt Auth.email_eq_none_iff.mp (Option.isSome_iff_ne_none.mp hu)
  exact AddItemTableViewController.newItem_ok hl he

-- A form for a new item stays with the user that has opened it.
theorem app_newItem_user (hr : (app start).Reachable s) {now : Date}
    (h : Step s (.tapAdd t now) s₁) (r : (app start).Run s₁ es s₂)
    (hn : ∀ e ∈ es, ∀ t now, e ≠ .tapAdd t now) (hp : .addItem vc ∈ s₂.presented) :
    s₂.auth.currentUser = s.auth.currentUser := by
  have step {s₁ e s₂} (_ : (app start).Reachable s₁) (hn : ∀ t now, e ≠ .tapAdd t now)
      (h : (app start).Step s₁ e s₂)
      (hi : ∀ vc, .addItem vc ∈ s₁.presented → s₁.auth.currentUser = s.auth.currentUser) :
      ∀ vc, .addItem vc ∈ s₂.presented → s₂.auth.currentUser = s.auth.currentUser := by
    intro vc hp
    obtain ⟨hu, hp | ⟨_, _, hp, -, -⟩ | ⟨t, now, he, -⟩⟩ := h.transition.newItem_origin hp
    · exact hu.trans (hi _ hp)
    · exact hu.trans (hi _ hp)
    · exact absurd he (hn t now)
  have first : ∀ vc, .addItem vc ∈ s₁.presented → s₁.auth.currentUser = s.auth.currentUser :=
    fun _ hp => (h.transition.newItem_origin hp).left
  exact r.preserves step (hr.step h) hn first vc hp

structure State.BuiltForCurrentUser (s : State) : Prop where
  lists   : ∀ {t}, (s.list t).isViewLoaded → (s.list t).ShowsButtons s.auth
  newItem : ∀ {vc}, .addItem vc ∈ s.presented → s.auth.currentUser.isSome
  details : ∀ {t vc}, s.details t = some vc → ∃ k x, vc.item = some (.managed k) ∧
    s.realm.find? k = some x ∧ vc.OffersEditing (s.auth.email = some x.userEmail)
  save    : ∀ {source d now}, s.Allows (.unwind source .saveUnwind d now) →
    ∃ user email, s.auth.currentUser = some user ∧ user.email = some email

-- Every screen on display goes with the session, whatever the requests do in the meantime.
theorem app_builtForCurrentUser (h : (app start).Reachable s) :
    s.BuiltForCurrentUser ∧
    ∀ {t now s₁ es s₂ vc}, Step s (.tapAdd t now) s₁ → (app start).Run s₁ es s₂ →
      (∀ e ∈ es, ∀ t now, e ≠ .tapAdd t now) → .addItem vc ∈ s₂.presented →
      s₂.auth.currentUser = s.auth.currentUser := by
  have hc := app_coherent h
  have hs := app_sessionConsistent h
  refine ⟨⟨hs.buttons, fun hp => ?_, fun hd => ?_, fun ha => ?_⟩, app_newItem_user h⟩
  · have ⟨he, _⟩ := hs.newItem hp
    rw [Option.isSome_iff_ne_none] at he ⊢
    exact mt Auth.email_eq_none_iff.mpr he
  · have ⟨_, _, hi, hx, _⟩ := (hc.nav _).opened hd
    have ho := (hs.details hd hi hx).offersEditing (by simp [hi])
    exact ⟨_, _, hi, hx, by simpa using ho⟩
  · rcases State.allows_unwind ha with ⟨vc, t, hf, ho⟩ | ⟨_, _, _, _, _, hn, _⟩
    · have ⟨hu, _⟩ := hs.complete hc hf ho
      have ⟨user, hu⟩ := Option.isSome_iff_exists.mp hu
      have ⟨email, he⟩ := Option.isSome_iff_exists.mp (s.auth.hasEmail hu)
      exact ⟨user, email, hu, he⟩
    · exact absurd rfl hn

end

section

attribute [local instance] Unicode.ascii

-- A user signs in while the form of the sign-in is open, and opens a form for a new item.
theorem app_builtForCurrentUser_signIn : ∃ s, (State.fresh .empty (.restore none)).execute
    [.tapLogin .lost, .editCredential .email "ann@los.be", .editCredential .password "secret12",
      .tapSubmit, .complete 0 (some "ann@los.be"), .tapAdd .lost 0] = some s ∧
    s.BuiltForCurrentUser := by
  refine (Option.isSome_iff_exists.mp ?_).imp fun s h => ⟨h, ?_⟩
  · decide +kernel
  · have hr : (app fun _ => True).Reachable s := reachable_of_execute trivial h
    exact (app_builtForCurrentUser hr).left

end

end Execution
end LosTrouvee
