import Mathlib
import LosTrouvee.Execution.Theorems.Forms
import LosTrouvee.Execution.Theorems.RoundTrip
import LosTrouvee.Library.Clock

namespace LosTrouvee

-- Nothing was lost or found after it was posted, and nothing was posted after `now`.
structure Item.Dated (now : Date) (x : Item Place Contact) : Prop where
  timestamp : x.timestamp ≤ x.timeAdded
  timeAdded : x.timeAdded ≤ now

theorem Item.Dated.mono {now now' : Date} {x : Item Place Contact} (h : x.Dated now)
    (hn : now ≤ now') : x.Dated now' :=
  { h with timeAdded := h.timeAdded.trans hn }

namespace Execution

-- The labels of every open form go with its pickers. The forms were loaded at times in `D`.
def State.InSync (D : Set Date) (s : State) : Prop :=
  ∀ vc, s.HasForm vc → ∃ loaded ∈ D, vc.InSync loaded

section

variable [Unicode] {start : Realm → Prop} {s s' : State} {e : Event} {now now' : Date} {t : Tab}
  {k : Key} {x y : Item Place Contact} {vc : AddItemTableViewController} {D D' : Set Date}

omit [Unicode] in
theorem State.fresh_inSync (realm : Realm) (auth : Auth) (D : Set Date) :
    (State.fresh realm auth).InSync D :=
  fun _ hf => (not_hasForm_fresh _ _ hf).elim

theorem Transition.inSync (h : Transition s e s') (hs : s.InSync D) (hD : D ⊆ D')
    (ht : ∀ u ∈ e.now?, u ∈ D') : s'.InSync D' := by
  intro vc' hf
  rcases h.form_origin hf with hf | ⟨vc, _, hf, hh⟩ | ⟨u, hu, hl⟩
  · exact (hs vc' hf).imp fun _ h => ⟨hD h.left, h.right⟩
  · have ⟨m, hm, hv⟩ := hs vc hf
    exact ⟨m, hD hm, AddItemTableViewController.handle_inSync hh hv⟩
  · exact ⟨u, ht u hu, hl.inSync⟩

-- Whatever is done on a form, it shows what it will be saved as.
theorem app_pickers (h : (app start).Reachable s) : s.InSync .univ ∧
    ∀ source d vc t now y, s.FormAt source d vc t → vc.newItem s.auth now = .ok y → vc.Saved y := by
  have i : (app start).Invariant (State.InSync .univ) := {
    init h := by
      obtain ⟨_, _, _, rfl⟩ := app_init h
      exact State.fresh_inSync _ _ _
    step := fun _ hs h => h.transition.inSync hs (Set.subset_univ _) fun _ _ => trivial }
  refine ⟨i.holds h, fun source d vc t now y ha hy => ?_⟩
  have ⟨_, _, hv⟩ := i.holds h vc ha.hasForm
  refine hv.newItem ?_ hy
  rcases (app_sessionConsistent h).formAt (app_coherent h) ha with ⟨-, -, hf⟩ | ⟨_, _, -, -, hf⟩ <;>
    exact hf.label

theorem Transition.dated (h : Transition s e s') (hs : s.InSync {m | m ≤ now}) (hn : now ≤ now')
    (ht : ∀ u ∈ e.now?, u = now') (hd : ∀ k x, s.realm.find? k = some x → x.Dated now)
    (hx : s'.realm.find? k = some x) : x.Dated now' := by
  rcases h.storeStep.item_origin hx with hx | ⟨source, d, vc, t, u, rfl, ha, -, hy⟩
  · exact (hd k x hx).mono hn
  · obtain ⟨m, hm, hv⟩ := hs vc ha.hasForm
    obtain ⟨_, _, _, hu⟩ := AddItemTableViewController.newItem_spec hy
    have hu : x.timeAdded = now' := hu.trans (ht u rfl)
    have hl : x.timestamp ≤ m := by
      have hd := (AddItemTableViewController.newItem_spec hy).left .date
      simp only [Item.value, AddItemTableViewController.value, Sum.inr.injEq] at hd
      exact hd ▸ hv.date_le
    exact {
      timestamp := (hl.trans hm).trans (hn.trans hu.ge)
      timeAdded := hu.le }

theorem app_inSync (h : ((app start).clocked Event.now?).Reachable (s, now)) :
    s.InSync {m | m ≤ now} := by
  have i : ((app start).clocked Event.now?).Invariant fun s => s.1.InSync {m | m ≤ s.2} := {
    init {s} h := by
      obtain ⟨_, _, _, hs⟩ := app_init h
      exact hs ▸ State.fresh_inSync _ _ _
    step := fun _ hs h =>
      h.left.transition.inSync hs (fun _ hm => hm.trans h.right.left)
        fun u hu => (h.right.right u hu).le }
  exact i.holds h

theorem app_dated (h : ((app (· = .empty)).clocked Event.now?).Reachable (s, now))
    (hx : s.realm.find? k = some x) : x.Dated now := by
  have i : ((app (· = .empty)).clocked Event.now?).Invariant fun s =>
      ∀ k x, s.1.realm.find? k = some x → x.Dated s.2 := {
    init {s} h := by
      obtain ⟨_, _, rfl, hs⟩ := app_init h
      simp [hs, State.fresh]
    step := fun hr hd h k x hx =>
      h.left.transition.dated (app_inSync hr) h.right.left h.right.right hd hx }
  exact i.holds h k x hx

-- As long as the clock does not go back, nothing is stored with a date in the future, so the
-- details of an item show all of it whenever they are opened.
theorem app_dates (h : ((app (· = .empty)).clocked Event.now?).Reachable (s, now)) :
    (∀ k x, s.realm.find? k = some x → x.Dated now) ∧
    ∀ t row k x now' s', now ≤ now' → (s.list t).items[row]? = some k →
      s.realm.find? k = some x → Step s (.selectRow t row now') s' →
      ∃ vc, s'.details t = some vc ∧ ∀ f, vc.value f = x.value f := by
  refine ⟨fun k x => app_dated h, fun t row k x now' s' hn hk hx hs => ?_⟩
  have hw : s.realm.WellFormed :=
    app_wellFormed (by rintro _ rfl; simp [Realm.WellFormed]) h.forget
  have ht := (app_dated h hx).timestamp.trans ((app_dated h hx).timeAdded.trans hn)
  obtain ⟨vc, hd, _⟩ := hs.selectRow hk hx
  have hv : ShowsItem s' k x (fun _ => False) vc :=
    hs.showsItem_selectRow hk hx (hw k x hx) ht hd
  exact ⟨vc, hd, fun f => hv.values f id⟩

end

section

attribute [local instance] Unicode.ascii

-- Ann picks another category and another date for a new item.
theorem app_pickers_newItem :
    let form (e : AddItemTableViewController.FormEvent) := Event.form .presented e
    ∃ s vc y, (State.fresh .empty (.restore (some "ann@los.be"))).execute
        [.tapAdd .lost 8, form (.tapRow 0 1), form (.pickCategory 3), form (.tapRow 0 2),
          form (.pickDate 5)] = some s ∧
      s.FormAt .presented .opener vc (s.destinationTab .opener) ∧
      vc.newItem s.auth 9 = .ok y ∧ y.timestamp = 5 ∧ vc.Saved y := by
  intro form
  have h : ((State.fresh .empty (.restore (some "ann@los.be"))).execute
      [.tapAdd .lost 8, form (.tapRow 0 1), form (.pickCategory 3), form (.tapRow 0 2),
        form (.pickDate 5)]).any fun s =>
      s.presented.head?.any fun p => p.form?.any fun vc => (vc.newItem s.auth 9).toOption.any
        fun y => y.timestamp == 5 := by
    decide +kernel
  simp only [Option.any_eq_true, beq_iff_eq, List.head?_eq_some_iff] at h
  obtain ⟨s, hs, p, ⟨ps, hp⟩, vc, hf, y, hy, ht⟩ := h
  have hr : (app (· = .empty)).Reachable s := reachable_of_execute rfl hs
  have hy : vc.newItem s.auth 9 = .ok y := by
    cases h : vc.newItem s.auth 9 <;> simp_all [Except.toOption]
  cases p <;> simp only [Presented.form?, reduceCtorEq, Option.some.injEq] at hf
  subst hf
  have ha : s.FormAt .presented .opener _ (s.destinationTab .opener) := .presented hp
  exact ⟨s, _, y, hs, ha, hy, ht, (app_pickers hr).right _ _ _ _ _ _ ha hy⟩

-- Ann opens an item a moment after she has posted it.
theorem app_dates_selectRow : ∃ s s' x vc,
    (State.fresh .empty (.restore none)).execute (signIn "ann@los.be" ++ post .lost) = some s ∧
    s.realm.find? 0 = some x ∧ Step s (.selectRow .lost 0 1) s' ∧ s'.details .lost = some vc ∧
    ∀ f, vc.value f = x.value f := by
  have h : ((State.fresh .empty (.restore none)).execute (signIn "ann@los.be" ++ post .lost)).any
      fun s => (s.list .lost).items[0]? == some 0 && (s.realm.find? 0).isSome &&
        (s.execute [.selectRow .lost 0 1]).isSome := by
    decide +kernel
  simp only [Option.any_eq_true, Bool.and_eq_true, beq_iff_eq, Option.isSome_iff_exists] at h
  obtain ⟨s, hs, ⟨hk, x, hx⟩, s', hs'⟩ := h
  have r : ((app (· = .empty)).clocked Event.now?).Run (_, 0) _ (s, 0) :=
    (run_of_execute hs).stopped (by simp [signIn, post, fillIn, Event.now?])
  have hr := r.reachable (.init ⟨.empty, none, rfl, State.instantiateInitial_eq ..⟩)
  have hs' := step_of_execute hs'
  have ⟨vc, hd, hv⟩ := (app_dates hr).right .lost 0 0 x 1 s' (by decide) hk hx hs'
  exact ⟨s, s', x, vc, hs, hx, hs', hd, hv⟩

end
end Execution
end LosTrouvee
