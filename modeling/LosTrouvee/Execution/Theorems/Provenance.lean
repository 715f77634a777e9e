import LosTrouvee.Execution.Theorems.Links
import LosTrouvee.Execution.Theorems.Validity

namespace LosTrouvee

namespace Realm

variable {r r' : Realm} {j k : Key} {x y : Item Place Contact}

-- The object `k` is or was the item `x`.
def Identifies (r : Realm) (k : Key) (x : Item Place Contact) : Prop :=
  r.find? k = some x ∨ r.find? k = none ∧ k < r.items.nextKey

theorem Identifies.eq (h : r.Identifies k x) (hy : r.find? k = some y) : y = x := by
  rcases h with hx | ⟨hn, -⟩ <;> simp_all

theorem Identifies.lt_nextKey (h : r.Identifies k x) : k < r.items.nextKey := by
  rcases h with hx | ⟨-, hl⟩
  · have ⟨_, hx, _⟩ := Option.map_eq_some_iff.mp hx
    exact Table.lt_nextKey hx
  · exact hl

theorem Identifies.erase (h : r.Identifies k x) (j : Key) : (r.erase j).Identifies k x := by
  by_cases hj : k = j
  case pos => exact .inr ⟨by simp [find?_erase, hj], h.lt_nextKey⟩
  case neg => simpa [Identifies, find?_erase_of_ne hj] using h

theorem Identifies.insert (h : r.Identifies k x) (y : Item Place Contact) :
    (r.insert y).Identifies k x := by
  have hl := h.lt_nextKey
  have hf : (r.insert y).find? k = r.find? k := by
    rw [find?_insert, Function.update_of_ne (Nat.ne_of_lt hl)]
  rcases h with hx | ⟨hn, -⟩
  · exact .inl (hf.trans hx)
  · exact .inr ⟨hf.trans hn, Nat.lt_succ_of_lt hl⟩

theorem Identifies.write (h : r.Identifies k x) (w : r.Write r') : r'.Identifies k x := by
  cases w
  case skip    => exact h
  case erase   => exact h.erase _
  case insert  => exact h.insert _
  case replace => exact (h.erase _).insert _

-- What a signed-in user changes in one step: an item of the user is deleted, or one is inserted,
-- which may take the place of any other one.
inductive Changes (r : Realm) (email : String) : Realm → Prop
  | erase {k : Key} {x : Item Place Contact} :
    r.find? k = some x → x.userEmail = email → Changes r email (r.erase k)
  | insert {y : Item Place Contact} :
    y.WellFormed → y.userEmail = email → Changes r email (r.insert y)
  | replace {k : Key} {x y : Item Place Contact} :
    r.find? k = some x → y.WellFormed → y.userEmail = email →
    Changes r email ((r.erase k).insert y)

end Realm

namespace Execution

-- A complete form of the user that `x` names is saved as `x` under a key that is free.
inductive Posts [Unicode] (s : State) (k : Key) (x : Item Place Contact) (s' : State) : Prop
  | intro {source d t now} {vc : AddItemTableViewController} :
    s.FormAt source d vc t → vc.Complete → vc.newItem s.auth now = .ok x →
    s.auth.email = some x.userEmail → s.realm.find? k = none →
    Step s (.unwind source .saveUnwind d now) s' → Posts s k x s'

section

variable [Unicode] {start : Realm → Prop} {s s' s₀ s₁ s₂ s₃ : State} {e : Event} {es : List Event}
  {k : Key} {x y : Item Place Contact} {t u : Tab} {source : Screen} {d : Destination}
  {now : Date} {vc vc' : AddItemTableViewController}

theorem run_identifies (r : (app start).Run s es s') (h : s.realm.Identifies k x) :
    s'.realm.Identifies k x := by
  induction r
  case refl        => exact h
  case step e _ hi => exact hi (h.write (Step.write e))

-- A key stands for one item for ever, even after the item is gone.
theorem run_find?_eq (r : (app start).Run s es s') (hx : s.realm.find? k = some x)
    (hy : s'.realm.find? k = some y) : y = x :=
  (run_identifies r (.inl hx)).eq hy

theorem Step.posts (h : Step s e s') (hc : s.Coherent) (hs : s.SessionConsistent)
    (hn : s.realm.find? k ≠ some x) (hx : s'.realm.find? k = some x) : Posts s k x s' := by
  have hw := h.transition.storeStep
  rcases hw.item_origin hx with hx | ⟨source, d, vc, t, now, rfl, ha, hb, hy⟩
  · exact absurd hx hn
  · have ⟨_, _, hu, _⟩ := AddItemTableViewController.newItem_spec hy
    have hk : s.realm.find? k = none := by
      by_contra hk
      have ⟨z, hz⟩ := Option.ne_none_iff_exists'.mp hk
      exact hn (hw.eq_of_find? hz hx ▸ hz)
    exact ⟨ha, (hs.complete hc ha hb).right, hy, hu, hk, h⟩

-- Every stored item was saved by the user it names, from a complete form and under a key that was
-- free, and it has stayed as it is since.
theorem app_provenance (h : (app (· = .empty)).Reachable s) (hx : s.realm.find? k = some x) :
    ∃ s₀ s₁ es, (app (· = .empty)).Reachable s₀ ∧ Posts s₀ k x s₁ ∧
      ((app (· = .empty)).restrict fun s _ => s.realm.find? k = some x).Run s₁ es s := by
  have init {s} (h : (app (· = .empty)).Init s) : s.realm.find? k ≠ some x := by
    obtain ⟨_, _, rfl, rfl⟩ := app_init h
    simp [State.fresh]
  obtain ⟨s₀, e, s₁, es, hr, hn, he, hx₁, r⟩ := h.established init hx
  exact ⟨s₀, s₁, es, hr, he.posts (app_coherent hr) (app_sessionConsistent hr) hn hx₁, r⟩

theorem Step.save (h : Step s (.unwind source .saveUnwind d now) s')
    (ha : s.FormAt source d vc t) : ∃ y, vc.newItem s.auth now = .ok y ∧
      s'.realm.find? s.realm.items.nextKey = some y := by
  have hw := h.transition.storeStep
  generalize s'.realm = realm, he : Event.unwind source .saveUnwind d now = e at hw
  cases hw
  case skip hs        => simp [← he, Event.saves] at hs
  case delete | found => simp at he
  case insert ha' _ hy _ | replace ha' _ hy _ _ _ =>
    obtain ⟨rfl, -, rfl, rfl⟩ := Event.unwind.inj he
    rw [ha.unique ha'] at hy
    exact ⟨_, hy, by simp [Realm.find?_insert, Realm.erase_nextKey]⟩

-- What a form is saved as is shown to everyone who opens it later, in every input as the form has
-- shown it. Only its user can edit it.
theorem app_showsPosted (h₀ : (app (· = .empty)).Reachable s₀) (ha : s₀.FormAt source d vc t)
    (h₁ : Step s₀ (.unwind source .saveUnwind d now) s₁) :
    ∃ k y, s₀.realm.find? k = none ∧ s₁.realm.find? k = some y ∧
      ∀ es s₂ u row now' s₃, (app (· = .empty)).Run s₁ es s₂ →
        (s₂.list u).items[row]? = some k → Step s₂ (.selectRow u row now') s₃ →
        ∃ vc', s₃.details u = some vc' ∧ vc'.OffersEditing (s₂.auth.email = s₀.auth.email) ∧
          ∀ f, (f = .date → vc.datePicker.date ≤ now') → vc'.value f = vc.value f := by
  obtain ⟨y, hy, hk⟩ := h₁.save ha
  obtain ⟨hv, _, hu, _⟩ := AddItemTableViewController.newItem_spec hy
  refine ⟨_, y, s₀.realm.find?_nextKey, hk, fun es s₂ u row now' s₃ r hl h₃ => ?_⟩
  have hr₂ := r.reachable (h₀.step h₁)
  have hw : s₂.realm.WellFormed := app_wellFormed (by rintro _ rfl; simp [Realm.WellFormed]) hr₂
  obtain ⟨z, hz⟩ := Option.isSome_iff_exists.mp <|
    ((app_coherent hr₂).list u).stored _ (List.mem_of_getElem? hl)
  obtain rfl : z = y := run_find?_eq r hk hz
  obtain ⟨vc', hd, _, hl'⟩ := h₃.selectRow hl hz
  obtain ⟨hi, _, hf⟩ := AddItemTableViewController.viewDidLoad_details_spec hl' hz
  refine ⟨vc', hd, ?_, fun f ht => ?_⟩
  · simpa [hu] using hf.offersEditing (by simp [hi])
  · rw [← hv f]
    refine AddItemTableViewController.viewDidLoad_details_value hl' hz (hw _ _ hz) fun h => ?_
    have hd : z.timestamp = vc.datePicker.date := by
      simpa [Item.value, AddItemTableViewController.value] using hv .date
    exact hd ▸ ht h

theorem Step.changes (h : Step s e s') (hc : s.Coherent) (hs : s.SessionConsistent) :
    s'.realm = s.realm ∨ ∃ email, s.auth.email = some email ∧ s.realm.Changes email s'.realm := by
  have hw := h.transition.storeStep
  generalize s'.realm = realm at hw
  cases hw
  case skip                     => exact .inl rfl
  case delete hk hx hu          => exact .inr ⟨_, hu, .erase hx rfl⟩
  case found ha hb hi hx        => exact .inr ⟨_, hs.owner hc ha (.inr hb) hi hx, .erase hx rfl⟩
  case insert ha hb hy _        =>
    have ⟨_, _, hu, _⟩ := AddItemTableViewController.newItem_spec hy
    have hw := AddItemTableViewController.newItem_wellFormed hy (hs.complete hc ha hb).right
    exact .inr ⟨_, hu, .insert hw rfl⟩
  case replace ha hb hy _ _ hx  =>
    have ⟨_, _, hu, _⟩ := AddItemTableViewController.newItem_spec hy
    have hw := AddItemTableViewController.newItem_wellFormed hy (hs.complete hc ha hb).right
    exact .inr ⟨_, hu, .replace hx hw rfl⟩

-- Nobody changes the Realm without a session, and with one only in the ways above.
theorem app_changes (h : (app start).Reachable s) :
    (∀ e s', Step s e s' → s'.realm = s.realm ∨
      ∃ email, s.auth.email = some email ∧ s.realm.Changes email s'.realm) ∧
    ∀ es s', ((app start).restrict fun s _ => s.auth.email = none).Run s es s' →
      s'.realm = s.realm := by
  refine ⟨fun e s' hs => hs.changes (app_coherent h) (app_sessionConsistent h), fun es s' r => ?_⟩
  refine r.preserves_of_restrict (I := (·.realm = s.realm)) (fun hr hn h hI => ?_) h rfl
  rcases Step.changes h (app_coherent hr) (app_sessionConsistent hr) with he | ⟨_, hu, -⟩
  · exact he.trans hI
  · simp [hn] at hu

end

section

attribute [local instance] Unicode.ascii

theorem app_provenance_post : ∃ s x s₀ s₁,
    (State.fresh .empty (.restore none)).execute (signIn "ann@los.be" ++ post .lost) = some s ∧
    s.realm.find? 0 = some x ∧ Posts s₀ 0 x s₁ := by
  have h : ((State.fresh .empty (.restore none)).execute (signIn "ann@los.be" ++ post .lost)).any
      fun s => (s.realm.find? 0).isSome := by
    decide +kernel
  simp only [Option.any_eq_true, Option.isSome_iff_exists] at h
  obtain ⟨s, hs, x, hx⟩ := h
  have hr : (app (· = .empty)).Reachable s := reachable_of_execute rfl hs
  have ⟨s₀, s₁, _, _, hp, _⟩ := app_provenance hr hx
  exact ⟨s, x, s₀, s₁, hs, hx, hp⟩

-- Bob opens the item that Ann has posted.
theorem app_showsPosted_selectRow :
    let save := Event.unwind .presented .saveUnwind .opener 0
    let bob := Event.tapLogout .lost false :: signIn "bob@los.be"
    ∃ s₀ s₁ s₂ s₃ vc vc',
      (State.fresh .empty (.restore none)).execute
        (signIn "ann@los.be" ++ .tapAdd .lost 0 :: fillIn) = some s₀ ∧
      s₀.FormAt .presented .opener vc (s₀.destinationTab .opener) ∧ Step s₀ save s₁ ∧
      s₁.execute bob = some s₂ ∧ Step s₂ (.selectRow .lost 0 0) s₃ ∧
      s₃.details .lost = some vc' ∧
      ∀ f, (f = .date → vc.datePicker.date ≤ 0) → vc'.value f = vc.value f := by
  intro save bob
  have h : ((State.fresh .empty (.restore none)).execute
      (signIn "ann@los.be" ++ .tapAdd .lost 0 :: fillIn)).any fun s₀ =>
      s₀.presented.head?.any fun p => p.form?.isSome &&
        (s₀.execute [save]).any fun s₁ => s₁.realm.objects == [0] &&
          (s₁.execute bob).any fun s₂ => (s₂.list .lost).items[0]? == some 0 &&
            (s₂.execute [.selectRow .lost 0 0]).isSome := by
    decide +kernel
  simp only [Option.any_eq_true, Bool.and_eq_true, beq_iff_eq, Option.isSome_iff_exists,
    List.head?_eq_some_iff] at h
  obtain ⟨s₀, h₀, p, ⟨ps, hp⟩, ⟨vc, hf⟩, s₁, h₁, ho, s₂, h₂, hk, s₃, h₃⟩ := h
  cases p <;> simp only [Presented.form?, reduceCtorEq, Option.some.injEq] at hf
  subst hf
  have hr : (app (· = .empty)).Reachable s₀ := reachable_of_execute rfl h₀
  have ha : s₀.FormAt .presented .opener _ (s₀.destinationTab .opener) := .presented hp
  have h₁ := step_of_execute h₁
  have h₃ := step_of_execute h₃
  obtain ⟨k, y, _, hy, hv⟩ := app_showsPosted hr ha h₁
  have hm : k ∈ s₁.realm.objects := Realm.mem_objects_iff.mpr ⟨y, hy⟩
  obtain rfl : k = 0 := by simpa [ho] using hm
  obtain ⟨vc', hd, _, hv⟩ := hv _ _ _ _ _ _ (run_of_execute h₂) hk h₃
  exact ⟨s₀, s₁, s₂, s₃, _, vc', h₀, ha, h₁, h₂, h₃, hd, hv⟩

-- Ann signs out, and what is done from then on changes nothing.
theorem app_changes_signedOut : ∃ s s',
    (State.fresh .empty (.restore none)).execute
      (signIn "ann@los.be" ++ post .lost ++ [.tapLogout .lost false]) = some s ∧
    s.executeIf (fun s _ => s.auth.email = none)
      [.selectRow .lost 0 0, .selectTab .found, .tapLogin .found] = some s' ∧
    s'.realm = s.realm := by
  have h : ((State.fresh .empty (.restore none)).execute
      (signIn "ann@los.be" ++ post .lost ++ [.tapLogout .lost false])).any fun s =>
      (s.executeIf (fun s _ => s.auth.email = none)
        [.selectRow .lost 0 0, .selectTab .found, .tapLogin .found]).isSome := by
    decide +kernel
  simp only [Option.any_eq_true, Option.isSome_iff_exists] at h
  obtain ⟨s, hs, s', hs'⟩ := h
  have hr : (app (· = .empty)).Reachable s := reachable_of_execute rfl hs
  have r : ((app (· = .empty)).restrict _).Run s _ s' := run_of_executeIf hs'
  exact ⟨s, s', hs, hs', (app_changes hr).right _ _ (by simpa using r)⟩

end
end Execution
end LosTrouvee
