import LosTrouvee.Execution.Theorems.Validity

namespace LosTrouvee

open AddItemTableViewController (Field)

-- An item `y` that is saved in place of `x` from a form on which the inputs `F` were changed.
structure Item.Updates [Unicode] (F : Field → Prop) (vc : AddItemTableViewController)
    (x y : Item Place Contact) : Prop where
  untouched : ∀ f, ¬F f → y.value f = x.value f
  changed   : ∀ f, F f → y.value f = vc.value f
  found     : y.found = x.found
  userEmail : y.userEmail = x.userEmail
  timeAdded : y.timeAdded = x.timeAdded
  unchanged : (∀ f, ¬F f) → y = x

namespace Execution

-- The inputs that the user changes on the details screen over the list of `t`.
def Edits (t : Tab) (es : List Event) (f : Field) : Prop :=
  ∃ fe, .form (.details t) fe ∈ es ∧ fe.field? = some f

-- A details screen for the item `x` that shows it but for the inputs `F`.
structure ShowsItem [Unicode] (s : State) (k : Key) (x : Item Place Contact) (F : Field → Prop)
    (vc : AddItemTableViewController) : Prop where
  item   : vc.item = some (.managed k)
  find?  : s.realm.find? k = some x
  values : ∀ f, ¬F f → vc.value f = x.value f

section

variable [Unicode] {start : Realm → Prop} {s s' s₀ s₁ s₂ s₃ : State} {e : Event} {es : List Event}
  {t : Tab} {row : Nat} {k : Key} {x y : Item Place Contact} {F : Field → Prop} {now now₀ : Date}
  {d : Destination} {vc : AddItemTableViewController}

theorem Step.showsItem_selectRow (h : Step s (.selectRow t row now) s')
    (hk : (s.list t).items[row]? = some k) (hx : s.realm.find? k = some x) (hw : x.WellFormed)
    (ht : x.timestamp ≤ now) (hd : s'.details t = some vc) : ShowsItem s' k x F vc := by
  cases h.transition
  case reset hr       => simp [Event.resets] at hr
  case openSession he => simp at he
  case selectRow j z vc' hz hv hj hl =>
    obtain rfl : k = j := by simpa [hk] using hj
    obtain rfl : x = z := by simpa [hx] using hz
    obtain rfl : vc' = vc := by simpa [State.show_details] using hd
    obtain ⟨hi, _⟩ := AddItemTableViewController.viewDidLoad_details_spec hl hx
    exact ⟨hi, hx, fun f _ =>
      AddItemTableViewController.viewDidLoad_details_value hl hx hw fun _ => ht⟩

-- A details screen goes on showing its item until its inputs are changed.
theorem Step.showsItem (h : Step s e s') (hc : s'.Coherent)
    (hr : ∀ row now, e ≠ .selectRow t row now)
    (hF : ∀ fe f, e = .form (.details t) fe → fe.field? = some f → F f)
    (hs : ∀ vc, s.details t = some vc → ShowsItem s k x F vc) (hd : s'.details t = some vc) :
    ShowsItem s' k x F vc := by
  have ⟨vc₀, hd₀, hi, hv⟩ : ∃ vc₀, s.details t = some vc₀ ∧ vc.item = vc₀.item ∧
      ∀ f, ¬F f → vc.value f = vc₀.value f := by
    obtain ⟨-, hd₀ | ⟨vc₀, fe, hd₀, he, hh⟩ | ⟨row, now, _, _, he, -⟩⟩ :=
      h.transition.details_origin hd
    · exact ⟨vc, hd₀, rfl, fun _ _ => rfl⟩
    · have hf := AddItemTableViewController.handle_frame hh
      refine ⟨vc₀, hd₀, hf.item, fun f hn => ?_⟩
      exact AddItemTableViewController.handle_value hh fun hf => hn (hF fe f he hf)
    · exact absurd he (hr row now)
  have ⟨hi₀, hx, hv₀⟩ := hs vc₀ hd₀
  have hi := hi.trans hi₀
  have ⟨z, hz, _⟩ := ((hc.nav t).opened hd).find? hi
  obtain rfl := h.transition.storeStep.eq_of_find? hx hz
  exact ⟨hi, hz, fun f hn => (hv f hn).trans (hv₀ f hn)⟩

theorem run_showsItem (r : (app start).Run s es s') (hr : (app start).Reachable s)
    (hn : ∀ row now, .selectRow t row now ∉ es)
    (hs : ∀ vc, s.details t = some vc → ShowsItem s k x (Edits t es) vc)
    (hd : s'.details t = some vc) : ShowsItem s' k x (Edits t es) vc := by
  have step {s e s'} (hr : (app start).Reachable s) (he : e ∈ es) (h : (app start).Step s e s')
      (hs : ∀ vc, s.details t = some vc → ShowsItem s k x (Edits t es) vc) :
      ∀ vc, s'.details t = some vc → ShowsItem s' k x (Edits t es) vc := by
    intro vc
    refine Step.showsItem h (app_coherent (hr.step h)) ?_ (fun fe f he' hf => ⟨fe, he' ▸ he, hf⟩) hs
    rintro row now rfl
    exact hn row now he
  exact r.preserves step hr (fun _ he => he) hs vc hd

-- The details screen of an item saves its item in place of the old one.
theorem Step.save_details (h : Step s (.unwind (.details t) .saveUnwind d now) s')
    (hc : s.Coherent) :
    ∃ vc k y, s.details t = some vc ∧ vc.item = some (.managed k) ∧
      s.FormAt (.details t) d vc t ∧ vc.saveButton.any (·.isEnabled) ∧
      vc.newItem s.auth now = .ok y ∧ s'.realm = (s.realm.erase k).insert y := by
  have hw := h.transition.storeStep
  generalize s'.realm = realm, he : Event.unwind (.details t) .saveUnwind d now = e at hw
  cases hw
  case skip hs => simp [← he, Event.saves] at hs
  case delete | found => simp at he
  case insert source d' u now' y vc ha hb hy hr =>
    obtain ⟨rfl, rfl, rfl⟩ : .details t = source ∧ d = d' ∧ now = now' := by simpa using he
    obtain ⟨hu, -⟩ | ⟨-, ⟨hr', _, _, _, _⟩⟩ := hc.formAt_item ha
    · simp at hu
    · simp [hr] at hr'
  case replace source d' u now' y row k x vc ha hb hy hr hk hx =>
    obtain ⟨rfl, rfl, rfl⟩ : .details t = source ∧ d = d' ∧ now = now' := by simpa using he
    obtain ⟨hu, -⟩ | ⟨hu, ⟨hr', hk', hi, _, _⟩⟩ := hc.formAt_item ha
    · simp at hu
    · obtain rfl : t = u := by simpa using hu
      obtain rfl := Option.some.inj (hr.symm.trans hr')
      obtain rfl := Option.some.inj (hk.symm.trans hk')
      cases ha
      case details hp hd => exact ⟨vc, k, y, hd, hi, .details hp hd, hb, hy, rfl⟩

-- What the form of an item saves differs from it in what was edited and in the time of posting.
theorem ShowsItem.updates_iff (h : ShowsItem s k x F vc) (hy : vc.newItem s.auth now = .ok y)
    (hl : vc.isLostItem = !x.found) (hu : s.auth.email = some x.userEmail) (hx : x.WellFormed)
    (hw : y.WellFormed) : x.Updates F vc y ↔ now = x.timeAdded := by
  have ⟨hv, hf, hu', hn⟩ := AddItemTableViewController.newItem_spec hy
  have hf : y.found = x.found := by rw [hf, hl, Bool.not_not]
  have hu : y.userEmail = x.userEmail := Option.some.inj (hu'.symm.trans hu)
  have hv {f} (hF : ¬F f) : y.value f = x.value f := (hv f).trans (h.values f hF)
  constructor
  case mp  => exact fun h => hn.symm.trans h.timeAdded
  case mpr =>
    intro ht
    have ht := hn.trans ht
    exact {
      untouched := fun _ => hv
      changed   := fun f _ => (AddItemTableViewController.newItem_spec hy).left f
      found     := hf
      userEmail := hu
      timeAdded := ht
      unchanged := fun h => Item.eq_of_value_eq hw hx (fun f => hv (h f)) hf hu ht }

-- Editing changes what the user edits and the time at which the item was posted.
theorem app_roundTrip (hr : (app (· = .empty)).Reachable s₀) (hk : (s₀.list t).items[row]? = some k)
    (hx : s₀.realm.find? k = some x) (ht : x.timestamp ≤ now₀)
    (h₁ : Step s₀ (.selectRow t row now₀) s₁) (r : (app (· = .empty)).Run s₁ es s₂)
    (hn : ∀ row now, .selectRow t row now ∉ es)
    (h₂ : Step s₂ (.unwind (.details t) .saveUnwind d now) s₃) :
    ∃ vc y j, s₂.details t = some vc ∧ s₂.realm.find? k = some x ∧ s₂.realm.find? j = none ∧
      s₃.realm.find? = Function.update (Function.update s₂.realm.find? k none) j (some y) ∧
      (x.Updates (Edits t es) vc y ↔ now = x.timeAdded) := by
  have hr₁ := hr.step h₁
  have hr₂ := r.reachable hr₁
  have hc := app_coherent hr₂
  have hs := app_sessionConsistent hr₂
  have hw : s₀.realm.WellFormed := app_wellFormed (by rintro _ rfl; simp [Realm.WellFormed]) hr
  obtain ⟨vc, j, y, hd, hi, ha, hb, hy, hs₃⟩ := h₂.save_details hc
  have hv := run_showsItem r hr₁ hn
    (fun vc hd => h₁.showsItem_selectRow hk hx (hw k x hx) ht hd) hd
  obtain rfl : k = j := by simpa [hi] using hv.item.symm
  obtain ⟨z, hz, hl⟩ : ∃ z, s₂.realm.find? k = some z ∧ vc.isLostItem = !z.found :=
    ((hc.nav t).opened hd).find? hi
  obtain rfl : x = z := by simpa [hv.find?] using hz
  have hu := hs.owner hc ha (.inl hb) hi hz
  have hwy := AddItemTableViewController.newItem_wellFormed hy (hs.complete hc ha hb).right
  refine ⟨vc, y, s₂.realm.items.nextKey, hd, hz, s₂.realm.find?_nextKey, ?_, ?_⟩
  · rw [hs₃, Realm.find?_insert, Realm.find?_erase, Realm.erase_nextKey]
  · exact hv.updates_iff hy hl hu (hw k x hx) hwy

end

section

attribute [local instance] Unicode.ascii

open AddItemTableViewController TextField

-- Ann gives her item a new title in the moment in which she has posted it.
theorem app_roundTrip_title :
    let edit := Event.form (.details .lost) (.editText titleTextField "Car keys")
    ∃ s₀ s₁ s₂ s₃ x,
      (State.fresh .empty (.restore none)).execute (signIn "ann@los.be" ++ post .lost) = some s₀ ∧
      s₀.realm.find? 0 = some x ∧ Step s₀ (.selectRow .lost 0 0) s₁ ∧ Step s₁ edit s₂ ∧
      Step s₂ (.unwind (.details .lost) .saveUnwind .opener 0) s₃ ∧
      ∃ vc y, s₂.details .lost = some vc ∧ x.Updates (Edits .lost [edit]) vc y := by
  intro edit
  have h : ((State.fresh .empty (.restore none)).execute (signIn "ann@los.be" ++ post .lost)).any
      fun s₀ => (s₀.list .lost).items[0]? == some 0 &&
        (s₀.realm.find? 0).any fun x => x.timestamp ≤ 0 && x.timeAdded == 0 &&
          (s₀.execute [.selectRow .lost 0 0]).any fun s₁ => (s₁.execute [edit]).any fun s₂ =>
            (s₂.execute [.unwind (.details .lost) .saveUnwind .opener 0]).isSome := by
    decide +kernel
  simp only [Option.any_eq_true, Bool.and_eq_true, beq_iff_eq, decide_eq_true_eq,
    Option.isSome_iff_exists] at h
  obtain ⟨s₀, h₀, hk, x, hx, ⟨ht, ha⟩, s₁, h₁, s₂, h₂, s₃, h₃⟩ := h
  have hr : (app (· = .empty)).Reachable s₀ := reachable_of_execute rfl h₀
  have h₁ := step_of_execute h₁
  have h₃ := step_of_execute h₃
  have ⟨vc, y, _, hd, _, _, _, hy⟩ :=
    app_roundTrip hr hk hx ht h₁ (run_of_execute h₂) (by simp [edit]) h₃
  exact ⟨s₀, s₁, s₂, s₃, x, h₀, hx, h₁, step_of_execute h₂, h₃, vc, y, hd, hy.mpr ha.symm⟩

-- Saved without a change a moment later, the item is another one.
theorem app_roundTrip_unchanged : ∃ s₀ s₁ s₂ x y,
    (State.fresh .empty (.restore none)).execute (signIn "ann@los.be" ++ post .lost) = some s₀ ∧
    s₀.realm.find? 0 = some x ∧ s₀.auth.email = some x.userEmail ∧ x.timestamp ≤ 0 ∧
    Step s₀ (.selectRow .lost 0 0) s₁ ∧
    Step s₁ (.unwind (.details .lost) .saveUnwind .opener 1) s₂ ∧
    s₂.realm.find? 1 = some y ∧ y.timeAdded ≠ x.timeAdded := by
  have h : ((State.fresh .empty (.restore none)).execute (signIn "ann@los.be" ++ post .lost)).any
      fun s₀ => (s₀.realm.find? 0).any fun x => s₀.auth.email == some x.userEmail &&
        x.timestamp ≤ 0 && (s₀.execute [.selectRow .lost 0 0]).any fun s₁ =>
          (s₁.execute [.unwind (.details .lost) .saveUnwind .opener 1]).any fun s₂ =>
            (s₂.realm.find? 1).any fun y => y.timeAdded != x.timeAdded := by
    decide +kernel
  simp only [Option.any_eq_true, Bool.and_eq_true, beq_iff_eq, bne_iff_ne, decide_eq_true_eq] at h
  obtain ⟨s₀, h₀, x, hx, ⟨hu, ht⟩, s₁, h₁, s₂, h₂, y, hy, hne⟩ := h
  exact ⟨s₀, s₁, s₂, x, y, h₀, hx, hu, ht, step_of_execute h₁, step_of_execute h₂, hy, hne⟩

end
end Execution
end LosTrouvee
