import LosTrouvee.Execution.Theorems.Failure

namespace LosTrouvee

-- A list whose flag says which one it is, so that it asks for the cells that its own table
-- registers.
structure ItemsTableViewController.Flagged (list : ItemsTableViewController) : Prop where
  title : list.isLostList ↔ list.title = "Lost items"
  cells : list.tableView.reuseIdentifiers = [list.cellIdentifier]

namespace Execution

namespace State

-- No screen that the second list has opened is cancelled to the first list, and no found item is
-- left for the first list.
def returnsFlag (s : State) : Event → Bool
  | .unwind .presented segue d _    => segue == .saveUnwind || s.destinationTab d == s.selectedTab
  | .unwind (.details .lost) _ _ _ => (s.details .lost).all (·.isLostItem)
  | _ => true

-- The flags that the lists on display should have.
def Flagged (s : State) : Prop :=
  ∀ t, (s.list t).isViewLoaded → (s.list t).isLostList = !t.showsFound

end State

variable {s : State} {source : Screen} {segue : Segue} {d : Destination} {now : Date} {b : Bool}
  {t u : Tab} {nav : NavigationController} {realm : Realm} {vc : AddItemTableViewController}
  {y : Item Place Contact}

namespace State

theorem fresh_flagged (realm : Realm) (auth : Auth) : (fresh realm auth).Flagged := by
  intro t hl
  cases t
  case lost  => exact ItemsTableViewController.load_isLostList rfl
  case found => simp [list, fresh, ItemsTableViewController.instantiate] at hl

theorem Flagged.show (h : s.Flagged)
    (hn : nav.list.isViewLoaded → nav.list.isLostList = !t.showsFound) :
    (s.show t nav realm).Flagged := by
  intro u hl
  rw [show_list] at hl ⊢
  split_ifs at hl ⊢ with hu
  · exact hu ▸ hn hl
  · exact h u hl

-- A details screen over a list, with the kind of its item.
theorem Coherent.opened_flag (h : s.Coherent)
    (ho : NavigationController.Opened s.realm (s.list t) vc)
    (hd : s.details t = some vc) (hn : s.returnsFlag (.unwind (.details t) segue d now)) :
    vc.isLostItem = !t.showsFound := by
  have ⟨_, hk, _, hx, hf⟩ := ho
  cases t
  case lost  => simpa [returnsFlag, hd, Tab.showsFound] using hn
  case found => simp [hf, h.found (List.mem_of_getElem? hk) hx, Tab.showsFound]

theorem Coherent.leaves_flag (h : s.Coherent) (hl : s.Leaves source d b t)
    (hs : segue ≠ .saveUnwind) (hn : s.returnsFlag (.unwind source segue d now)) :
    b = !t.showsFound := by
  cases hl
  case details hp hd   => exact h.opened_flag ((h.nav _).opened hd) hd hn
  case presented hp    =>
    have ht : s.destinationTab d = s.selectedTab := by simpa [returnsFlag, hs] using hn
    rw [ht]
    exact h.opener _ (by simp [hp])

-- A form for a new item is drawn on the first list only.
theorem Coherent.newItem_tab [Unicode] (h : s.Coherent) (ha : s.FormAt .presented d vc t)
    (hy : vc.newItem s.auth now = .ok y)
    (hr : (s.list t).tableView.indexPathForSelectedRow = none → y.found = false) : t = .lost := by
  obtain ⟨_, hf, _⟩ := AddItemTableViewController.newItem_spec hy
  obtain rfl := ha.eq_destinationTab
  cases ha
  case presented ps hp =>
    cases d
    case firstTab => rfl
    case opener   =>
      have ho : vc.isLostItem = !s.selectedTab.showsFound := h.opener (.addItem vc) (by simp [hp])
      have hd := (h.nav s.selectedTab).idle <| h.covered (by simp [hp])
      have hy := hr hd
      cases ht : s.selectedTab <;> simp_all [destinationTab, Tab.showsFound]

theorem Coherent.save_flag [Unicode] (h : s.Coherent) (ha : s.FormAt source d vc t)
    (hy : vc.newItem s.auth now = .ok y)
    (hr : (s.list t).tableView.indexPathForSelectedRow = none → y.found = false)
    (hn : s.returnsFlag (.unwind source .saveUnwind d now)) :
    (vc.item.isNone || vc.isLostItem) = !t.showsFound := by
  rcases h.formAt_item ha with ⟨rfl, hi⟩ | ⟨rfl, ho⟩
  · simp [h.newItem_tab ha hy hr, hi, Tab.showsFound]
  · cases ha
    case details hp hd => simpa [ho.isNone] using h.opened_flag ho hd hn

end State

section

variable [Unicode] {start : Realm → Prop} {s' : State} {e : Event}

theorem Transition.flagged (h : Transition s e s') (hc : s.Coherent) (hn : s.returnsFlag e)
    (hf : s.Flagged) : s'.Flagged := by
  cases h
  case reset => exact State.fresh_flagged _ _
  case popToRoot | selectRow | deleteRow | editDetails => exact hf.show (hf _)
  case selectTab t list hp ht hl =>
    have hb : list.isLostList = !t.showsFound := by
      split at hl <;> subst hl
      case isTrue hv => exact hf t hv
      case isFalse   => exact ItemsTableViewController.load_isLostList (hc.list t).title
    exact hf.show fun _ => by simpa [apply_ite] using hb
  case cancel source segue d now b t hl hs hf' =>
    exact hf.show fun _ => by simpa using hc.leaves_flag hl hs hn
  case save source d vc t now y unwound ha hb hy hu =>
    cases hu
    case reloaded => exact State.fresh_flagged _ _
    case replaced hr _ _ =>
      refine hf.show fun _ => ?_
      simpa using hc.save_flag ha hy (by simp_all) hn
    case inserted hy' _ =>
      refine hf.show fun _ => ?_
      simpa using hc.save_flag ha hy (by simp_all) hn
  case found source d vc t now k x row tableView ha hb hi hx hr hl ht =>
    exact hf.show fun _ => by simpa using hc.leaves_flag ha.leaves (by simp) hn
  all_goals exact hf

theorem app_flagged (h : ((app start).restrict (State.returnsFlag · ·)).Reachable s) :
    s.Flagged := by
  have i : ((app start).restrict (State.returnsFlag · ·)).Invariant State.Flagged := {
    init h := by
      obtain ⟨_, _, _, rfl⟩ := app_init h
      exact State.fresh_flagged _ _
    step := fun hr hf ⟨hn, h⟩ => h.transition.flagged (app_coherent hr.of_restrict) hn hf }
  exact i.holds h

omit [Unicode] in
theorem State.Flagged.list (h : s.Flagged) (hc : s.Coherent) (hl : (s.list t).isViewLoaded) :
    (s.list t).Flagged where
  title := by
    rw [h t hl, (hc.list t).title]
    cases t <;> decide
  cells := by rw [(hc.list t).cells, ItemsTableViewController.cellIdentifier_eq (h t hl)]

theorem Failure.ne_unregisteredIdentifier {tr : Trap} (h : Failure s e tr) (hc : s.Coherent)
    (hf : s.Flagged) (hn : s.returnsFlag e) : tr ≠ .unregisteredIdentifier := by
  rintro rfl
  cases h
  case drawRow hk _ hd =>
    cases hd
    case identifier hi => simp [(hf.list hc ((hc.list _).isSome_of_getElem? hk)).cells] at hi
  case selectRow hx hl =>
    have ht := AddItemTableViewController.viewDidLoad_details_eq_error hx hl
    contradiction
  case save source d vc t now y ha hb hy hr hd =>
    have hl := hc.save_flag ha hy (fun h => (hr h).right) hn
    cases hd
    case identifier hi =>
      rw [(hc.list t).cells, ItemsTableViewController.cellIdentifier_eq hl] at hi
      simp at hi

-- As long as the screens that are left return the flag of the list that they return to, every list
-- keeps its flag and finds its cells.
theorem app_flags (hr : ((app start).restrict (State.returnsFlag · ·)).Reachable s) :
    (∀ t, (s.list t).isViewLoaded → (s.list t).Flagged) ∧
    (∀ e, s.Allows e → s.returnsFlag e → s.perform e ≠ .error .unregisteredIdentifier) ∧
    ∀ p ∈ s.presented, p.fromLostList ↔ s.selectedTab = .lost := by
  have hc := app_coherent hr.of_restrict
  have hs := app_sessionConsistent hr.of_restrict
  have hf := app_flagged hr
  refine ⟨fun t hl => hf.list hc hl, fun e ha hn he => ?_, fun p hp => ?_⟩
  · exact (Failure.of_perform he hc hs ha).ne_unregisteredIdentifier hc hf hn rfl
  · rw [hc.opener p hp]
    cases s.selectedTab <;> decide

end

section

attribute [local instance] Unicode.ascii

-- Ann cancels a form that she has opened from the second list.
def cancelFromFound (d : Destination) : List Event :=
  signIn "ann@los.be" ++ post .lost ++
    [.selectTab .found, .tapAdd .found 0, .unwind .presented .cancelUnwind d 0]

theorem app_flags_opener : ∃ s,
    (State.fresh .empty (.restore none)).executeIf State.returnsFlag (cancelFromFound .opener) =
      some s ∧
    (s.list .lost).Flagged ∧ s.perform (.drawRow .lost 0) ≠ .error .unregisteredIdentifier := by
  have h : ((State.fresh .empty (.restore none)).executeIf State.returnsFlag
      (cancelFromFound .opener)).any fun s => s.Allows (.drawRow .lost 0) := by
    decide +kernel
  obtain ⟨s, hs, ha⟩ := (Option.any_eq_true ..).mp h
  have hr : ((app fun _ => True).restrict (State.returnsFlag · ·)).Reachable s :=
    reachable_of_executeIf trivial hs
  have ⟨hf, hp, _⟩ := app_flags hr
  exact ⟨s, hs, hf .lost (app_coherent hr.of_restrict).first, hp _ ha rfl⟩

-- If the form returns to the first list, drawing the row of that list traps.
theorem app_flags_firstTab : ∃ s,
    (State.fresh .empty (.restore none)).execute (cancelFromFound .firstTab) = some s ∧
    (s.list .lost).isViewLoaded ∧ (s.list .lost).title = "Lost items" ∧
    (s.list .lost).isLostList = false ∧ s.Allows (.drawRow .lost 0) ∧
    s.perform (.drawRow .lost 0) = .error .unregisteredIdentifier := by
  have h : ((State.fresh .empty (.restore none)).execute (cancelFromFound .firstTab)).any fun s =>
      (s.list .lost).isViewLoaded && (s.list .lost).title == "Lost items" &&
        !(s.list .lost).isLostList && s.Allows (.drawRow .lost 0) &&
        ((fun _ => ()) <$> s.perform (.drawRow .lost 0)) = .error .unregisteredIdentifier := by
    decide +kernel
  simp only [Option.any_eq_true, Bool.and_eq_true, beq_iff_eq, Bool.not_eq_true',
    decide_eq_true_eq, map_eq_error] at h
  obtain ⟨s, hs, ⟨⟨⟨hl, ht⟩, hf⟩, ha⟩, hp⟩ := h
  exact ⟨s, hs, hl, ht, hf, ha, hp⟩

end

end Execution
end LosTrouvee
