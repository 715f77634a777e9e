import LosTrouvee.Execution.Theorems.Origins
import LosTrouvee.Execution.Theorems.Runs
import LosTrouvee.Library.Board

namespace LosTrouvee

-- A list that shows the objects of its tab, once each, in a table with as many rows.
structure ItemsTableViewController.Exact (realm : Realm) (t : Tab)
    (list : ItemsTableViewController) :
    Prop where
  nodup   : list.items.Nodup
  mem_iff : ∀ k, k ∈ list.items ↔ realm.Shows t.showsFound k
  rows    : list.tableView.numberOfRows = list.items.length

namespace Execution

namespace State

-- The form on a screen.
def form? (s : State) : Screen → Option AddItemTableViewController
  | .list _    => none
  | .details t => s.details t
  | .presented => s.presented.head?.bind Presented.form?

section

variable [Unicode]

-- What an event means for the store. A form without an item is for a new one.
def meaning (s : State) : Event → Board.Op Key (Item Place Contact)
  | .deleteRow t row =>
    match (s.list t).canEditRowAt s.realm s.auth row, (s.list t).items[row]? with
    | .ok true, some k => .retract k
    | _, _             => .skip
  | .unwind source .saveUnwind _ now =>
    match s.form? source with
    | some vc =>
      match vc.item, vc.newItem s.auth now with
      | none, .ok y              => .post y
      | some (.managed k), .ok y => .revise k y
      | _, _                     => .skip
    | none => .skip
  | .unwind source .foundUnwind _ _ =>
    match (s.form? source).bind (·.item) with
    | some (.managed k) => .retract k
    | _                 => .skip
  | _ => .skip

end

-- No form for a new item is saved to a list of which a row is selected.
def savesNewOnIdle (s : State) : Event → Bool
  | .unwind .presented .saveUnwind d _ =>
    (s.list (s.destinationTab d)).tableView.indexPathForSelectedRow.isNone
  | _ => true

variable {s : State} {source : Screen} {d : Destination} {vc : AddItemTableViewController} {t : Tab}

theorem FormAt.form? (h : s.FormAt source d vc t) : s.form? source = some vc := by
  cases h
  case details hp hd   => exact hd
  case presented ps hp => simp [State.form?, hp, Presented.form?]

theorem savesNewOnIdle_iff {e : Event} : s.savesNewOnIdle e ↔ ∀ d now,
    e = .unwind .presented .saveUnwind d now →
      (s.list (s.destinationTab d)).tableView.indexPathForSelectedRow = none := by
  unfold savesNewOnIdle
  split <;> simp_all

-- An item of one kind is not on the list of the other.
theorem showsFound_ne {t u : Tab} (h : u ≠ t) : t.showsFound ≠ u.showsFound := by
  cases t <;> cases u <;> simp_all [Tab.showsFound]

-- The lists on display show the objects that they are for.
def Complete (s : State) : Prop :=
  ∀ t, (s.list t).isViewLoaded → ∀ k, k ∈ (s.list t).items ↔ s.realm.Shows t.showsFound k

namespace Complete

variable {nav : NavigationController} {realm : Realm} {row : Nat} {k : Key} {y : Item Place Contact}

theorem «show» (h : s.Complete) (hn : ∀ k, k ∈ nav.list.items ↔ realm.Shows t.showsFound k)
    (ho : ∀ {u k}, u ≠ t → (realm.Shows u.showsFound k ↔ s.realm.Shows u.showsFound k)) :
    (s.show t nav realm).Complete := by
  intro u hl
  rw [show_list] at hl ⊢
  split_ifs at hl ⊢ with hu
  · exact hu ▸ hn
  · exact fun k => (h u hl k).trans (ho hu).symm

theorem show_of_items_eq (h : s.Complete) (hl : (s.list t).isViewLoaded)
    (hi : nav.list.items = (s.list t).items) : (s.show t nav s.realm).Complete :=
  h.show (hi ▸ h t hl) fun _ => .rfl

-- The item of a row is of the kind that its list shows, so no other list shows it.
theorem shows_ne (h : s.Complete) (hl : (s.list t).isViewLoaded)
    (hk : (s.list t).items[row]? = some k) {u : Tab} (hu : u ≠ t) {j : Key}
    (hj : s.realm.Shows u.showsFound j) : j ≠ k := by
  have ⟨x, hx, hf⟩ := (h t hl k).mp (List.mem_of_getElem? hk)
  have ⟨y, hy, hf'⟩ := hj
  rintro rfl
  obtain rfl : x = y := by simpa [hx] using hy
  exact showsFound_ne hu (hf.symm.trans hf')

theorem show_erase (h : s.Complete) (hc : s.Coherent) (hl : (s.list t).isViewLoaded)
    (hk : (s.list t).items[row]? = some k) (hi : nav.list.items = (s.list t).items.eraseIdx row) :
    (s.show t nav (s.realm.erase k)).Complete := by
  refine h.show (fun j => ?_) fun {u j} hu => ?_
  · rw [hi, (hc.list t).nodup.mem_eraseIdx_iff hk, h t hl, Realm.shows_erase_iff]
  · rw [Realm.shows_erase_iff, and_iff_left_iff_imp]
    exact h.shows_ne hl hk hu

theorem show_append (h : s.Complete) (hl : (s.list t).isViewLoaded) (hy : y.found = t.showsFound)
    (hi : nav.list.items = (s.list t).items ++ [s.realm.items.nextKey]) :
    (s.show t nav (s.realm.insert y)).Complete := by
  refine h.show (fun j => ?_) fun {u j} hu => ?_
  · simp [hi, h t hl, Realm.shows_insert_iff, hy]
  · simp [Realm.shows_insert_iff, hy, showsFound_ne hu]

theorem show_replace (h : s.Complete) (hc : s.Coherent) (hl : (s.list t).isViewLoaded)
    (hk : (s.list t).items[row]? = some k) (hy : y.found = t.showsFound)
    (hi : nav.list.items = (s.list t).items.set row s.realm.items.nextKey) :
    (s.show t nav ((s.realm.erase k).insert y)).Complete := by
  refine h.show (fun j => ?_) fun {u j} hu => ?_
  · rw [hi, (hc.list t).nodup.mem_set_iff hk, h t hl, Realm.shows_insert_iff, Realm.shows_erase_iff]
    simp [hy, or_comm]
  · rw [Realm.shows_insert_iff, Realm.shows_erase_iff]
    simpa [hy, showsFound_ne hu] using h.shows_ne hl hk hu

end Complete
end State

section

variable [Unicode] {start : Realm → Prop} {s s' : State} {e : Event} {t : Tab} {k : Key}
  {x y : Item Place Contact}

-- A step has the effect that its event is meant to have.
theorem Transition.effect (h : Transition s e s') (hc : s.Coherent) (hn : s.savesNewOnIdle e) :
    Board.Effect s.realm.find? (s.meaning e) s'.realm.find? := by
  cases h
  case reset he => cases e <;> first | exact .skip | simp [Event.resets] at he
  case keepRow t row hb => simpa [State.meaning, hb] using .skip
  case deleteRow t row k x table hv hk hx hu ht =>
    have hb : (s.list t).canEditRowAt s.realm s.auth row = _ :=
      ItemsTableViewController.canEditRowAt_eq hk hx
    simpa [State.meaning, hb, hu, hk, Realm.find?_erase, State.show] using .retract hx
  case openSession t p hv hp hf he => rcases he with rfl | rfl <;> exact .skip
  case cancel source segue d now b t hl hs hf =>
    suffices hm : s.meaning (.unwind source segue d now) = .skip by rw [hm]; exact .skip
    cases segue <;> try rfl
    case saveUnwind  => exact absurd rfl hs
    case foundUnwind =>
      obtain ⟨vc, ha, hi⟩ := hf rfl
      simp [State.meaning, ha.form?, hi]
  case save source d vc t now y unwound ha hb hy hu =>
    rcases hc.formAt_item ha with ⟨rfl, hi⟩ | ⟨-, @⟨row, k, x, hr, hk, hi, hx, hf⟩⟩
    · have hr := State.savesNewOnIdle_iff.mp hn _ _ rfl
      rw [← ha.eq_destinationTab] at hr
      have hm : s.meaning (.unwind .presented .saveUnwind d now) = .post y := by
        simp [State.meaning, ha.form?, hi, hy]
      rw [hm]
      cases hu
      case replaced hr' _ _ => simp [hr] at hr'
      all_goals
        simpa [Realm.find?_insert, State.show, State.fresh] using .post s.realm.find?_nextKey
    · have hm : s.meaning (.unwind source .saveUnwind d now) = .revise k y := by
        simp [State.meaning, ha.form?, hi, hy]
      rw [hm]
      cases hu
      case replaced _ j _ hr' hj _ =>
        have hk' := hc.formAt_getElem? ha hi (by simpa using hr')
        obtain rfl : k = j := by simpa [hk'] using hj
        simpa [Realm.find?_insert, Realm.find?_erase, State.show] using
          .revise hx s.realm.find?_nextKey
      all_goals simp_all
  case found source d vc t now k x row tableView ha hb hi hx hr hl ht =>
    have hm : s.meaning (.unwind source .foundUnwind d now) = .retract k := by
      simp [State.meaning, ha.form?, hi]
    rw [hm]
    simpa [Realm.find?_erase, State.show] using .retract hx
  all_goals exact .skip

omit [Unicode] in
theorem State.fresh_complete (realm : Realm) (auth : Auth) : (State.fresh realm auth).Complete := by
  intro t hl k
  cases t
  case lost  => exact ItemsTableViewController.mem_load_items_iff rfl
  case found => simp [State.fresh, State.list, ItemsTableViewController.instantiate] at hl

theorem Transition.complete (h : Transition s e s') (hc : s.Coherent) (hn : s.savesNewOnIdle e)
    (hs : s.Complete) : s'.Complete := by
  cases h
  case reset => exact State.fresh_complete _ _
  case popToRoot hp => exact hs.show_of_items_eq hc.selected rfl
  case selectTab t list hp ht hl =>
    refine hs.show (fun k => ?_) fun _ => .rfl
    have hm : k ∈ list.items ↔ s.realm.Shows t.showsFound k := by
      split at hl <;> subst hl
      case isTrue hv  => exact hs t hv k
      case isFalse hv => exact ItemsTableViewController.mem_load_items_iff (hc.list t).title
    simpa [apply_ite] using hm
  case selectRow t row now k x vc hv hk hx hl =>
    exact hs.show_of_items_eq ((hc.list t).isSome_of_getElem? hk) rfl
  case deleteRow t row k x table hv hk hx hu ht =>
    exact hs.show_erase hc ((hc.list t).isSome_of_getElem? hk) hk rfl
  case editDetails t e vc vc' hv hd hh =>
    exact hs.show_of_items_eq ((State.visible_eq_details_iff.mp hv).right.right ▸ hc.selected) rfl
  case cancel source segue d now b t hl hs' hf =>
    exact hs.show_of_items_eq (hc.leaves_isViewLoaded hl) (by simp [State.list])
  case save source d vc t now y unwound ha hb hy hu =>
    have hl := hc.leaves_isViewLoaded ha.leaves
    obtain ⟨_, hy', _⟩ := AddItemTableViewController.newItem_spec hy
    cases hu
    case reloaded => exact State.fresh_complete _ s.auth
    case inserted table hr hb hf ht =>
      refine hs.show_append hl ?_ (by simp [State.list])
      cases t
      case lost  => exact hf
      case found => exact hy'.trans (hc.formAt_kind ha (by simp))
    case replaced row k x hr hk hx =>
      have hr : (s.list t).tableView.indexPathForSelectedRow = some row := by simpa using hr
      refine hs.show_replace hc hl (by simpa using hk) ?_ (by simp [State.list])
      rcases hc.formAt_item ha with ⟨rfl, -⟩ | ⟨-, ⟨_, hj, _, hz, hf⟩⟩
      · simp [ha.eq_destinationTab, State.savesNewOnIdle_iff.mp hn _ _ rfl] at hr
      · have hf' := (hs t hl _).mp (List.mem_of_getElem? hj)
        rw [Realm.shows_iff hz] at hf'
        simpa [hy', hf] using hf'
  case found source d vc t now k x row tableView ha hb hi hx hr hl ht =>
    have hl := hc.leaves_isViewLoaded ha.leaves
    exact hs.show_erase hc hl (hc.formAt_getElem? ha hi hr) rfl
  all_goals exact hs

-- A form for a new item that is saved to a selected row takes away the item of that row.
theorem Transition.effect_iff (h : Transition s e s') (hc : s.Coherent) :
    Board.Effect s.realm.find? (s.meaning e) s'.realm.find? ↔ s.savesNewOnIdle e where
  mpr := h.effect hc
  mp  := by
    rw [State.savesNewOnIdle_iff]
    rintro he d now rfl
    cases h
    case reset hr             => simp [Event.resets] at hr
    case openSession hr       => simp at hr
    case cancel b t hs hl hf  => exact absurd rfl hs
    case save vc t y unwound hb hu ha hy =>
      have hi : vc.item = none := by simpa using hc.formAt_item ha
      have hm : s.meaning (.unwind .presented .saveUnwind d now) = .post y := by
        simp [State.meaning, ha.form?, hi, hy]
      rw [hm] at he
      rw [← ha.eq_destinationTab]
      cases hu
      case replaced row k x hr hk hx =>
        have hs := he.stable hx (by simp [Board.Op.target?])
        have hk := Realm.ne_nextKey (Option.isSome_of_mem hx)
        simp [State.show, Realm.find?_insert, Realm.find?_erase, Function.update_of_ne hk] at hs
      all_goals simp_all

-- The app, as far as it meets the condition, is a board of items.
def storeSimulation (start : Realm → Prop) :
    TransitionSystem.Simulation ((app start).restrict (State.savesNewOnIdle · ·))
      (Board.system Key (Item Place Contact)) where
  abs s := s.realm.find?
  act   := State.meaning
  init  := fun _ => trivial
  step  := fun hr ⟨hn, h⟩ => h.transition.effect (app_coherent hr.of_restrict) hn

theorem app_complete (h : ((app start).restrict (State.savesNewOnIdle · ·)).Reachable s) :
    s.Complete := by
  have i : ((app start).restrict (State.savesNewOnIdle · ·)).Invariant State.Complete := {
    init h := by
      obtain ⟨_, _, _, rfl⟩ := app_init h
      exact State.fresh_complete _ _
    step := fun hr hs ⟨hn, h⟩ => h.transition.complete (app_coherent hr.of_restrict) hn hs }
  exact i.holds h

-- As long as no form for a new item is saved to a list with a selected row, every step changes the
-- store as it is meant to and every list shows its part of it.
theorem app_lists (hr : ((app start).restrict (State.savesNewOnIdle · ·)).Reachable s) :
    (∀ t, (s.list t).isViewLoaded → (s.list t).Exact s.realm t) ∧
    ∀ e s', Step s e s' →
      (Board.Effect s.realm.find? (s.meaning e) s'.realm.find? ↔ s.savesNewOnIdle e) := by
  have hc := app_coherent hr.of_restrict
  refine ⟨fun t hl => ?_, fun e s' h => h.transition.effect_iff hc⟩
  exact ⟨(hc.list t).nodup, app_complete hr t hl, (hc.list t).rows⟩

end

section

attribute [local instance] Unicode.ascii

-- Ann posts an item on each list.
theorem app_lists_post : ∃ s, (State.fresh .empty (.restore none)).executeIf State.savesNewOnIdle
    (signIn "ann@los.be" ++ post .lost ++ [.selectTab .found] ++ post .found) = some s ∧
    (s.list .lost).isViewLoaded ∧ (s.list .lost).Exact s.realm .lost := by
  refine (Option.isSome_iff_exists.mp ?_).imp fun s h => ⟨h, ?_⟩
  · decide +kernel
  · have hr : ((app fun _ => True).restrict (State.savesNewOnIdle · ·)).Reachable s :=
      reachable_of_executeIf trivial h
    have hl := (app_coherent hr.of_restrict).first
    exact ⟨hl, (app_lists hr).left .lost hl⟩

-- Bob's new item takes the place of the item of Ann that he has left open.
theorem app_lists_leaveOpen :
    let save := Event.unwind .presented .saveUnwind .firstTab 0
    ∃ s s', (State.fresh .empty (.restore none)).execute leaveOpen = some s ∧ Step s save s' ∧
      (∃ vc, s.form? .presented = some vc ∧ vc.item = none) ∧
      (s.realm.find? 0).isSome ∧ (s'.realm.find? 0).isNone ∧
      ¬Board.Effect s.realm.find? (s.meaning save) s'.realm.find? := by
  intro save
  have h : ((State.fresh .empty (.restore none)).execute leaveOpen).any fun s =>
      (s.execute [save]).any fun s' => (s.form? .presented).any (·.item.isNone) &&
        (s.realm.find? 0).isSome && (s'.realm.find? 0).isNone && !s.savesNewOnIdle save := by
    decide +kernel
  simp only [Option.any_eq_true, Bool.and_eq_true, Bool.not_eq_true', Option.isNone_iff_eq_none]
    at h
  obtain ⟨s, hs, s', hs', ⟨⟨hf, hx⟩, hx'⟩, hn⟩ := h
  have hr : (app fun _ => True).Reachable s := reachable_of_execute trivial hs
  have he := (step_of_execute hs').transition.effect_iff (app_coherent hr)
  exact ⟨s, s', hs, step_of_execute hs', hf, hx, by simp [hx'], by simp [he, hn]⟩

end

end Execution
end LosTrouvee
