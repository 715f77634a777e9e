import LosTrouvee.Execution.Theorems.Session
import LosTrouvee.Library.Board

namespace LosTrouvee.Execution

namespace State

-- The item of the selected row of a list.
def selectedItem (s : State) (t : Tab) : Option (Item Place Contact) := do
  let row ← (s.list t).tableView.indexPathForSelectedRow
  let key ← (s.list t).items[row]?
  s.realm.find? key

-- No form for a new item is saved to the item of another user.
def savesNewOnOwn (s : State) : Event → Bool
  | .unwind .presented .saveUnwind d _ =>
    (s.selectedItem (s.destinationTab d)).all fun x => s.auth.email == some x.userEmail
  | _ => true

end State

section

variable [Unicode] {start : Realm → Prop} {s s' : State} {e : Event} {es : List Event} {t : Tab}
  {k : Key} {x y : Item Place Contact} {realm : Realm}

theorem State.StoreStep.respects_iff (h : s.StoreStep e realm) (hc : s.Coherent)
    (hs : s.SessionConsistent) :
    Board.Respects Item.userEmail s.auth.email s.realm.find? realm.find? ↔ s.savesNewOnOwn e := by
  cases h
  case skip he =>
    have hn : s.savesNewOnOwn e := by
      unfold State.savesNewOnOwn
      split <;> simp_all [Event.saves]
    exact iff_of_true (Board.respects_refl _ _ _) hn
  case delete t row k x hk hx hu =>
    rw [Realm.find?_erase, Board.respects_retract_iff hx]
    simp [State.savesNewOnOwn, hu]
  case found source d t now k x vc ha hb hi hx =>
    rw [Realm.find?_erase, Board.respects_retract_iff hx]
    simp [State.savesNewOnOwn, hs.owner hc ha (.inr hb) hi hx]
  case insert source d t now y vc ha hb hy hr =>
    rw [Realm.find?_insert]
    refine iff_of_true (Board.respects_post s.realm.find?_nextKey) ?_
    cases ha
    case details   => rfl
    case presented => simp [State.savesNewOnOwn, State.selectedItem, hr]
  case replace source d t now y row k x vc ha hb hy hr hk hx =>
    obtain ⟨_, _, hu, _⟩ := AddItemTableViewController.newItem_spec hy
    rw [Realm.find?_insert, Realm.find?_erase, Realm.erase_nextKey,
      Board.respects_revise_iff hx s.realm.find?_nextKey]
    have hy : y.userEmail = x.userEmail ↔ s.auth.email = some x.userEmail := by
      rw [hu, Option.some.injEq]
    rw [hy, and_self]
    rcases hc.formAt_item ha with ⟨rfl, -⟩ | ⟨rfl, ⟨hr', hk', hi, _, _⟩⟩
    · obtain rfl := ha.eq_destinationTab
      simp [State.savesNewOnOwn, State.selectedItem, hr, hk, hx]
    · have hi : vc.item = some (.managed k) := by simp_all
      exact iff_of_true (hs.owner hc ha (.inl hb) hi hx) rfl

-- As long as no form for a new item is saved to the item of another user, only its owner removes or
-- replaces an item, and it stays as it is whatever the others do.
theorem app_onlyOwnerRemoves (hr : ((app start).restrict (State.savesNewOnOwn · ·)).Reachable s) :
    (∀ e s', Step s e s' →
      (Board.Respects Item.userEmail s.auth.email s.realm.find? s'.realm.find? ↔
        s.savesNewOnOwn e)) ∧
    ∀ k x es s', s.realm.find? k = some x →
      ((app start).restrict fun s e => s.savesNewOnOwn e ∧ s.auth.email ≠ some x.userEmail).Run
        s es s' → s'.realm.find? k = some x := by
  have hr := hr.of_restrict
  have respects {s e s'} (hr : (app start).Reachable s) (h : Step s e s') :=
    h.transition.storeStep.respects_iff (app_coherent hr) (app_sessionConsistent hr)
  refine ⟨fun e s' h => respects hr h, fun k x es s' hx r => ?_⟩
  refine r.preserves_of_restrict (I := (·.realm.find? k = some x))
    (fun hr ⟨hn, hu⟩ h hx => ?_) hr hx
  rcases (respects hr h).mpr hn k x hx with hx | ⟨-, hu', -⟩
  · exact hx
  · exact absurd hu' hu

end

section

attribute [local instance] Unicode.ascii

-- Ann deletes an item that she has posted.
theorem app_onlyOwnerRemoves_deleteRow : ∃ s s',
    (State.fresh .empty (.restore none)).executeIf State.savesNewOnOwn
      (signIn "ann@los.be" ++ post .lost) = some s ∧
    Step s (.deleteRow .lost 0) s' ∧ s'.realm.find? 0 = none ∧
    Board.Respects Item.userEmail s.auth.email s.realm.find? s'.realm.find? := by
  have h : ((State.fresh .empty (.restore none)).executeIf State.savesNewOnOwn
      (signIn "ann@los.be" ++ post .lost)).any fun s =>
      (s.execute [.deleteRow .lost 0]).any fun s' => (s'.realm.find? 0).isNone := by
    decide +kernel
  simp only [Option.any_eq_true, Option.isNone_iff_eq_none] at h
  obtain ⟨s, hs, s', hs', hx⟩ := h
  have hr : ((app fun _ => True).restrict (State.savesNewOnOwn · ·)).Reachable s :=
    reachable_of_executeIf trivial hs
  have hs' := step_of_execute hs'
  exact ⟨s, s', hs, hs', hx, ((app_onlyOwnerRemoves hr).left _ _ hs').mpr rfl⟩

-- Bob's new item takes the place of the item of Ann, which he can open but not edit.
theorem app_onlyOwnerRemoves_leaveOpen : ∃ s s' x,
    (State.fresh .empty (.restore none)).execute leaveOpen = some s ∧
    Step s (.unwind .presented .saveUnwind .firstTab 0) s' ∧
    s.realm.find? 0 = some x ∧ x.userEmail = "ann@los.be" ∧ s.auth.email = some "bob@los.be" ∧
    s'.realm.find? 0 = none := by
  have h : ((State.fresh .empty (.restore none)).execute leaveOpen).any fun s =>
      (s.execute [.unwind .presented .saveUnwind .firstTab 0]).any fun s' =>
        (s.realm.find? 0).any fun x => x.userEmail == "ann@los.be" &&
          s.auth.email == some "bob@los.be" && (s'.realm.find? 0).isNone := by
    decide +kernel
  simp only [Option.any_eq_true, Bool.and_eq_true, beq_iff_eq, Option.isNone_iff_eq_none] at h
  obtain ⟨s, hs, s', hs', x, hx, ⟨ha, hb⟩, hn⟩ := h
  exact ⟨s, s', x, hs, step_of_execute hs', hx, ha, hb, hn⟩

end
end LosTrouvee.Execution
