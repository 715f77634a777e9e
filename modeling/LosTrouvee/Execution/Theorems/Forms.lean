import LosTrouvee.Controllers.Theorems.Pickers
import LosTrouvee.Execution.Theorems.Origins
import LosTrouvee.Execution.Theorems.Runs

namespace LosTrouvee.Execution

-- The time of the events at which the app reads the clock.
def Event.now? : Event → Option Date
  | selectRow _ _ now | tapAdd _ now | unwind _ _ _ now => some now
  | _ => none

-- The forms that are open. Another screen may cover them.
def State.HasForm (s : State) (vc : AddItemTableViewController) : Prop :=
  .addItem vc ∈ s.presented ∨ ∃ t, s.details t = some vc

section

variable [Unicode] {start : Realm → Prop} {s s' : State} {e : Event} {t : Tab} {source : Screen}
  {d : Destination} {vc vc' : AddItemTableViewController}

omit [Unicode] in
theorem State.FormAt.hasForm (h : s.FormAt source d vc t) : s.HasForm vc := by
  cases h
  case details hp hd => exact .inr ⟨_, hd⟩
  case presented hp  => exact .inl (by simp [hp])

omit [Unicode] in
theorem State.not_hasForm_fresh (realm : Realm) (auth : Auth) : ¬(fresh realm auth).HasForm vc := by
  rintro (hp | ⟨t, hd⟩)
  · simp [fresh] at hp
  · cases t <;> simp [fresh, details] at hd

-- A form was open before, perhaps with other contents, or it has just been loaded.
theorem Transition.form_origin (h : Transition s e s') (hf : s'.HasForm vc') :
    s.HasForm vc' ∨ (∃ vc fe, s.HasForm vc ∧ vc.handle s.auth fe = .ok vc') ∨
      ∃ now ∈ e.now?, AddItemTableViewController.Loaded s.realm s.auth now vc' := by
  rcases hf with hp | ⟨t, hd⟩
  · have ⟨_, hp⟩ := h.newItem_origin hp
    rcases hp with hp | ⟨vc, fe, hp, -, hh⟩ | ⟨t, now, rfl, -, -, hl⟩
    · exact .inl (.inl hp)
    · exact .inr (.inl ⟨vc, fe, .inl hp, hh⟩)
    · exact .inr (.inr ⟨now, rfl, .newItem hl⟩)
  · have ⟨_, hd⟩ := h.details_origin hd
    rcases hd with hd | ⟨vc, fe, hd, -, hh⟩ | ⟨row, now, k, x, rfl, -, hx, -, hl⟩
    · exact .inl (.inr ⟨t, hd⟩)
    · exact .inr (.inl ⟨vc, fe, .inr ⟨t, hd⟩, hh⟩)
    · exact .inr (.inr ⟨now, rfl, .details hx hl⟩)

theorem app_guardsPickers (h : (app start).Reachable s) (hf : s.HasForm vc) :
    vc.GuardsPickers := by
  have i : (app start).Invariant fun s => ∀ vc, s.HasForm vc → vc.GuardsPickers := {
    init h := by
      obtain ⟨_, _, _, rfl⟩ := app_init h
      exact fun _ hf => (State.not_hasForm_fresh _ _ hf).elim
    step := by
      intro s e s' _ hs h vc hf
      rcases h.transition.form_origin hf with hf | ⟨vc, _, hf, hh⟩ | ⟨_, _, hl⟩
      · exact hs vc hf
      · exact AddItemTableViewController.handle_guardsPickers hh (hs vc hf)
      · exact hl.guardsPickers }
  exact i.holds h vc hf

end

section

attribute [local instance] Unicode.ascii

end

end LosTrouvee.Execution
