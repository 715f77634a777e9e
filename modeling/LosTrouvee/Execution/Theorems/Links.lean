import LosTrouvee.Execution.Theorems.Origins
import LosTrouvee.Execution.Theorems.Runs
import LosTrouvee.Library.Ownership

namespace LosTrouvee

namespace Realm

-- Every item has a place and a contact of its own.
structure Linked (r : Realm) : Prop where
  places   : Table.Owns Item.place r.items r.places
  contacts : Table.Owns Item.contact r.items r.contacts

-- The place and the contact of a row that is gone.
structure Leftover (r : Realm) (row : Item Key Key) : Prop where
  place   : ∀ p, row.place = some p → Table.Orphan Item.place r.items r.places p
  contact : ∀ c, row.contact = some c → Table.Orphan Item.contact r.items r.contacts c

-- No place and no contact is deleted or changed.
structure Keeps (r r' : Realm) : Prop where
  places   : ∀ p place, r.places.find? p = some place → r'.places.find? p = some place
  contacts : ∀ c contact, r.contacts.find? c = some contact → r'.contacts.find? c = some contact

-- A place or a contact that is new belongs to an item.
structure Supplies (r r' : Realm) : Prop where
  places   : ∀ p place, r'.places.find? p = some place →
    r.places.find? p = some place ∨ ∃ k row, r'.items.find? k = some row ∧ row.place = some p
  contacts : ∀ c contact, r'.contacts.find? c = some contact →
    r.contacts.find? c = some contact ∨ ∃ k row, r'.items.find? k = some row ∧ row.contact = some c

-- What the app does to the Realm in one step. It inserts items with both parts only.
inductive Write (r : Realm) : Realm → Prop
  | skip :
    Write r r
  | erase {k} :
    Write r (r.erase k)
  | insert {y place contact} :
    y.place = some place → y.contact = some contact → Write r (r.insert y)
  | replace {k y place contact} :
    y.place = some place → y.contact = some contact → Write r ((r.erase k).insert y)

variable {r r' r'' : Realm} {k p c : Key} {y : Item Place Contact} {row' : Item Key Key}
  {place : Place} {contact : Contact}

theorem insert_tables (hp : y.place = some place) (hc : y.contact = some contact) :
    (r.insert y).items = r.items.insert (row y (some r.places.nextKey) (some r.contacts.nextKey)) ∧
      (r.insert y).places = r.places.insert place ∧
      (r.insert y).contacts = r.contacts.insert contact := by
  simp [insert, hp, hc, Table.insert?]

theorem empty_linked : empty.Linked where
  places   := .empty _
  contacts := .empty _

namespace Linked

theorem erase (h : r.Linked) (k : Key) : (r.erase k).Linked where
  places   := h.places.erase k
  contacts := h.contacts.erase k

theorem insert (h : r.Linked) (hp : y.place = some place) (hc : y.contact = some contact) :
    (r.insert y).Linked := by
  have ⟨hi, hp, hc⟩ := insert_tables (r := r) hp hc
  constructor
  case places   => rw [hi, hp]; exact h.places.insert rfl
  case contacts => rw [hi, hc]; exact h.contacts.insert rfl

theorem write (h : r.Linked) (w : r.Write r') : r'.Linked := by
  cases w
  case skip          => exact h
  case erase         => exact h.erase _
  case insert hp hc  => exact h.insert hp hc
  case replace hp hc => exact (h.erase _).insert hp hc

end Linked

namespace Keeps

theorem refl (r : Realm) : r.Keeps r :=
  ⟨fun _ _ h => h, fun _ _ h => h⟩

theorem trans (h₁ : r.Keeps r') (h₂ : r'.Keeps r'') : r.Keeps r'' where
  places _ _ h   := h₂.places _ _ (h₁.places _ _ h)
  contacts _ _ h := h₂.contacts _ _ (h₁.contacts _ _ h)

theorem erase (r : Realm) (k : Key) : r.Keeps (r.erase k) :=
  ⟨fun _ _ h => h, fun _ _ h => h⟩

theorem insert (hp : y.place = some place) (hc : y.contact = some contact) :
    r.Keeps (r.insert y) := by
  have ⟨_, hp, hc⟩ := insert_tables (r := r) hp hc
  constructor
  case places   => rw [hp]; exact fun _ _ => Table.find?_insert_of_some
  case contacts => rw [hc]; exact fun _ _ => Table.find?_insert_of_some

theorem write (w : r.Write r') : r.Keeps r' := by
  cases w
  case skip          => exact .refl r
  case erase         => exact .erase r _
  case insert hp hc  => exact .insert hp hc
  case replace hp hc => exact (Keeps.erase r _).trans (.insert hp hc)

end Keeps

namespace Leftover

theorem erase (h : r.Leftover row') (k : Key) : (r.erase k).Leftover row' where
  place p hp   := (h.place p hp).erase k
  contact c hc := (h.contact c hc).erase k

theorem insert (h : r.Leftover row') (hp : y.place = some place) (hc : y.contact = some contact) :
    (r.insert y).Leftover row' := by
  have ⟨hi, hp, hc⟩ := insert_tables (r := r) hp hc
  constructor
  case place   => rw [hi, hp]; exact fun p h' => (h.place p h').insert rfl
  case contact => rw [hi, hc]; exact fun c h' => (h.contact c h').insert rfl

theorem write (h : r.Leftover row') (w : r.Write r') : r'.Leftover row' := by
  cases w
  case skip          => exact h
  case erase         => exact h.erase _
  case insert hp hc  => exact h.insert hp hc
  case replace hp hc => exact (h.erase _).insert hp hc

end Leftover

-- A row stays as it is or leaves its parts behind.

theorem erase_row (h : r.Linked) (hk : r.items.find? k = some row') (j : Key) :
    (r.erase j).items.find? k = some row' ∨ (r.erase j).Leftover row' := by
  by_cases hj : k = j
  case pos =>
    subst hj
    exact .inr ⟨fun _ hp => h.places.orphan_erase hk hp, fun _ hc => h.contacts.orphan_erase hk hc⟩
  case neg => exact .inl (by simp [Realm.erase, Table.find?_erase, hj, hk])

theorem insert_row (hp : y.place = some place) (hc : y.contact = some contact)
    (hk : r.items.find? k = some row' ∨ r.Leftover row') :
    (r.insert y).items.find? k = some row' ∨ (r.insert y).Leftover row' := by
  rcases hk with hk | hl
  · exact .inl (Table.find?_insert_of_some hk)
  · exact .inr (hl.insert hp hc)

theorem Write.row (w : r.Write r') (h : r.Linked) (hk : r.items.find? k = some row') :
    r'.items.find? k = some row' ∨ r'.Leftover row' := by
  cases w
  case skip          => exact .inl hk
  case erase         => exact erase_row h hk _
  case insert hp hc  => exact insert_row hp hc (.inl hk)
  case replace hp hc => exact insert_row hp hc (erase_row h hk _)

theorem insert_supplies (hp : y.place = some place) (hc : y.contact = some contact) :
    r.Supplies (r.insert y) := by
  have ⟨hi, hp, hc⟩ := insert_tables (r := r) hp hc
  constructor
  case places   => rw [hi, hp]; exact fun _ _ => Table.linked_of_insert Item.place rfl
  case contacts => rw [hi, hc]; exact fun _ _ => Table.linked_of_insert Item.contact rfl

theorem Write.supplies (w : r.Write r') : r.Supplies r' := by
  cases w
  case skip | erase  => exact ⟨fun _ _ h => .inl h, fun _ _ h => .inl h⟩
  case insert hp hc  => exact insert_supplies hp hc
  case replace hp hc => exact { insert_supplies hp hc with }

end Realm

namespace Execution

section

variable [Unicode] {start : Realm → Prop} {s s' : State} {e : Event} {es : List Event} {k p c : Key}
  {row : Item Key Key} {realm : Realm}

theorem State.StoreStep.write (h : s.StoreStep e realm) : s.realm.Write realm := by
  cases h
  case skip                => exact .skip
  case delete | found      => exact .erase
  case insert hy _         =>
    have ⟨_, _, hp, hc⟩ := AddItemTableViewController.newItem_parts hy
    exact .insert hp hc
  case replace hy _ _ _    =>
    have ⟨_, _, hp, hc⟩ := AddItemTableViewController.newItem_parts hy
    exact .replace hp hc

theorem Step.write (h : Step s e s') : s.realm.Write s'.realm :=
  h.transition.storeStep.write

-- Some item of the run up to a state had a link to a part.
def CameWith (start : Realm → Prop) (s : State) (link : Item Key Key → Option Key)
    (p : Key) : Prop :=
  ∃ s₁ es k row, (app start).Reachable s₁ ∧ (app start).Run s₁ es s ∧
    s₁.realm.items.find? k = some row ∧ link row = some p

theorem CameWith.step {link : Item Key Key → Option Key} (h : CameWith start s link p)
    (he : Step s e s') : CameWith start s' link p := by
  have ⟨s₁, es, k, row, hr, r, hk, hp⟩ := h
  exact ⟨s₁, es ++ [e], k, row, hr, r.concat he, hk, hp⟩

-- Whatever is in the tables of the parts came with an item.
structure State.Accounted (start : Realm → Prop) (s : State) : Prop where
  places   : ∀ p place, s.realm.places.find? p = some place → CameWith start s Item.place p
  contacts : ∀ c contact, s.realm.contacts.find? c = some contact → CameWith start s Item.contact c

theorem State.Accounted.step (h : s.Accounted start) (hr : (app start).Reachable s')
    (he : Step s e s') : s'.Accounted start := by
  have ⟨hp, hc⟩ := he.write.supplies
  constructor
  case places =>
    intro p place hf
    rcases hp p place hf with hf | ⟨k, row, hk, hl⟩
    · exact (h.places p place hf).step he
    · exact ⟨s', [], k, row, hr, .refl, hk, hl⟩
  case contacts =>
    intro c contact hf
    rcases hc c contact hf with hf | ⟨k, row, hk, hl⟩
    · exact (h.contacts c contact hf).step he
    · exact ⟨s', [], k, row, hr, .refl, hk, hl⟩

theorem app_linked (h : (app (· = .empty)).Reachable s) :
    s.realm.Linked ∧ s.Accounted (· = .empty) := by
  have i : (app (· = .empty)).Invariant fun s => s.realm.Linked ∧ s.Accounted (· = .empty) := {
    init h := by
      obtain ⟨_, _, rfl, rfl⟩ := app_init h
      exact ⟨Realm.empty_linked, by simp [State.fresh, Realm.empty],
        by simp [State.fresh, Realm.empty]⟩
    step := fun hr ⟨hl, ha⟩ h => ⟨hl.write h.write, ha.step (hr.step h) h⟩ }
  exact i.holds h

theorem run_keeps (r : (app start).Run s es s') : s.realm.Keeps s'.realm := by
  induction r
  case refl        => exact .refl _
  case step h _ hi => exact (Realm.Keeps.write h.write).trans hi

theorem run_leftover (r : (app start).Run s es s') (hl : s.realm.Linked)
    (hk : s.realm.items.find? k = some row ∨ s.realm.Leftover row) :
    s'.realm.items.find? k = some row ∨ s'.realm.Leftover row := by
  induction r
  case refl        => exact hk
  case step h _ hi =>
    refine hi (hl.write h.write) ?_
    rcases hk with hk | hk
    · exact Realm.Write.row h.write hl hk
    · exact .inr (hk.write h.write)

-- Every item has a place and a contact of its own. They are never deleted, so those of an item that
-- is gone stay in the Realm and belong to no item from then on.
theorem app_links (h : (app (· = .empty)).Reachable s) :
    s.realm.Linked ∧ s.Accounted (· = .empty) ∧
    ∀ es s', (app (· = .empty)).Run s es s' → s.realm.Keeps s'.realm ∧
      ∀ k row, s.realm.items.find? k = some row → s'.realm.items.find? k = none →
        s'.realm.Leftover row := by
  have ⟨hl, ha⟩ := app_linked h
  refine ⟨hl, ha, fun es s' r => ⟨run_keeps r, fun k row hk hn => ?_⟩⟩
  rcases run_leftover r hl (.inl hk) with hk' | hk'
  · simp [hn] at hk'
  · exact hk'

end

section

attribute [local instance] Unicode.ascii

-- Ann posts an item and deletes it.
theorem app_links_deleteRow : ∃ s s' row,
    (State.fresh .empty (.restore none)).execute (signIn "ann@los.be" ++ post .lost) = some s ∧
    s.execute [.deleteRow .lost 0] = some s' ∧ s.realm.items.find? 0 = some row ∧
    s'.realm.Leftover row := by
  have h : ((State.fresh .empty (.restore none)).execute (signIn "ann@los.be" ++ post .lost)).any
      fun s => (s.execute [.deleteRow .lost 0]).any fun s' => (s.realm.items.find? 0).isSome &&
        (s'.realm.items.find? 0).isNone := by
    decide +kernel
  simp only [Option.any_eq_true, Bool.and_eq_true, Option.isSome_iff_exists,
    Option.isNone_iff_eq_none] at h
  obtain ⟨s, hs, s', hs', ⟨row, hk⟩, hn⟩ := h
  have hr : (app (· = .empty)).Reachable s := reachable_of_execute rfl hs
  have ⟨_, _, hl⟩ := app_links hr
  exact ⟨s, s', row, hs, hs', hk, (hl _ s' (run_of_execute hs')).right 0 row hk hn⟩

-- No item is left after Ann has deleted hers, but its place and its contact are.
theorem app_links_leftover : ∃ s,
    (State.fresh .empty (.restore none)).execute
      (signIn "ann@los.be" ++ post .lost ++ [.deleteRow .lost 0]) = some s ∧
    (app (· = .empty)).Reachable s ∧ s.realm.objects = [] ∧
    (s.realm.places.find? 0).isSome ∧ (s.realm.contacts.find? 0).isSome := by
  have h : ((State.fresh .empty (.restore none)).execute
      (signIn "ann@los.be" ++ post .lost ++ [.deleteRow .lost 0])).any fun s =>
      s.realm.objects == [] && (s.realm.places.find? 0).isSome &&
        (s.realm.contacts.find? 0).isSome := by
    decide +kernel
  simp only [Option.any_eq_true, Bool.and_eq_true, beq_iff_eq] at h
  obtain ⟨s, hs, ⟨ho, hp⟩, hc⟩ := h
  exact ⟨s, hs, reachable_of_execute rfl hs, ho, hp, hc⟩

end
end Execution
end LosTrouvee
