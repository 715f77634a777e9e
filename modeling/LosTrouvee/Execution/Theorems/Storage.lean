import LosTrouvee.Execution.Theorems.Origins
import LosTrouvee.Execution.Theorems.Runs
import LosTrouvee.ObjectStore.Theorems.Items

namespace LosTrouvee.Execution

open Store

variable {start : Realm → Prop} {s s' : State} {e : Event} {es : List Event}
  {u : ItemStore}

section

variable [Unicode]

theorem Step.provides (h : Step s e s') (hu : u.Stores s.realm false) :
    u.Provides s.realm s'.realm false := by
  have hw := h.transition.storeStep
  generalize s'.realm = realm at hw
  cases hw
  case skip              => exact hu.refl
  case delete hx _       => exact hu.write fun hu => hu.erase hx
  case found hx          => exact hu.write fun hu => hu.erase hx
  case insert hy _       =>
    obtain ⟨_, _, hp, hc⟩ := AddItemTableViewController.newItem_parts hy
    exact hu.write fun hu => hu.insert hp hc
  case replace hy _ _ hx =>
    obtain ⟨_, _, hp, hc⟩ := AddItemTableViewController.newItem_parts hy
    exact hu.write fun hu => (hu.erase hx).trans fun hu => hu.insert hp hc

-- Whatever the app does with its Realm, the object store does in a Realm file.
theorem app_provides (r : (app start).Run s es s') (hu : u.Stores s.realm false) :
    u.Provides s.realm s'.realm false := by
  induction r generalizing u
  case refl        => exact hu.refl
  case step h _ hi => exact .trans (h.provides hu) hi

end

section

attribute [local instance] Unicode.ascii

theorem app_provides_leaveOpen : ∃ s,
    (State.fresh .empty (.restore none)).execute leaveOpen = some s ∧
    Store.empty.Provides .empty s.realm false := by
  have h : ((State.fresh .empty (.restore none)).execute leaveOpen).isSome := by decide +kernel
  obtain ⟨s, hs⟩ := Option.isSome_iff_exists.mp h
  have run : (app fun _ => True).Run _ leaveOpen s := run_of_execute hs
  exact ⟨s, hs, app_provides run Stores.empty⟩

end

end LosTrouvee.Execution
