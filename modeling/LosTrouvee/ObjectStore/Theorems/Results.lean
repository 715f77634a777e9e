import LosTrouvee.ObjectStore.Theorems.Soundness

namespace LosTrouvee
namespace Store

variable {C P V : Type} {schema : Schema C P} {s t : Store C P V} {o l i j : Nat} {c d : C}

-- A class without additions.
theorem Grows.length_eq (h : Grows s t)
    (hn : ∀ {l}, Promoted s t l → (s.objects l).className ≠ c) :
    (t.tables c).length = (s.tables c).length := by
  refine Nat.le_antisymm (Nat.not_lt.mp fun hl => ?_) (h.length_le c)
  obtain ⟨l, hp, hc, -⟩ := h.covers (Nat.le_refl _) hl
  exact hn hp hc

-- A class with one addition.
theorem Grows.length_succ (h : Grows s t) (hp : Promoted s t l)
    (hu : ∀ {l'}, Promoted s t l' → (s.objects l').className = (s.objects l).className → l' = l) :
    (t.tables (s.objects l).className).length = (s.tables (s.objects l).className).length + 1 ∧
      (t.objects l).row = some (s.tables (s.objects l).className).length := by
  obtain ⟨i, hi, hs, ht⟩ := hp.row
  have hrow {j} (hj : (s.tables (s.objects l).className).length ≤ j)
      (hj' : j < (t.tables (s.objects l).className).length) : j = i := by
    obtain ⟨l', hp', hc, hr⟩ := h.covers hj hj'
    rw [hu hp' hc, hi] at hr
    exact (Option.some.inj hr).symm
  obtain rfl := hrow (Nat.le_refl _) (Nat.lt_of_le_of_lt hs ht)
  refine ⟨Nat.le_antisymm (Nat.not_lt.mp fun hl => ?_) ht, hi⟩
  exact absurd (hrow (Nat.le_succ _) hl) (Nat.succ_ne_self _)

variable [DecidableEq C] [DecidableEq P]

-- What is read by way of the elements of `objects(_:)`.
def results (schema : Schema C P) (s : Store C P V) (c : C) :
    List (List P → Option (C × (P → Option V))) :=
  (List.range (s.tables c).length).map fun i => (s.graph schema).read (.row c i)

@[simp]
theorem length_results (s : Store C P V) (c : C) :
    (s.results schema c).length = (s.tables c).length := by
  simp [results]

theorem getElem?_results (hi : i < (s.tables c).length) :
    (s.results schema c)[i]? = some ((s.graph schema).read (.row c i)) := by
  simp [results, hi]

theorem results_congr (h : t.tables = s.tables) (c : C) :
    t.results schema c = s.results schema c := by
  simp only [results, h]
  exact List.map_congr_left fun i _ => funext fun ps => read_row_congr h c i

namespace Adds

theorem read (hs : s.WellFormed schema) (h : Adds schema s t o) {n : Node C}
    (hn : n ∈ (s.graph schema).nodes) :
    (t.graph schema).read (t.follow n) = (s.graph schema).read n :=
  funext ((h.iso hs.toTyped).read hs.closed hn)

theorem read_row (hs : s.WellFormed schema) (h : Adds schema s t o)
    (hi : i < (s.tables c).length) :
    (t.graph schema).read (.row c i) = (s.graph schema).read (.row c i) :=
  h.read hs (mem_nodes_row_iff.mpr hi)

theorem results_eq (hs : s.WellFormed schema) (h : Adds schema s t o)
    (hn : ∀ {l}, Promoted s t l → (s.objects l).className ≠ c) :
    t.results schema c = s.results schema c := by
  rw [results, results, h.grows.length_eq hn]
  exact List.map_congr_left fun i hi => h.read_row hs (List.mem_range.mp hi)

-- The addition comes last and shows the object.
theorem results_concat (hs : s.WellFormed schema) (h : Adds schema s t o) (hp : Promoted s t l)
    (hu : ∀ {l'}, Promoted s t l' → (s.objects l').className = (s.objects l).className → l' = l) :
    t.results schema (s.objects l).className =
      s.results schema (s.objects l).className ++ [(s.graph schema).read (.object l)] := by
  obtain ⟨hl, hi⟩ := h.grows.length_succ hp hu
  rw [results, results, hl, List.range_succ, List.map_append]
  congr 1
  · exact List.map_congr_left fun i hi => h.read_row hs (List.mem_range.mp hi)
  · obtain ⟨j, hj, -, hf⟩ := hp.follow
    obtain rfl := Option.some.inj (hi.symm.trans hj)
    rw [List.map_singleton, ← hf, h.read hs (mem_nodes_object_iff.mpr hp.unmanaged)]

end Adds

theorem graph_link_ne (hs : s.WellFormed schema) (hc : schema.Unlinked c) {n : Node C}
    (hn : n ∈ (s.graph schema).nodes) (p : P) :
    (s.graph schema).link n p ≠ some (.row c i) := by
  intro hl
  cases n
  case row d j =>
    obtain ⟨r, -, hl⟩ := Option.bind_eq_some_iff.mp hl
    obtain ⟨e, he, hl⟩ := Option.bind_eq_some_iff.mp hl
    obtain ⟨k, -, hk⟩ := Option.map_eq_some_iff.mp hl
    cases hk
    exact hc d p he
  case object l =>
    obtain ⟨e, he, hl⟩ := Option.bind_eq_some_iff.mp hl
    obtain ⟨m, hm, hl⟩ := Option.bind_eq_some_iff.mp hl
    have hce := (hs.link (mem_nodes_object_iff.mp hn) he hm).left
    rcases node?_eq_some_iff.mp hl with ⟨-, h⟩ | ⟨-, k, -, h⟩
    · cases h
    · cases h
      exact hc _ p (hce ▸ he)

namespace Deletes

-- What is left reads as before, unless something led to the object.
theorem read (hs : s.WellFormed schema) (h : Deletes schema s t c i) (hc : schema.Unlinked c)
    {n m : Node C} (hn : n ∈ (s.graph schema).nodes) (hm : s.movedNode c i n = some m) :
    (t.graph schema).read m = (s.graph schema).read n := by
  have hr := mem_remove_iff.mpr ⟨hn, m, hm⟩
  funext ps
  have hi := h.iso.read (hs.closed.remove _) hr ps
  rw [hm, Option.getD_some] at hi
  rw [hi]
  exact LinkGraph.read_remove hs.closed (fun _ => graph_link_ne hs hc) hn
    (LinkGraph.mem_remove_nodes.mp hr).right

theorem results_eq (hs : s.WellFormed schema) (h : Deletes schema s t c i)
    (hc : schema.Unlinked c) (hd : d ≠ c) : t.results schema d = s.results schema d := by
  rw [results, results, h.tables, length_moveLastOver h.lt, if_neg hd]
  refine List.map_congr_left fun j hj => h.read hs hc (mem_nodes_row_iff.mpr ?_) ?_
  · exact List.mem_range.mp hj
  · simp [movedNode, moved, hd]

-- The last one moves to the place of the object.
theorem results_moveLastOver (hs : s.WellFormed schema) (h : Deletes schema s t c i)
    (hc : schema.Unlinked c) :
    t.results schema c = (s.results schema c).moveLastOver i := by
  have hi : i < (s.results schema c).length := (length_results s c).symm ▸ h.lt
  apply List.ext_getElem?
  intro k
  by_cases hk : k < (t.tables c).length
  case neg =>
    have hl : (t.tables c).length = (s.tables c).length - 1 := by
      rw [h.tables, length_moveLastOver h.lt, if_pos rfl]
    rw [List.getElem?_eq_none (by simpa using hk),
      List.getElem?_eq_none (by simpa [List.length_moveLastOver hi, ← hl] using hk)]
  case pos =>
    obtain ⟨j, hj, hm⟩ := exists_moved h.lt (h.tables ▸ hk)
    have hn : .row c j ∈ (s.graph schema).nodes := mem_nodes_row_iff.mpr hj
    rw [getElem?_results hk, h.read hs hc hn (m := .row c k) (by simp [movedNode, hm])]
    have hl : (s.results schema c).length = (s.tables c).length := length_results s c
    rw [moved, if_pos rfl, ← hl] at hm
    rw [List.getElem?_moveLastOver hi (hl ▸ hj) hm, getElem?_results hj]

end Deletes

end Store
end LosTrouvee
