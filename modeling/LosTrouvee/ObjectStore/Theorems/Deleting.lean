import LosTrouvee.ObjectStore.Theorems.Graph

namespace LosTrouvee
namespace Store

variable {C P V : Type} {schema : Schema C P} {s s' t : Store C P V} {o l : Nat} {c d e : C}
  {i j k : Nat} {p : P} {r : Row P V} [DecidableEq C]

theorem deleteObject_eq_ok : RLMDeleteObjectFromRealm schema o s = .ok s' ↔
    (s.objects o).realm = some .this ∧ s.inWriteTransaction ∧ ∃ t,
      ((s.objects o).row = none ∧ s = t ∨ ∃ i, (s.objects o).row = some i ∧
        s.moveLastOver schema (s.objects o).className i = t) ∧
      t.modifyObject o (fun o => { o with realm := none }) = s' := by
  rw [RLMDeleteObjectFromRealm, RLMVerifyInWriteTransaction]
  by_cases hr : (s.objects o).realm = some .this <;> cases hw : s.inWriteTransaction <;>
    cases hi : (s.objects o).row <;> simp [hr]

-- The place of the row `j` of `d` after the row `i` of `c` was deleted.
def moved (s : Store C P V) (c : C) (i : Nat) (d : C) (j : Nat) : Option Nat :=
  if d = c then List.movedOver ((s.tables c).length - 1) i j else some j

theorem moved_self (s : Store C P V) (c : C) (i : Nat) : s.moved c i c i = none := by
  simp [moved, List.movedOver_self]

theorem moved_eq_none_iff : s.moved c i d j = none ↔ d = c ∧ j = i := by
  by_cases h : d = c <;> simp [moved, h, List.movedOver_eq_none_iff]

theorem moved_inj (hj : j < (s.tables d).length) {j' : Nat} (hj' : j' < (s.tables d).length)
    (h : s.moved c i d j = some k) (h' : s.moved c i d j' = some k) : j = j' := by
  by_cases hd : d = c
  case neg => simp_all [moved]
  case pos =>
    subst hd
    rw [moved, if_pos rfl] at h h'
    exact List.movedOver_inj (by omega) (by omega) h h'

section

variable (hi : i < (s.tables c).length)
include hi

theorem length_moveLastOver (d : C) : ((s.moveLastOver schema c i).tables d).length =
    if d = c then (s.tables c).length - 1 else (s.tables d).length := by
  by_cases hd : d = c
  case pos => simp [moveLastOver, hd, List.length_moveLastOver hi]
  case neg => simp [moveLastOver, hd]

theorem moved_lt (hj : j < (s.tables d).length) (h : s.moved c i d j = some k) :
    k < ((s.moveLastOver schema c i).tables d).length := by
  rw [length_moveLastOver hi]
  by_cases hd : d = c
  case pos =>
    subst hd
    rw [moved, if_pos rfl] at h
    rw [if_pos rfl]
    exact List.movedOver_lt (by omega) (by omega) h
  case neg =>
    obtain rfl : j = k := by simpa [moved, hd] using h
    rwa [if_neg hd]

theorem exists_moved (hk : k < ((s.moveLastOver schema c i).tables d).length) :
    ∃ j, j < (s.tables d).length ∧ s.moved c i d j = some k := by
  rw [length_moveLastOver hi] at hk
  by_cases hd : d = c
  case pos =>
    subst hd
    rw [if_pos rfl] at hk
    obtain ⟨j, hj, hm⟩ := List.exists_movedOver (i := i) hk
    exact ⟨j, by omega, by rw [moved, if_pos rfl, hm]⟩
  case neg => exact ⟨k, by rwa [if_neg hd] at hk, by simp [moved, hd]⟩

-- A row that stays keeps its values, and its links follow the rows that they lead to.
theorem row_moveLastOver (schema : Schema C P) (hr : (s.tables d)[j]? = some r)
    (hm : s.moved c i d j = some k) :
    ∃ r', ((s.moveLastOver schema c i).tables d)[k]? = some r' ∧ r'.value = r.value ∧
      ∀ p e, schema.objectClassName d p = some e → r'.link p = (r.link p).bind (s.moved c i e) := by
  have hk : (Function.update s.tables c ((s.tables c).moveLastOver i) d)[k]? = some r := by
    by_cases hd : d = c
    case pos =>
      subst hd
      rw [moved, if_pos rfl] at hm
      have hj := (List.getElem?_eq_some_iff.mp hr).choose
      simpa [List.getElem?_moveLastOver hi hj hm] using hr
    case neg =>
      obtain rfl : j = k := by simpa [moved, hd] using hm
      simpa [hd] using hr
  refine ⟨{ r with link := fun p => if schema.objectClassName d p = some c
    then (r.link p).bind (List.movedOver ((s.tables c).length - 1) i) else r.link p }, ?_, rfl, ?_⟩
  · simp [moveLastOver, hk]
  · intro p e he
    cases hl : r.link p <;> by_cases hec : e = c <;> simp [he, hec, hl, moved]

end

-- The accessors follow their rows.
theorem object_moveLastOver (l : Nat) : (s.moveLastOver schema c i).objects l =
    if (s.objects l).realm = some .this
    then { s.objects l with row := (s.objects l).row.bind (s.moved c i (s.objects l).className) }
    else s.objects l := by
  by_cases hr : (s.objects l).realm = some .this <;> by_cases hc : (s.objects l).className = c <;>
    cases hi : (s.objects l).row <;> simp [moveLastOver, moved, hr, hc, hi]
  all_goals ext1 <;> simp [hr, hi]

-- Where a node goes when a row is deleted.
def movedNode (s : Store C P V) (c : C) (i : Nat) : Node C → Option (Node C)
  | .row d j  => (s.moved c i d j).map (.row d)
  | .object o => some (.object o)

theorem movedNode_eq_none_iff {n : Node C} : s.movedNode c i n = none ↔ n = .row c i := by
  cases n <;> simp [movedNode, moved_eq_none_iff]

theorem movedNode_row_iff : (∃ e k, s.movedNode c i (.row d j) = some (.row e k)) ↔
    (.row d j : Node C) ≠ .row c i := by
  rw [ne_eq, ← movedNode_eq_none_iff (s := s), movedNode]
  cases s.moved c i d j <;> simp

-- A link to the row is dropped, the other ones follow their rows.
theorem filter_movedNode (n : Option (Node C)) :
    (n.filter (· ≠ .row c i)).map (fun n => (s.movedNode c i n).getD n) =
      n.bind (s.movedNode c i) := by
  cases n
  case none   => rfl
  case some n =>
    by_cases hn : n = .row c i
    case pos => simp [hn, movedNode_eq_none_iff.mpr]
    case neg =>
      have hm : s.movedNode c i n ≠ none := mt movedNode_eq_none_iff.mp hn
      obtain ⟨m, hm⟩ := Option.ne_none_iff_exists'.mp hm
      simp [Option.filter, hn, hm]

-- An object is deleted by way of an accessor that stands for a row.
structure Deletes (schema : Schema C P) (s s' : Store C P V) (c : C) (i : Nat) : Prop where
  lt                 : i < (s.tables c).length
  tables             : s'.tables = (s.moveLastOver schema c i).tables
  count              : s'.count = s.count
  inWriteTransaction : s'.inWriteTransaction = s.inWriteTransaction
  object : ∀ l, (s'.objects l).className = (s.objects l).className ∧
    (s'.objects l).isAccessor = (s.objects l).isAccessor ∧
    (s'.objects l).value = (s.objects l).value ∧ (s'.objects l).link = (s.objects l).link ∧
    (s'.objects l).isObserved = (s.objects l).isObserved
  node?  : ∀ l, s'.node? l = (s.node? l).bind (s.movedNode c i)
  unmanaged : ∀ l, (s'.objects l).isUnmanaged = (s.objects l).isUnmanaged
  managed : ∀ l, (s'.objects l).realm = some .this → (s.objects l).realm = some .this ∧
    (s'.objects l).row = (s.objects l).row.bind (s.moved c i (s.objects l).className)

theorem deleteObject_deletes (hs : s.WellFormed schema)
    (h : RLMDeleteObjectFromRealm schema o s = .ok s') (hi : (s.objects o).row = some i) :
    Deletes schema s s' (s.objects o).className i := by
  obtain ⟨hr, hw, t, ht, rfl⟩ := deleteObject_eq_ok.mp h
  obtain rfl : s.moveLastOver schema (s.objects o).className i = t := by simpa [hi] using ht
  generalize hs' : Store.modifyObject _ o _ = s'
  -- The accessor itself is invalidated, the other ones follow their rows.
  have ho : s'.objects o = { s.objects o with realm := none, row := none } := by
    simp [← hs', objects_modifyObject, object_moveLastOver, hr, hi, moved_self]
  have hl {l} (hl : l ≠ o) : s'.objects l = if (s.objects l).realm = some .this
      then { s.objects l with
        row := (s.objects l).row.bind (s.moved (s.objects o).className i (s.objects l).className) }
      else s.objects l := by
    simp [← hs', objects_modifyObject, object_moveLastOver, hl]
  have hu (l) : (s'.objects l).isUnmanaged = (s.objects l).isUnmanaged := by
    by_cases hlo : l = o
    case pos => simp [hlo, ho, RLMObject.isUnmanaged, RLMObject.isInvalidated, hr, hs.accessor hr]
    case neg =>
      by_cases hlr : (s.objects l).realm = some .this <;>
        simp [hl hlo, hlr, RLMObject.isUnmanaged]
  exact {
    lt                 := hs.row_lt hr hi
    tables             := by rw [← hs']; rfl
    count              := by rw [← hs']; rfl
    inWriteTransaction := by rw [← hs']; rfl
    unmanaged          := hu
    object l := by
      by_cases hlo : l = o
      case pos => simp [hlo, ho]
      case neg => by_cases hlr : (s.objects l).realm = some .this <;> simp [hl hlo, hlr]
    node? l := by
      by_cases hlu : (s.objects l).isUnmanaged
      case pos => simp [node?_of_unmanaged hlu, node?_of_unmanaged ((hu l).trans hlu), movedNode]
      case neg =>
        have hlu' := hu l ▸ hlu
        by_cases hlo : l = o
        case pos =>
          subst hlo
          rw [node?_of_managed hr hi, node?_eq_none hlu' (by simp [ho])]
          simp [movedNode, moved_self]
        case neg =>
          by_cases hlr : (s.objects l).realm = some .this
          case pos =>
            rw [node?_of_realm hlr, node?_of_realm (by simp [hl hlo, hlr])]
            cases hr : (s.objects l).row <;> simp [hl hlo, hlr, hr, movedNode]
          case neg =>
            rw [node?_eq_none hlu hlr, node?_eq_none hlu' (by simp [hl hlo, hlr])]
            rfl
    managed l hlr := by
      by_cases hlo : l = o
      case pos => simp [hlo, ho] at hlr
      case neg => by_cases hr : (s.objects l).realm = some .this <;> simp_all }

variable [DecidableEq P]

theorem mem_remove_iff {n : Node C} : n ∈ ((s.graph schema).remove (.row c i)).nodes ↔
    n ∈ (s.graph schema).nodes ∧ ∃ m, s.movedNode c i n = some m := by
  rw [LinkGraph.mem_remove_nodes, ← Option.isSome_iff_exists, Option.isSome_iff_ne_none, ne_eq,
    ne_eq, movedNode_eq_none_iff]

theorem movedNode_inj {n n' m : Node C} (hn : n ∈ (s.graph schema).nodes)
    (hn' : n' ∈ (s.graph schema).nodes) (hm : s.movedNode c i n = some m)
    (hm' : s.movedNode c i n' = some m) : n = n' := by
  cases n <;> cases n'
  case object.object => exact Option.some.inj (hm.trans hm'.symm)
  case object.row    => obtain ⟨_, _, rfl⟩ := Option.map_eq_some_iff.mp hm'; cases hm
  case row.object    => obtain ⟨_, _, rfl⟩ := Option.map_eq_some_iff.mp hm; cases hm'
  case row.row =>
    obtain ⟨k, hk, rfl⟩ := Option.map_eq_some_iff.mp hm
    obtain ⟨k', hk', he⟩ := Option.map_eq_some_iff.mp hm'
    obtain ⟨rfl, rfl⟩ := Node.row.inj he
    rw [moved_inj (mem_nodes_row_iff.mp hn) (mem_nodes_row_iff.mp hn') hk hk']

namespace Deletes

theorem label (h : Deletes schema s s' c i) {n m : Node C} (hn : n ∈ (s.graph schema).nodes)
    (hm : s.movedNode c i n = some m) : (s'.graph schema).label m = (s.graph schema).label n := by
  cases n
  case object l =>
    obtain rfl : .object l = m := by simpa [movedNode] using hm
    have ⟨hc, _, hv, _⟩ := h.object l
    simp [graph, h.unmanaged, hc, hv]
  case row d j =>
    obtain ⟨k, hk, rfl⟩ := Option.map_eq_some_iff.mp hm
    have hr := List.getElem?_eq_getElem (mem_nodes_row_iff.mp hn)
    obtain ⟨r', hr', hv, -⟩ := row_moveLastOver h.lt schema hr hk
    simp [graph, hr, h.tables, hr', hv]

theorem link (h : Deletes schema s s' c i) {n m : Node C} (hn : n ∈ (s.graph schema).nodes)
    (hm : s.movedNode c i n = some m) (p : P) :
    (s'.graph schema).link m p = ((s.graph schema).link n p).bind (s.movedNode c i) := by
  cases n
  case object l =>
    obtain rfl : .object l = m := by simpa [movedNode] using hm
    have ⟨hc, _, _, hl, _⟩ := h.object l
    simp only [graph, hc, hl, Option.bind_assoc, ← h.node?]
  case row d j =>
    obtain ⟨k, hk, rfl⟩ := Option.map_eq_some_iff.mp hm
    have hr := List.getElem?_eq_getElem (mem_nodes_row_iff.mp hn)
    obtain ⟨r', hr', -, hl⟩ := row_moveLastOver h.lt schema hr hk
    simp only [graph, hr, h.tables, hr', Option.bind_some]
    cases he : schema.objectClassName d p
    case none   => rfl
    case some e =>
      rw [Option.bind_some, Option.bind_some, hl p e he, Option.map_bind, Option.bind_map]
      rfl

-- The program sees what it saw before, without the object that was deleted.
theorem iso (h : Deletes schema s s' c i) :
    ((s.graph schema).remove (.row c i)).Iso (fun n => (s.movedNode c i n).getD n)
      (s'.graph schema) where
  label n hn := by
    obtain ⟨hn, m, hm⟩ := mem_remove_iff.mp hn
    have hne : n ≠ .row c i := by simp [← movedNode_eq_none_iff (s := s), hm]
    simp [hm, h.label hn hm, LinkGraph.remove, hne]
  link n hn p := by
    obtain ⟨hn, m, hm⟩ := mem_remove_iff.mp hn
    rw [LinkGraph.remove, filter_movedNode, ← h.link hn hm, hm, Option.getD_some]
  bijOn := by
    refine ⟨fun n hn => ?_, fun n hn n' hn' he => ?_, fun m hm => ?_⟩
    · obtain ⟨hn, m, hm⟩ := mem_remove_iff.mp hn
      have hf : (s.movedNode c i n).getD n = m := by simp [hm]
      simp only [hf, LinkGraph.nodes, Set.mem_ofPred, h.label hn hm]
      exact hn
    · obtain ⟨hn, m, hm⟩ := mem_remove_iff.mp hn
      obtain ⟨hn', m', hm'⟩ := mem_remove_iff.mp hn'
      obtain rfl : m = m' := by simpa [hm, hm'] using he
      exact movedNode_inj hn hn' hm hm'
    · cases m
      case object l =>
        have hu := mem_nodes_object_iff.mp hm
        have hn : .object l ∈ (s.graph schema).nodes :=
          mem_nodes_object_iff.mpr (h.unmanaged l ▸ hu)
        exact ⟨.object l, mem_remove_iff.mpr ⟨hn, _, rfl⟩, rfl⟩
      case row d k =>
        have hk := mem_nodes_row_iff.mp hm
        obtain ⟨j, hj, hm⟩ := exists_moved h.lt (h.tables ▸ hk)
        have hn : .row d j ∈ (s.graph schema).nodes := mem_nodes_row_iff.mpr hj
        exact ⟨.row d j, mem_remove_iff.mpr ⟨hn, .row d k, by simp [movedNode, hm]⟩,
          by simp [movedNode, hm]⟩

end Deletes

end Store
end LosTrouvee
