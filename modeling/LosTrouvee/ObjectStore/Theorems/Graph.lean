import LosTrouvee.Library.LinkGraph
import LosTrouvee.ObjectStore.Theorems.Adding

namespace LosTrouvee

-- What objects and links lead to: a row, or an object that has not been added to a Realm.
inductive Node (C : Type)
  | row (c : C) (row : Nat)
  | object (o : Nat)
  deriving DecidableEq

variable {C P V : Type}

-- No object leads to an object of the class.
def Schema.Unlinked (schema : Schema C P) (c : C) : Prop :=
  ∀ d p, schema.objectClassName d p ≠ some c

namespace Store

variable {schema : Schema C P} {s s' t : Store C P V} {o l i : Nat} {c d : C} {p : P} {ps : List P}

-- What an object of the program stands for. An invalidated object stands for nothing.
def node? (s : Store C P V) (o : Nat) : Option (Node C) :=
  if (s.objects o).isUnmanaged then some (.object o)
  else if (s.objects o).realm = some .this then (s.objects o).row.map (.row (s.objects o).className)
  else none

-- Where a node has gone, if it stood for an object that may have been added since.
def follow (s : Store C P V) : Node C → Node C
  | .row c i  => .row c i
  | .object o => (s.node? o).getD (.object o)

-- The objects as the program sees them when it reads their properties, no matter where these are.
def graph [DecidableEq P] [DecidableEq C] (schema : Schema C P) (s : Store C P V) :
    LinkGraph (Node C) P (C × (P → Option V)) where
  label
    | .row c i  => (s.tables c)[i]?.map fun r => schema.plain c r.value
    | .object o => if (s.objects o).isUnmanaged
        then some (schema.plain (s.objects o).className (s.objects o).value) else none
  link
    | .row c i, p  => (s.tables c)[i]?.bind fun r =>
        (schema.objectClassName c p).bind fun d => (r.link p).map (.row d)
    | .object o, p => (schema.objectClassName (s.objects o).className p).bind fun _ =>
        ((s.objects o).link p).bind s.node?

structure WellFormed (schema : Schema C P) (s : Store C P V) : Prop extends Typed schema s where
  accessor : ∀ {o}, (s.objects o).realm = some .this → (s.objects o).isAccessor
  detached : ∀ {o}, (s.objects o).isAccessor → ¬(s.objects o).isUnmanaged
  lt_count : ∀ {o}, (s.objects o).isAccessor → o < s.count
  rowLink  : ∀ {c d p} {i j : Nat} {r}, (s.tables c)[i]? = some r →
    schema.objectClassName c p = some d → r.link p = some j → j < (s.tables d).length
  row_lt   : ∀ {o i}, (s.objects o).realm = some .this → (s.objects o).row = some i →
    i < (s.tables (s.objects o).className).length

theorem node?_of_unmanaged (h : (s.objects o).isUnmanaged) : s.node? o = some (.object o) := by
  simp [node?, h]

theorem node?_of_realm (h : (s.objects o).realm = some .this) :
    s.node? o = (s.objects o).row.map (.row (s.objects o).className) := by
  simp [node?, RLMObject.isUnmanaged_iff, h]

theorem node?_of_managed (hr : (s.objects o).realm = some .this) (hi : (s.objects o).row = some i) :
    s.node? o = some (.row (s.objects o).className i) := by
  simp [node?_of_realm hr, hi]

theorem node?_eq_none (hu : ¬(s.objects o).isUnmanaged) (hr : (s.objects o).realm ≠ some .this) :
    s.node? o = none := by
  simp [node?, hu, hr]

theorem node?_eq_some_iff {n : Node C} : s.node? o = some n ↔
    (s.objects o).isUnmanaged ∧ n = .object o ∨ (s.objects o).realm = some .this ∧
      ∃ i, (s.objects o).row = some i ∧ n = .row (s.objects o).className i := by
  by_cases hu : (s.objects o).isUnmanaged
  case pos =>
    have ⟨hr, _⟩ := RLMObject.isUnmanaged_iff.mp hu
    simp [node?, hu, hr, eq_comm]
  case neg => by_cases hr : (s.objects o).realm = some .this <;> simp [node?, hu, hr, eq_comm]

theorem Promoted.node? (h : Promoted s t o) : ∃ i, (t.objects o).row = some i ∧
    (s.tables (s.objects o).className).length ≤ i ∧
    t.node? o = some (.row (s.objects o).className i) := by
  obtain ⟨i, hi, hl, -⟩ := h.row
  exact ⟨i, hi, hl, h.className ▸ node?_of_managed h.realm hi⟩

theorem follow_of_eq (he : t.objects o = s.objects o) (hu : (s.objects o).isUnmanaged) :
    t.follow (.object o) = .object o := by
  simp [follow, node?_of_unmanaged (he ▸ hu)]

theorem Promoted.follow (h : Promoted s t o) : ∃ i, (t.objects o).row = some i ∧
    (s.tables (s.objects o).className).length ≤ i ∧
    t.follow (.object o) = .row (s.objects o).className i := by
  obtain ⟨i, hi, hl, hn⟩ := h.node?
  exact ⟨i, hi, hl, by simp [Store.follow, hn]⟩

-- The objects stand for the same things, or for the rows that they have become.
theorem Grows.node?_eq (h : Grows s t) (l : Nat) : t.node? l = (s.node? l).map t.follow := by
  cases h.object l
  case inr hp =>
    obtain ⟨_, _, _, hn⟩ := hp.node?
    simp [node?_of_unmanaged hp.unmanaged, Store.follow, hn]
  case inl he =>
    have hn : t.node? l = s.node? l := by simp [Store.node?, he]
    cases hl : s.node? l
    case none   => exact hn.trans hl
    case some n =>
      rcases node?_eq_some_iff.mp hl with ⟨-, rfl⟩ | ⟨-, _, -, rfl⟩ <;> simp [Store.follow, hn, hl]

variable [DecidableEq C] [DecidableEq P]

theorem row?_eq_label (hi : (s.objects o).row = some i) :
    (s.graph schema).label (.row (s.objects o).className i) =
      (s.row? o).map fun r => schema.plain (s.objects o).className r.value := by
  simp [graph, row?, hi]

theorem mem_nodes_row_iff : .row c i ∈ (s.graph schema).nodes ↔ i < (s.tables c).length := by
  simp [LinkGraph.nodes, graph]

theorem mem_nodes_object_iff :
    .object o ∈ (s.graph schema).nodes ↔ (s.objects o).isUnmanaged := by
  cases h : (s.objects o).isUnmanaged <;> simp [LinkGraph.nodes, graph, h]

-- Rows only lead to rows.
theorem read_row_congr (h : t.tables = s.tables) (c : C) (i : Nat) :
    (t.graph schema).read (.row c i) ps = (s.graph schema).read (.row c i) ps := by
  induction ps generalizing c i
  case nil          => simp [LinkGraph.read, graph, h]
  case cons p ps hi =>
    have hl : (t.graph schema).link (.row c i) p = (s.graph schema).link (.row c i) p := by
      simp [graph, h]
    rw [LinkGraph.read, LinkGraph.read, hl]
    cases hm : (s.graph schema).link (.row c i) p
    case none   => rfl
    case some m =>
      obtain ⟨_, -, hm⟩ := Option.bind_eq_some_iff.mp hm
      obtain ⟨d, -, hm⟩ := Option.bind_eq_some_iff.mp hm
      obtain ⟨j, -, rfl⟩ := Option.map_eq_some_iff.mp hm
      exact hi d j

theorem WellFormed.closed (h : s.WellFormed schema) : (s.graph schema).Closed := by
  intro n _ p m hl
  have hn (l) (hl : s.node? l = some m) : m ∈ (s.graph schema).nodes := by
    rcases node?_eq_some_iff.mp hl with ⟨hu, rfl⟩ | ⟨hr, i, hi, rfl⟩
    · exact mem_nodes_object_iff.mpr hu
    · exact mem_nodes_row_iff.mpr (h.row_lt hr hi)
  cases n
  case row c i =>
    obtain ⟨r, hr, hl⟩ := Option.bind_eq_some_iff.mp hl
    obtain ⟨d, hd, hl⟩ := Option.bind_eq_some_iff.mp hl
    obtain ⟨j, hj, rfl⟩ := Option.map_eq_some_iff.mp hl
    exact mem_nodes_row_iff.mpr (h.rowLink hr hd hj)
  case object o =>
    obtain ⟨_, -, hl⟩ := Option.bind_eq_some_iff.mp hl
    obtain ⟨l, -, hl⟩ := Option.bind_eq_some_iff.mp hl
    exact hn l hl

-- The row of an object that was copied.
theorem Copied.row? (h : Copied schema s t o) (hp : Promoted s t o) : ∃ r, t.row? o = some r ∧
    schema.plain (s.objects o).className r.value =
      schema.plain (s.objects o).className (s.objects o).value ∧
    ∀ p d, schema.objectClassName (s.objects o).className p = some d →
      r.link p = (s.objects o).link p >>= fun l => (t.objects l).row := by
  obtain ⟨i, hi, -, hl⟩ := hp.row
  obtain ⟨r, hr⟩ : ∃ r, t.row? o = some r := by simp [Store.row?, hi, hp.className, hl]
  refine ⟨r, hr, ?_, fun p d hd => ?_⟩
  · simp only [Schema.plain, Prod.mk.injEq, true_and]
    funext p
    split
    case isFalse => rfl
    case isTrue hd =>
      obtain ⟨r', hr', hv⟩ := (h.copies p hd.left).value hd.right
      simp [← hv, Option.some.inj (hr.symm.trans hr')]
  · obtain ⟨r', hr', hv⟩ := ((h.copies p (schema.mem_properties hd)).link hd).right.left
    exact Option.some.inj (hr.symm.trans hr') ▸ hv

theorem Adds.graph_label (h : Adds schema s t o) {n : Node C} (hn : n ∈ (s.graph schema).nodes) :
    (t.graph schema).label (t.follow n) = (s.graph schema).label n := by
  cases n
  case row c i =>
    have hr := List.getElem?_eq_getElem (mem_nodes_row_iff.mp hn)
    simp [follow, graph, hr, h.grows.row hr]
  case object l =>
    have hu := mem_nodes_object_iff.mp hn
    cases h.grows.object l
    case inl he => simp [follow_of_eq he hu, graph, he]
    case inr hp =>
      obtain ⟨i, hi, -, hf⟩ := hp.follow
      obtain ⟨r, hr, hv, -⟩ := (h.copied hp).row? hp
      rw [hf, ← hp.className, row?_eq_label hi, hr, hp.className, Option.map_some, hv]
      simp [graph, hu]

theorem Adds.graph_link (hs : Typed schema s) (h : Adds schema s t o) {n : Node C}
    (hn : n ∈ (s.graph schema).nodes) (p : P) :
    (t.graph schema).link (t.follow n) p = ((s.graph schema).link n p).map t.follow := by
  cases n
  case row c i =>
    have hr := List.getElem?_eq_getElem (mem_nodes_row_iff.mp hn)
    simp only [follow, graph, hr, h.grows.row hr, Option.bind_some, Option.map_bind,
      Function.comp_def, Option.map_map]
  case object l =>
    have hu := mem_nodes_object_iff.mp hn
    have hl : ((s.graph schema).link (.object l) p).map t.follow =
        (schema.objectClassName (s.objects l).className p).bind fun _ =>
          ((s.objects l).link p).bind t.node? := by
      simp only [graph, Option.map_bind, Function.comp_def, ← h.grows.node?_eq]
    rw [hl]
    cases h.grows.object l
    case inl he => simp [follow_of_eq he hu, graph, he]
    case inr hp =>
      obtain ⟨i, hi, -, hf⟩ := hp.follow
      obtain ⟨r, hr, -, hk⟩ := (h.copied hp).row? hp
      have hr : (t.tables (s.objects l).className)[i]? = some r := by
        simpa [row?, hi, hp.className] using hr
      simp only [hf, graph, hr, Option.bind_some]
      cases hd : schema.objectClassName (s.objects l).className p
      case none   => rfl
      case some d =>
        simp only [Option.bind_some, hk p d hd]
        cases hm : (s.objects l).link p
        case none   => rfl
        case some m =>
          have hg := (((h.copied hp).copies p (schema.mem_properties hd)).link hd).right.right m hm
          obtain ⟨j, hj⟩ := hg.row
          have hc := (h.grows.className m).trans (hs.link hu hd hm).left
          simp [hj, node?_of_managed hg.realm hj, hc]

-- After objects have been added, the program sees what it saw before.
theorem Adds.iso (hs : Typed schema s) (h : Adds schema s t o) :
    (s.graph schema).Iso t.follow (t.graph schema) where
  label _ hn := h.graph_label hn
  link _ hn  := h.graph_link hs hn
  bijOn := by
    have hg := h.grows
    refine ⟨fun n hn => ?_, fun n hn m hm he => ?_, fun n hn => ?_⟩
    · rw [LinkGraph.nodes, Set.mem_ofPred, h.graph_label hn]
      exact hn
    · have hne {c i l} (hi : i < (s.tables c).length) (hu : (s.objects l).isUnmanaged) :
          t.follow (.object l) ≠ .row c i := by
        cases hg.object l
        case inl he => simp [follow_of_eq he hu]
        case inr hp =>
          obtain ⟨j, -, hj, hf⟩ := hp.follow
          rw [hf]
          rintro ⟨⟩
          exact Nat.not_lt.mpr hj hi
      cases n <;> cases m
      case row.row => exact he
      case row.object =>
        exact absurd he.symm (hne (mem_nodes_row_iff.mp hn) (mem_nodes_object_iff.mp hm))
      case object.row =>
        exact absurd he (hne (mem_nodes_row_iff.mp hm) (mem_nodes_object_iff.mp hn))
      case object.object a b =>
        have ha := mem_nodes_object_iff.mp hn
        have hb := mem_nodes_object_iff.mp hm
        rcases hg.object a with ea | pa <;> rcases hg.object b with eb | pb
        · rwa [follow_of_eq ea ha, follow_of_eq eb hb] at he
        · obtain ⟨_, -, -, hf⟩ := pb.follow
          simp [follow_of_eq ea ha, hf] at he
        · obtain ⟨_, -, -, hf⟩ := pa.follow
          simp [follow_of_eq eb hb, hf] at he
        · obtain ⟨i, hi, -, hf⟩ := pa.follow
          obtain ⟨j, hj, -, hf'⟩ := pb.follow
          rw [hf, hf', Node.row.injEq] at he
          rw [hg.inj pa pb he.left (by rw [hi, hj, he.right])]
    · cases n
      case object l =>
        have hu := mem_nodes_object_iff.mp hn
        have he := hg.eq_of_unmanaged hu
        exact ⟨.object l, mem_nodes_object_iff.mpr (he ▸ hu), follow_of_eq he (he ▸ hu)⟩
      case row c i =>
        by_cases hi : i < (s.tables c).length
        case pos => exact ⟨.row c i, mem_nodes_row_iff.mpr hi, rfl⟩
        case neg =>
          obtain ⟨l, hp, rfl, hr⟩ := hg.covers (Nat.not_lt.mp hi) (mem_nodes_row_iff.mp hn)
          obtain ⟨j, hj, -, hf⟩ := hp.follow
          obtain rfl : i = j := Option.some.inj (hr.symm.trans hj)
          exact ⟨.object l, mem_nodes_object_iff.mpr hp.unmanaged, hf⟩

end Store
end LosTrouvee
