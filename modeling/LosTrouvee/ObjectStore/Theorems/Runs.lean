import LosTrouvee.ObjectStore.Items
import LosTrouvee.ObjectStore.Theorems.Soundness
import LosTrouvee.ObjectStore.Theorems.Termination

namespace LosTrouvee
namespace Store

variable {C P V : Type} {schema : Schema C P} {s t u : Store C P V} {o o' l i : Nat} {c : C}
  {op : Operation C P V} {ops : List (Operation C P V)} {ps : List P} {a : C × (P → Option V)}

theorem managed_node? (h : (s.objects o).Managed) :
    ∃ i, (s.objects o).row = some i ∧ s.node? o = some (.row (s.objects o).className i) :=
  h.row.imp fun _ hi => ⟨hi, node?_of_managed h.realm hi⟩

theorem managed_iff_node? : (s.objects o).Managed ↔ ∃ c i, s.node? o = some (.row c i) := by
  constructor
  case mp  => exact fun h => (managed_node? h).elim fun i h => ⟨_, i, h.right⟩
  case mpr =>
    intro ⟨c, i, h⟩
    rcases node?_eq_some_iff.mp h with ⟨-, h⟩ | ⟨hr, j, hj, -⟩
    · cases h
    · exact ⟨hr, j, hj⟩

theorem node?_congr (h : t.objects o = s.objects o) : t.node? o = s.node? o := by
  simp [node?, h]

variable [DecidableEq C] [DecidableEq P]

-- What the program reads at the end of a path of links that starts from an object.
def reads (schema : Schema C P) (s : Store C P V) (o : Nat) (ps : List P) :
    Option (C × (P → Option V)) :=
  (s.node? o).bind fun n => (s.graph schema).read n ps

theorem reads_eq {n : Node C} (h : s.node? o = some n) :
    s.reads schema o ps = (s.graph schema).read n ps := by
  simp [reads, h]

theorem reads_congr (hm : (s.objects o).Managed) (ht : t.tables = s.tables)
    (ho : t.objects o = s.objects o) : t.reads schema o ps = s.reads schema o ps := by
  obtain ⟨i, -, hi⟩ := managed_node? hm
  rw [reads_eq hi, reads_eq ((node?_congr ho).trans hi), read_row_congr ht]

theorem WellFormed.mem_nodes (hs : s.WellFormed schema) (hm : (s.objects o).Managed) :
    ∃ n ∈ (s.graph schema).nodes, s.node? o = some n := by
  obtain ⟨i, hi, hn⟩ := managed_node? hm
  exact ⟨_, mem_nodes_row_iff.mpr (hs.row_lt hm.realm hi), hn⟩

-- The accessors that are still valid show the objects that they showed before.
structure Persists (schema : Schema C P) (s t : Store C P V) : Prop where
  isAccessor : ∀ {o}, (s.objects o).isAccessor → (t.objects o).isAccessor
  managed    : ∀ {o}, (s.objects o).isAccessor → (t.objects o).Managed → (s.objects o).Managed
  reads : ∀ {o ps a}, (s.objects o).Managed → (t.objects o).Managed →
    t.reads schema o ps = some a → s.reads schema o ps = some a
  same  : ∀ {o o'}, (s.objects o).Managed → (s.objects o').Managed → (t.objects o).Managed →
    (t.objects o').Managed → (t.node? o = t.node? o' ↔ s.node? o = s.node? o')

-- Every accessor is still valid and shows what it showed before.
structure Keeps (schema : Schema C P) (s t : Store C P V) : Prop where
  managed : ∀ {o}, (s.objects o).Managed → (t.objects o).Managed
  reads   : ∀ {o} ps, (s.objects o).Managed → t.reads schema o ps = s.reads schema o ps

namespace Persists

theorem refl (s : Store C P V) : Persists schema s s where
  isAccessor h := h
  managed _ h  := h
  reads _ _ h  := h
  same _ _ _ _ := .rfl

theorem trans (hs : s.WellFormed schema) (h₁ : Persists schema s t) (h₂ : Persists schema t u) :
    Persists schema s u := by
  have hm {o} (ho : (s.objects o).Managed) (hu : (u.objects o).Managed) :
      (t.objects o).Managed :=
    h₂.managed (h₁.isAccessor (hs.accessor ho.realm)) hu
  exact {
    isAccessor h   := h₂.isAccessor (h₁.isAccessor h)
    managed ha hu  := h₁.managed ha (h₂.managed (h₁.isAccessor ha) hu)
    reads ho hu hr := h₁.reads ho (hm ho hu) (h₂.reads (hm ho hu) hu hr)
    same h h' hu hu' := (h₂.same (hm h hu) (hm h' hu') hu hu').trans
      (h₁.same h h' (hm h hu) (hm h' hu')) }

-- Accessors that stay as they are, over tables that stay as they are.
theorem of_eq (ht : t.tables = s.tables)
    (ho : ∀ o, (s.objects o).isAccessor → (t.objects o).isAccessor ∧
      ((t.objects o).Managed → (s.objects o).Managed))
    (hm : ∀ o, (s.objects o).Managed → (t.objects o).Managed → t.objects o = s.objects o) :
    Persists schema s t where
  isAccessor h := (ho _ h).left
  managed h    := (ho _ h).right
  reads h h'   := (reads_congr h ht (hm _ h h') ▸ ·)
  same h h' hu hu' := by rw [node?_congr (hm _ h hu), node?_congr (hm _ h' hu')]

end Persists

theorem Assigns.persists (hs : s.WellFormed schema) (h : Assigns schema s t o) :
    Persists schema s t := by
  apply Persists.of_eq h.tables
  case ho =>
    intro l ha
    obtain ⟨-, ha', hr, hi⟩ := h.old l (hs.lt_count ha)
    exact ⟨ha'.trans ha, fun hm => ⟨hr ▸ hm.realm, hi ▸ hm.row⟩⟩
  case hm => exact fun l hl _ => h.others l fun he => h.self (he ▸ hl)

theorem Adds.reads (hs : s.WellFormed schema) (h : Adds schema s t o)
    (hm : (s.objects l).Managed) : t.reads schema l ps = s.reads schema l ps := by
  obtain ⟨i, hi, hn⟩ := managed_node? hm
  have he := h.grows.eq_of_realm (o := l) (by simp [hm.realm])
  have hg : .row _ i ∈ (s.graph schema).nodes := mem_nodes_row_iff.mpr (hs.row_lt hm.realm hi)
  rw [reads_eq hn, reads_eq ((node?_congr he).trans hn)]
  exact (h.iso hs.toTyped).read hs.closed hg ps

theorem Adds.persists (hs : s.WellFormed schema) (h : Adds schema s t o) :
    Persists schema s t where
  isAccessor {l} ha := by
    cases h.grows.object l
    case inl he => exact he ▸ ha
    case inr hp => exact absurd hp.unmanaged (hs.detached ha)
  managed {l} ha hm := by
    cases h.grows.object l
    case inl he => exact he ▸ hm
    case inr hp => exact absurd hp.unmanaged (hs.detached ha)
  reads hm _ hr := h.reads hs hm ▸ hr
  same h₁ h₂ _ _ := by
    rw [node?_congr (h.grows.eq_of_realm (by simp [h₁.realm])),
      node?_congr (h.grows.eq_of_realm (by simp [h₂.realm]))]

theorem Deletes.persists (hs : s.WellFormed schema) (h : Deletes schema s t c i) :
    Persists schema s t where
  isAccessor {l} ha := (h.object l).right.left.trans ha
  managed {l} _ hm := by
    have ⟨hr, hi⟩ := h.managed l hm.realm
    obtain ⟨j, hj⟩ := hm.row
    exact ⟨hr, (Option.bind_eq_some_iff.mp (hi ▸ hj)).imp fun _ h => h.left⟩
  reads {l ps a} hm hm' hr := by
    obtain ⟨j, hj, hn⟩ := managed_node? hm
    obtain ⟨_, -, hn'⟩ := managed_node? hm'
    have hg : .row _ j ∈ (s.graph schema).nodes := mem_nodes_row_iff.mpr (hs.row_lt hm.realm hj)
    have hd := h.node? l ▸ hn'
    rw [hn, Option.bind_some] at hd
    have hi := h.iso.read (hs.closed.remove _) (mem_remove_iff.mpr ⟨hg, _, hd⟩) ps
    rw [hd, Option.getD_some] at hi
    rw [reads_eq hn', hi] at hr
    rw [reads_eq hn]
    exact LinkGraph.read_of_remove hr
  same {l l'} h₁ h₂ h₁' h₂' := by
    constructor
    case mpr => exact fun he => by rw [h.node?, h.node?, he]
    case mp =>
      obtain ⟨j, hj, hn⟩ := managed_node? h₁
      obtain ⟨j', hj', hn'⟩ := managed_node? h₂
      obtain ⟨_, -, hm⟩ := managed_node? h₁'
      have hg : .row _ j ∈ (s.graph schema).nodes := mem_nodes_row_iff.mpr (hs.row_lt h₁.realm hj)
      have hg' : .row _ j' ∈ (s.graph schema).nodes :=
        mem_nodes_row_iff.mpr (hs.row_lt h₂.realm hj')
      intro he
      rw [h.node?, hn, Option.bind_some] at hm
      rw [h.node?, h.node?, hn, hn', Option.bind_some, Option.bind_some, hm] at he
      rw [hn, hn', movedNode_inj hg hg' hm he.symm]

theorem Releases.persists (h : Releases s t o) : Persists schema s t := by
  apply Persists.of_eq h.tables
  case ho =>
    intro l ha
    by_cases hl : l = o
    case neg =>
      rw [h.others l hl]
      exact ⟨ha, id⟩
    case pos =>
      subst hl
      have hn : (t.objects l).realm = none := by rw [h.self]
      exact ⟨by rwa [h.self], fun hm => absurd hm.realm (by simp [hn])⟩
  case hm =>
    intro l hl _
    refine h.others l fun he => ?_
    obtain ⟨_, hi⟩ := hl.row
    simp [he, h.row] at hi

theorem Change.persists (hs : s.WellFormed schema) (h : Change schema s op t) :
    Persists schema s t := by
  cases h
  case transaction ht ho hc => exact .of_eq ht (ho ▸ fun _ h => ⟨h, id⟩) fun _ _ _ => ho ▸ rfl
  case assign h             => exact h.persists hs
  case add h                => exact h.persists hs
  case delete h             => exact h.persists hs
  case release h            => exact h.persists

theorem Change.keeps (hs : s.WellFormed schema) (h : Change schema s op t)
    (hop : ∀ o, op ≠ .delete o) : Keeps schema s t := by
  cases h
  case transaction ht ho hc =>
    exact ⟨fun h => ho ▸ h, fun _ h => reads_congr h ht (by rw [ho])⟩
  case assign h =>
    have he {l} (hm : (s.objects l).Managed) : t.objects l = s.objects l :=
      h.others l fun he => h.self (he ▸ hm)
    exact ⟨fun hm => he hm ▸ hm, fun _ hm => reads_congr hm h.tables (he hm)⟩
  case add h     => exact ⟨h.grows.managed, fun _ hm => h.reads hs hm⟩
  case delete    => exact absurd rfl (hop _)
  case release   => exact absurd rfl (hop _)

-- An accessor is invalidated if and only if the object that it stands for is deleted, by whatever
-- accessor.
theorem Change.managed_iff (hs : s.WellFormed schema) (h : Change schema s op t)
    (hm : (s.objects l).Managed) :
    (t.objects l).Managed ↔ ∀ o, op = .delete o → s.node? o ≠ s.node? l := by
  by_cases hop : ∀ o, op ≠ .delete o
  case pos =>
    exact iff_of_true ((h.keeps hs hop).managed hm) fun o he => absurd he (hop o)
  case neg =>
    cases h
    case transaction hop' _ _ _ => exact absurd (fun o => (hop' o).right) hop
    case assign hop' _          => exact absurd (fun o => (hop' o).right) hop
    case add                    => simp at hop
    case delete o i hr hi h =>
      obtain ⟨j, -, hn⟩ := managed_node? hm
      rw [managed_iff_node?, h.node?, hn, Option.bind_some, movedNode_row_iff]
      simp [node?_of_managed hr hi, eq_comm]
    case release o hr h =>
      obtain ⟨j, hj, hn⟩ := managed_node? hm
      have hne : l ≠ o := by
        rintro rfl
        simp [h.row] at hj
      refine iff_of_true (h.others l hne ▸ hm) ?_
      simp [hn, node?_of_realm hr, h.row]

variable [Inhabited V]

theorem Run.persists (hr : (system schema).Reachable s) (r : (system schema).Run s ops t) :
    Persists schema s t := by
  induction r
  case refl         => exact .refl _
  case step h _ hi  =>
    have hs := system_wellFormed hr
    exact .trans hs ((Step.change hs h).persists hs) (hi (.step hr h))

theorem Run.keeps (hr : (system schema).Reachable s) (r : (system schema).Run s ops t)
    (hops : ∀ o, .delete o ∉ ops) : Keeps schema s t := by
  induction r
  case refl => exact ⟨id, fun _ _ => rfl⟩
  case step op _ _ h _ hi =>
    have hs := system_wellFormed hr
    have hk := (Step.change hs h).keeps hs fun o he => hops o (he ▸ List.mem_cons_self)
    have hi := hi (.step hr h) fun o ho => hops o (List.mem_cons_of_mem _ ho)
    exact ⟨fun hm => hi.managed (hk.managed hm),
      fun ps hm => (hi.reads ps (hk.managed hm)).trans (hk.reads ps hm)⟩

-- Performs a list of operations if each of them can happen and raises no exception.
def execute (schema : Schema C P) (s : Store C P V) : List (Operation C P V) → Option (Store C P V)
  | []        => some s
  | op :: ops =>
    if s.Allows schema op then
      match s.perform schema op with
      | .ok s'   => s'.execute schema ops
      | .error _ => none
    else
      none

theorem run_of_execute (h : s.execute schema ops = some t) : (system schema).Run s ops t := by
  induction ops generalizing s
  case nil            => cases h; exact .refl
  case cons op ops hi =>
    rw [execute] at h
    split at h
    case isFalse => simp at h
    case isTrue ha =>
      split at h
      case h_1 hp => exact .step ⟨ha, hp⟩ (hi h)
      case h_2    => simp at h

theorem step_of_execute (h : s.execute schema [op] = some t) : (system schema).Step s op t := by
  rcases run_of_execute h with _ | ⟨h, _ | _⟩
  exact h

theorem reachable_of_execute (hs : Opened schema s) (h : s.execute schema ops = some t) :
    (system schema).Reachable t :=
  .of_run hs (run_of_execute h)

-- Adding an object adds what it leads to and nothing else, each object once. The rows that are
-- there stay, and the program sees what it saw before.
theorem add_promotes (hr : (system schema).Reachable s) (h : (system schema).Step s (.add o) t) :
    (∀ l, (t.objects l).Managed ↔ (s.objects l).Managed ∨
      (s.objects l).isUnmanaged ∧ Relation.ReflTransGen (Holds schema s) o l) ∧
    (∀ c, s.tables c <+: t.tables c) ∧
    (∀ c i, (s.tables c).length ≤ i → i < (t.tables c).length →
      ∃! l, (s.objects l).isUnmanaged ∧ Relation.ReflTransGen (Holds schema s) o l ∧
        t.node? l = some (.row c i)) ∧
    (s.graph schema).Iso t.follow (t.graph schema) := by
  have hs := (system_wellFormed hr).toTyped
  have ha := addObject_adds schema _ hs h.right
  have hp {l} : Promoted s t l ↔ _ := ha.promoted_iff
  refine ⟨fun l => ?_, fun c => ?_, fun c i hi hi' => ?_, ha.iso hs⟩
  · rw [← hp]
    constructor
    case mpr => exact fun h => h.elim ha.grows.managed Promoted.managed
    case mp =>
      intro hm
      cases ha.grows.object l
      case inl he => exact .inl (he ▸ hm)
      case inr h  => exact .inr h
  · refine List.prefix_iff_getElem?.mpr fun i hi => ?_
    exact (ha.grows.row (List.getElem?_eq_getElem hi))
  · obtain ⟨l, hl, rfl, hr⟩ := ha.grows.covers hi hi'
    refine ⟨l, ⟨hl.unmanaged, (hp.mp hl).right, ?_⟩, fun l' ⟨hu, hh, hn⟩ => ?_⟩
    · exact hl.className ▸ node?_of_managed hl.realm hr
    · have hl' := hp.mpr ⟨hu, hh⟩
      obtain ⟨j, hj, -, hn'⟩ := hl'.node?
      obtain ⟨hc, rfl⟩ := Node.row.inj (Option.some.inj (hn.symm.trans hn'))
      exact ha.grows.inj hl' hl hc.symm (hj.trans hr.symm)

theorem add_promotes_item : ∃ s t,
    empty.execute itemSchema ((postItem 0 "Keys").take 4) = some s ∧
    s.execute itemSchema [.add 2] = some t ∧
    (∀ l, (t.objects l).Managed ↔ (s.objects l).Managed ∨
      (s.objects l).isUnmanaged ∧ Relation.ReflTransGen (Holds itemSchema s) 2 l) ∧
    (s.graph itemSchema).Iso t.follow (t.graph itemSchema) := by
  have h : (empty.execute itemSchema ((postItem 0 "Keys").take 4)).any fun s =>
      (s.execute itemSchema [.add 2]).isSome := by
    decide +kernel
  simp only [Option.any_eq_true, Option.isSome_iff_exists] at h
  obtain ⟨s, hs, t, ht⟩ := h
  have ⟨hp, _, _, hi⟩ := add_promotes (reachable_of_execute opened_empty hs) (step_of_execute ht)
  exact ⟨s, t, hs, ht, hp, hi⟩

-- Deleting an object removes it and the links to it, and nothing else.
theorem delete_removes (hr : (system schema).Reachable s)
    (h : (system schema).Step s (.delete o) t) (hm : (s.objects o).Managed) :
    ∃ c i, s.node? o = some (.row c i) ∧
      ((s.graph schema).remove (.row c i)).Iso (fun n => (s.movedNode c i n).getD n)
        (t.graph schema) ∧
      ∀ l, t.node? l = (s.node? l).bind (s.movedNode c i) := by
  obtain ⟨i, hi, hn⟩ := managed_node? hm
  have hd := deleteObject_deletes (system_wellFormed hr) h.right hi
  exact ⟨_, i, hn, hd.iso, hd.node?⟩

theorem delete_removes_item : ∃ s t,
    empty.execute itemSchema (postItem 0 "Keys" ++ [.get .item 0, .beginWrite]) = some s ∧
    s.execute itemSchema [.delete 3] = some t ∧ ∃ c i, s.node? 3 = some (.row c i) ∧
      ∀ l, t.node? l = (s.node? l).bind (s.movedNode c i) := by
  have h : (empty.execute itemSchema (postItem 0 "Keys" ++ [.get .item 0, .beginWrite])).any
      fun s => (s.objects 3).Managed ∧ (s.execute itemSchema [.delete 3]).isSome := by
    decide +kernel
  simp only [Option.any_eq_true, decide_eq_true_eq, Option.isSome_iff_exists] at h
  obtain ⟨s, hs, hm, t, ht⟩ := h
  have ⟨c, i, hn, _, hl⟩ :=
    delete_removes (reachable_of_execute opened_empty hs) (step_of_execute ht) hm
  exact ⟨s, t, hs, ht, c, i, hn, hl⟩

-- No link leads nowhere, and neither does an accessor that is not invalidated.
theorem accessor_valid (hr : (system schema).Reachable s) :
    (s.graph schema).Closed ∧
      ∀ o, (s.objects o).realm = some .this → (s.objects o).isInvalidated = false →
        ∃ n ∈ (s.graph schema).nodes, s.node? o = some n := by
  have hs := system_wellFormed hr
  exact ⟨hs.closed, fun o hr hv => hs.mem_nodes (hs.attached hr hv)⟩

theorem accessor_valid_item : ∃ s, empty.execute itemSchema (postItem 0 "Keys") = some s ∧
    (s.graph itemSchema).Closed := by
  have h : (empty.execute itemSchema (postItem 0 "Keys")).isSome := by decide +kernel
  obtain ⟨s, hs⟩ := Option.isSome_iff_exists.mp h
  exact ⟨s, hs, (accessor_valid (reachable_of_execute opened_empty hs)).left⟩

end Store
end LosTrouvee
