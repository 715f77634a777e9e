import LosTrouvee.Objects.Realm
import LosTrouvee.ObjectStore.Theorems.Results
import LosTrouvee.ObjectStore.Theorems.Runs

namespace LosTrouvee
namespace Realm

-- What a program does to the items of a Realm. An item is deleted by its place in `objects(_:)`.
inductive Edit
  | insert (item : Item Place Contact)
  | erase (row : Nat)

def edit (r : Realm) : Edit → Realm
  | .insert item => r.insert item
  | .erase row   => match r.objects[row]? with
    | some k => r.erase k
    | none   => r

variable {r : Realm} {i : Nat} {k : Key} {x : Item Place Contact}

theorem edit_erase (h : r.objects[i]? = some k) : r.edit (.erase i) = r.erase k := by
  simp [edit, h]

theorem find?_objects_insert (r : Realm) (x : Item Place Contact) :
    (r.insert x).objects.map (r.insert x).find? = r.objects.map r.find? ++ [some x] := by
  have ho : (r.insert x).objects = r.objects ++ [r.items.nextKey] := Table.keys_insert ..
  rw [ho, List.map_append, List.map_singleton, find?_insert, Function.update_self]
  congr 1
  refine List.map_congr_left fun k hk => Function.update_of_ne ?_ _ _
  exact ne_nextKey (Option.isSome_iff_exists.mpr (mem_objects_iff.mp hk))

theorem find?_objects_erase (h : r.objects[i]? = some k) :
    (r.erase k).objects.map (r.erase k).find? = (r.objects.map r.find?).moveLastOver i := by
  have ho : (r.erase k).objects = r.objects.moveLastOver i := Table.keys_erase h
  rw [← List.map_moveLastOver, ← ho]
  refine List.map_congr_left fun j hj => find?_erase_of_ne ?_
  obtain ⟨x, hx⟩ := mem_objects_iff.mp hj
  rintro rfl
  simp [find?_erase] at hx

end Realm

namespace Store

variable {s t u u' : ItemStore} {r r' r'' : Realm} {o l i : Nat} {k : Key}
  {d : ClassName} {q : PropertyName} {x : Item Place Contact} {place : Place} {contact : Contact}
  {op : ItemOperation}
  {ops : List ItemOperation}

-- The objects of a class without their links.
def rows (s : ItemStore) (c : ClassName) :
    List (Option (ClassName × Properties)) :=
  (s.results itemSchema c).map (· [])

-- The program finds in the Realm file what is in the Realm, in the same order.
structure Represents (s : ItemStore) (r : Realm) : Prop where
  items    : (s.results itemSchema .item).map Item.ofObject = r.objects.map r.find?
  places   : (s.rows .place).map (· >>= Place.ofObject) = r.places.rows.map (some ·.2)
  contacts : (s.rows .contact).map (· >>= Contact.ofObject) = r.contacts.rows.map (some ·.2)

-- The program adds and deletes nothing but items, and new items have a new place and contact.
def OnlyItems (s : ItemStore) :
    ItemOperation → Prop
  | .add o    => (s.objects o).className = .item ∧
    ∀ l, Holds itemSchema s o l → (s.objects l).isUnmanaged
  | .delete o => (s.objects o).className = .item
  | _         => True

-- What an operation means to the Realm.
def edits (s : ItemStore) :
    ItemOperation → List Realm.Edit
  | .add o    => if (s.objects o).isUnmanaged
    then (Item.ofObject ((s.graph itemSchema).read (.object o))).toList.map .insert else []
  | .delete o => match s.node? o with
    | some (.row .item i) => [.erase i]
    | _                   => []
  | _         => []

-- What a program means to the Realm.
def allEdits (s : ItemStore) :
    List ItemOperation → List Realm.Edit
  | []        => []
  | op :: ops => s.edits op ++ match s.perform itemSchema op with
    | .ok s'   => s'.allEdits ops
    | .error _ => []

theorem unlinked_item : itemSchema.Unlinked .item := by
  intro d p h
  simp [objectClassName_eq_some_iff] at h

theorem represents_empty (h : ∀ c, s.tables c = []) : Represents s .empty := by
  constructor <;> simp [rows, results, h] <;> rfl

theorem Represents.congr (h : Represents s r) (ht : t.tables = s.tables) : Represents t r where
  items    := results_congr ht .item ▸ h.items
  places   := by rw [rows, results_congr ht, ← rows, h.places]
  contacts := by rw [rows, results_congr ht, ← rows, h.contacts]

theorem Represents.getElem? (h : Represents s r) (hi : i < (s.tables .item).length) :
    ∃ k, r.objects[i]? = some k := by
  have hl := congrArg List.length h.items
  simp only [List.length_map, length_results] at hl
  exact ⟨_, List.getElem?_eq_getElem (hl ▸ hi)⟩

theorem Represents.lt_length (h : Represents s r) {k : Key} (hk : r.objects[i]? = some k) :
    i < (s.tables .item).length := by
  have hl := congrArg List.length h.items
  simp only [List.length_map, length_results] at hl
  exact hl ▸ (List.getElem?_eq_some_iff.mp hk).choose

-- Places and contacts lead nowhere.
theorem reaches_iff (hs : Typed itemSchema s) :
    Relation.ReflTransGen (Holds itemSchema s) o l ↔ l = o ∨ Holds itemSchema s o l := by
  constructor
  case mpr =>
    rintro (rfl | h)
    · exact .refl
    · exact .single h
  case mp =>
    intro h
    rcases h.cases_tail with rfl | ⟨m, h, hm⟩
    · exact .inl rfl
    · rcases h.cases_tail with rfl | ⟨n, -, hu, p, d, hd, hp⟩
      · exact .inr hm
      · obtain ⟨-, q, e, he, -⟩ := hm
        rw [(hs.link hu hd hp).left, objectClassName_eq_some_iff] at he
        simp [objectClassName_eq_some_iff, he.left] at hd

theorem read_className {a : ClassName × Properties} (hs : s.WellFormed itemSchema)
    (ho : (s.objects o).isUnmanaged)
    (hq : itemSchema.objectClassName (s.objects o).className q = some d)
    (h : (s.graph itemSchema).read (.object o) [q] = some a) : a = (d, a.2) := by
  obtain ⟨n, hn, ha⟩ := Option.bind_eq_some_iff.mp h
  obtain ⟨_, -, hn⟩ := Option.bind_eq_some_iff.mp hn
  obtain ⟨l, hl, hn⟩ := Option.bind_eq_some_iff.mp hn
  have hc := (hs.link ho hq hl).left
  rcases node?_eq_some_iff.mp hn with ⟨hu, rfl⟩ | ⟨-, i, -, rfl⟩
  · obtain rfl : itemSchema.plain d (s.objects l).value = a := by
      simpa [LinkGraph.read, graph, hu, hc] using ha
    rfl
  · obtain ⟨r, -, rfl⟩ : ∃ r, (s.tables d)[i]? = some r ∧ itemSchema.plain d r.value = a := by
      simpa [LinkGraph.read, graph, hc] using ha
    rfl

-- An object of the class is an item.
theorem ofObject_object (ho : (s.objects o).isUnmanaged) (hc : (s.objects o).className = .item) :
    ∃ x, Item.ofObject ((s.graph itemSchema).read (.object o)) = some x ∧
      x.place = (s.graph itemSchema).read (.object o) [.place] >>= Place.ofObject ∧
      x.contact = (s.graph itemSchema).read (.object o) [.contact] >>= Contact.ofObject := by
  have hr : (s.graph itemSchema).read (.object o) [] =
      some (itemSchema.plain .item (s.objects o).value) := by
    simp [LinkGraph.read, graph, ho, hc]
  rw [Item.ofObject, hr]
  exact ⟨_, rfl, rfl, rfl⟩

namespace Adds

variable (hs : s.WellFormed itemSchema) (h : Adds itemSchema s t o)
include hs h

-- The object that a new item holds is added after those of its class.
theorem rows_eq (ho : Promoted s t o) (hu : ∀ l, Holds itemSchema s o l → (s.objects l).isUnmanaged)
    (hq : itemSchema.objectClassName (s.objects o).className q = some d) :
    t.rows d = s.rows d ++ ((s.graph itemSchema).read (.object o) [q]).toList.map some := by
  -- An object of the class is what the property holds.
  have hp {l} (hl : Promoted s t l) (hc : (s.objects l).className = d) :
      (s.objects o).link q = some l := by
    rcases (reaches_iff hs.toTyped).mp (h.holds hl) with rfl | ⟨-, p, e, he, hp⟩
    · rw [hc, objectClassName_eq_some_iff] at hq
      obtain ⟨rfl, h⟩ := hq
      simp at h
    · obtain rfl := (hs.link ho.unmanaged he hp).left.symm.trans hc
      exact objectClassName_inj he hq ▸ hp
  cases hl : (s.objects o).link q
  case none =>
    have hr : (s.graph itemSchema).read (.object o) [q] = none := by
      simp [LinkGraph.read, graph, hl]
    rw [hr, rows, h.results_eq hs fun hp' hc => by simp [hp hp' hc] at hl]
    simp [rows]
  case some l =>
    have hh : Holds itemSchema s o l := ⟨ho.unmanaged, q, d, hq, hl⟩
    have hul := hu l hh
    obtain rfl := (hs.link ho.unmanaged hq hl).left
    have hr : (s.graph itemSchema).read (.object o) [q] =
        (s.graph itemSchema).read (.object l) [] := by
      simp [LinkGraph.read, graph, hl, hq, node?_of_unmanaged hul]
    have hn : .object l ∈ (s.graph itemSchema).nodes := mem_nodes_object_iff.mpr hul
    rw [rows, h.results_concat hs (h.promoted_iff.mpr ⟨hul, .single hh⟩) fun hp' hc => ?_]
    · obtain ⟨a, ha⟩ := Option.isSome_iff_exists.mp hn
      rw [hr, List.map_append]
      simp [rows, LinkGraph.read, ha]
    · exact Option.some.inj ((hp hp' hc).symm.trans hl)

-- What holds of a table of the Realm holds after the object has been inserted into it.
theorem rows_insert? {α : Type} {f : ClassName × Properties → Option α} {table : Table α}
    (ho : Promoted s t o) (hu : ∀ l, Holds itemSchema s o l → (s.objects l).isUnmanaged)
    (hq : itemSchema.objectClassName (s.objects o).className q = some d)
    (hf : ∀ properties, (f (d, properties)).isSome)
    (hr : (s.rows d).map (· >>= f) = table.rows.map (some ·.2)) :
    (t.rows d).map (· >>= f) = (table.insert?
      ((s.graph itemSchema).read (.object o) [q] >>= f)).1.rows.map (some ·.2) := by
  rw [h.rows_eq hs ho hu hq, List.map_append, hr]
  cases ha : (s.graph itemSchema).read (.object o) [q]
  case none   => simp [Table.insert?]
  case some a =>
    obtain ⟨b, hb⟩ := Option.isSome_iff_exists.mp (hf a.2)
    rw [← read_className hs ho.unmanaged hq ha] at hb
    simp [Table.insert?, Table.insert, hb]

theorem represents (hi : OnlyItems s (.add o)) (hr : Represents s r) :
    Represents t ((s.edits (.add o)).foldl Realm.edit r) := by
  obtain ⟨hc, hu⟩ := hi
  by_cases ho : (s.objects o).isUnmanaged
  case neg =>
    have hp {l c} (hl : Promoted s t l) : (s.objects l).className ≠ c := by
      rcases (reaches_iff hs.toTyped).mp (h.holds hl) with rfl | hh
      · exact absurd hl.unmanaged ho
      · exact absurd hh.left ho
    have he {c} := h.results_eq (c := c) hs hp
    simp only [edits, ho, if_false, Bool.false_eq_true, List.foldl_nil]
    exact ⟨he ▸ hr.items, by rw [rows, he, ← rows, hr.places],
      by rw [rows, he, ← rows, hr.contacts]⟩
  case pos =>
    have hp := h.promoted_iff.mpr ⟨ho, .refl⟩
    obtain ⟨x, hx, hxp, hxc⟩ := ofObject_object ho hc
    simp only [edits, ho, if_true, hx, Option.toList_some, List.map_singleton, List.foldl_cons,
      List.foldl_nil, Realm.edit]
    constructor
    case items =>
      rw [Realm.find?_objects_insert, ← hr.items, ← hx]
      have hl := h.results_concat hs hp fun {l} hl hc' => ?_
      · rw [hc] at hl
        rw [hl, List.map_append, List.map_singleton]
      · rcases (reaches_iff hs.toTyped).mp (h.holds hl) with rfl | ⟨-, p, e, he, hp⟩
        · rfl
        · rw [← (hs.link ho he hp).left, hc', hc, objectClassName_eq_some_iff] at he
          simp at he
    case places =>
      have hl := h.rows_insert? (q := .place) hs hp hu (hc ▸ rfl) (fun _ => rfl) hr.places
      rwa [← hxp] at hl
    case contacts =>
      have hl := h.rows_insert? (q := .contact) hs hp hu (hc ▸ rfl) (fun _ => rfl) hr.contacts
      rwa [← hxc] at hl

end Adds

theorem Deletes.represents (hs : s.WellFormed itemSchema) (h : Deletes itemSchema s t .item i)
    (hr : Represents s r) : Represents t (r.edit (.erase i)) := by
  obtain ⟨k, hk⟩ := hr.getElem? h.lt
  have he {c} (hc : c ≠ .item) := h.results_eq (d := c) hs unlinked_item hc
  simp only [Realm.edit, hk]
  constructor
  case items =>
    rw [h.results_moveLastOver hs unlinked_item, List.map_moveLastOver, hr.items,
      Realm.find?_objects_erase hk]
  case places   => rw [rows, he (by simp), ← rows, hr.places]; rfl
  case contacts => rw [rows, he (by simp), ← rows, hr.contacts]; rfl

theorem edits_eq_nil (h : ∀ o, op ≠ .add o ∧ op ≠ .delete o) : s.edits op = [] := by
  cases op <;> simp_all [edits]

theorem Change.represents (hs : s.WellFormed itemSchema) (h : Change itemSchema s op t)
    (hi : OnlyItems s op) (hr : Represents s r) :
    Represents t ((s.edits op).foldl Realm.edit r) := by
  cases h
  case transaction hop ht _ _ => exact edits_eq_nil hop ▸ hr.congr ht
  case assign hop h           => exact edits_eq_nil hop ▸ hr.congr h.tables
  case add h                  => exact h.represents hs hi hr
  case delete o i hm hi' h    =>
    have hc : (s.objects o).className = .item := hi
    simp only [edits, node?_of_managed hm hi', hc, List.foldl_cons, List.foldl_nil]
    exact Deletes.represents hs (hc ▸ h) hr
  case release o hm h         =>
    simp only [edits, node?_of_realm hm, h.row, Option.map_none, List.foldl_nil]
    exact hr.congr h.tables

-- Whatever a program does to items, the Realm file stays true to the Realm.
theorem Run.represents (hs : (system itemSchema).Reachable s)
    (run : ((system itemSchema).restrict OnlyItems).Run s ops t) (hr : Represents s r) :
    Represents t ((s.allEdits ops).foldl Realm.edit r) := by
  induction run generalizing r
  case refl => exact hr
  case step h _ hi =>
    obtain ⟨ho, h⟩ := h
    have hw := system_wellFormed hs
    rw [allEdits, h.right, List.foldl_append]
    exact hi (.step hs h) ((Step.change hw h).represents hw ho hr)

theorem allEdits_cons (h : s.perform itemSchema op = .ok t) :
    s.allEdits (op :: ops) = s.edits op ++ t.allEdits ops := by
  rw [allEdits, h]

theorem allEdits_eq_nil (h : ∀ op ∈ ops, ∀ o, op ≠ .add o ∧ op ≠ .delete o) :
    s.allEdits ops = [] := by
  induction ops generalizing s
  case nil            => rfl
  case cons op ops hi =>
    obtain ⟨ho, h⟩ := List.forall_mem_cons.mp h
    rw [allEdits, edits_eq_nil ho, List.nil_append]
    split
    case h_1 => exact hi h
    case h_2 => rfl

theorem allEdits_append {ops' : List ItemOperation}
    (r : (system itemSchema).Run s ops t) :
    s.allEdits (ops ++ ops') = s.allEdits ops ++ t.allEdits ops' := by
  induction r
  case refl        => rfl
  case step h _ hi =>
    rw [List.cons_append, allEdits_cons h.right, allEdits_cons h.right, hi, List.append_assoc]

section

variable {c : ClassName} {v w : PropertyName → PropertyValue} {p p' : PropertyName → Option Nat}

theorem accepts_init (h : s.objects o = .init c v p) : Accepts s o := by
  constructor <;> simp [h, RLMObject.init, RLMObject.isInvalidated]

theorem isUnmanaged_init (h : s.objects o = .init c v p) : (s.objects o).isUnmanaged := by
  rw [h]
  rfl

theorem label_init (h : s.objects o = .init c v p) :
    (s.graph itemSchema).label (.object o) = some (itemSchema.plain c v) := by
  simp only [graph, isUnmanaged_init h, if_true]
  rw [h]
  rfl

theorem read_init (h : s.objects o = .init c v p) (h' : s.objects l = .init d w p')
    (hq : itemSchema.objectClassName c q = some d) (hl : p q = some l) :
    (s.graph itemSchema).read (.object o) [q] = some (itemSchema.plain d w) := by
  have hk : (s.graph itemSchema).link (.object o) q = some (.object l) := by
    simp [graph, h, RLMObject.init, hq, hl, node?_of_unmanaged (isUnmanaged_init h')]
  simp [LinkGraph.read, hk, label_init h']

end

theorem step_begin (h : s.inWriteTransaction = false) :
    (system itemSchema).Step s .beginWrite { s with inWriteTransaction := true } :=
  ⟨trivial, by simp [perform, beginTransaction, h]⟩

theorem step_commit (h : s.inWriteTransaction) :
    (system itemSchema).Step s .commitWrite { s with inWriteTransaction := false } :=
  ⟨trivial, by simp [perform, commitTransaction, h]⟩

-- The objects of a new item.
structure Holding (s : ItemStore) (o : Nat) (x : Item Place Contact)
    (place : Place) (contact : Contact) : Prop where
  place   : s.objects o = .init .place place.values fun _ => none
  contact : s.objects (o + 1) = .init .contact contact.values fun _ => none
  item    : s.objects (o + 2) = .init .item x.values (Item.link o (o + 1))

namespace Holding

theorem holds_iff (h : Holding s o x place contact) :
    Holds itemSchema s (o + 2) l ↔ l = o ∨ l = o + 1 := by
  rw [Holds, h.item]
  constructor
  case mp =>
    rintro ⟨-, p, d, hd, hl⟩
    rcases (objectClassName_eq_some_iff.mp hd).right with ⟨rfl, -⟩ | ⟨rfl, -⟩
    · exact .inl (Option.some.inj hl).symm
    · exact .inr (Option.some.inj hl).symm
  case mpr =>
    rintro (rfl | rfl)
    · exact ⟨rfl, .place, .place, rfl, rfl⟩
    · exact ⟨rfl, .contact, .contact, rfl, rfl⟩

theorem accepts (h : Holding s o x place contact) (hl : Holds itemSchema s (o + 2) l) :
    Accepts s l ∧ (s.objects l).isUnmanaged := by
  rcases h.holds_iff.mp hl with rfl | rfl
  · exact ⟨accepts_init h.place, isUnmanaged_init h.place⟩
  · exact ⟨accepts_init h.contact, isUnmanaged_init h.contact⟩

theorem ofObject (h : Holding s o x place contact) (hp : x.place = some place)
    (hc : x.contact = some contact) :
    Item.ofObject ((s.graph itemSchema).read (.object (o + 2))) = some x := by
  apply Item.ofObject_plain
  case h  => exact label_init h.item
  case hp => rw [hp, read_init h.item h.place rfl rfl]; exact place.ofObject_plain
  case hc => rw [hc, read_init h.item h.contact rfl rfl]; exact contact.ofObject_plain

end Holding

-- A Realm file that holds the Realm, within a write transaction or outside of it.
structure Stores (u : ItemStore) (r : Realm) (writing : Bool) : Prop where
  reachable          : (system itemSchema).Reachable u
  inWriteTransaction : u.inWriteTransaction = writing
  represents         : u.Represents r

-- A program that does no more than this to the Realm.
def Provides (u : ItemStore) (r r' : Realm) (writing : Bool) : Prop :=
  ∃ ops u', ((system itemSchema).restrict OnlyItems).Run u ops u' ∧ Stores u' r' writing ∧
    (u.allEdits ops).foldl Realm.edit r = r'

variable {writing b : Bool}

theorem Provides.trans (h : Provides u r r' b)
    (h' : ∀ {u'}, Stores u' r' b → Provides u' r' r'' writing) : Provides u r r'' writing := by
  obtain ⟨ops, u', run, hu', rfl⟩ := h
  obtain ⟨ops', u'', run', hu'', rfl⟩ := h' hu'
  refine ⟨ops ++ ops', u'', run.append run', hu'', ?_⟩
  rw [allEdits_append run.of_restrict, List.foldl_append]

namespace Stores

theorem empty : Stores .empty .empty false where
  reachable          := .init opened_empty
  inWriteTransaction := rfl
  represents         := represents_empty fun _ => rfl

theorem refl (h : Stores u r writing) : Provides u r r writing :=
  ⟨[], u, .refl, h, rfl⟩

theorem step (h : Stores u r b) (hs : (system itemSchema).Step u op t) (ho : OnlyItems u op)
    (ht : t.inWriteTransaction = writing) (hr : (u.edits op).foldl Realm.edit r = r') :
    Provides u r r' writing := by
  have hw := system_wellFormed h.reachable
  refine ⟨[op], t, .single ⟨ho, hs⟩, ⟨.step h.reachable hs, ht, hr ▸ ?_⟩, ?_⟩
  · exact (Step.change hw hs).represents hw ho h.represents
  · rw [allEdits_cons hs.right, allEdits, List.append_nil, hr]

-- `realm.write`
theorem write (h : Stores u r false)
    (h' : ∀ {u'}, Stores u' r true → Provides u' r r' true) : Provides u r r' false := by
  have hb : Provides u r r true := h.step (step_begin h.inWriteTransaction) trivial rfl rfl
  exact (hb.trans h').trans fun hu => hu.step (step_commit hu.inWriteTransaction) trivial rfl rfl

-- The initializers of the objects of a new item.
theorem newItem (h : Stores u r writing) (x : Item Place Contact) (place : Place)
    (contact : Contact) : ∃ u', Stores u' r writing ∧ u'.count = u.count + 3 ∧
      ((system itemSchema).restrict OnlyItems).Run u (newItem u.count x place contact) u' ∧
      Holding u' u.count x place contact := by
  obtain ⟨u', run, ht, hw, hn, hh⟩ : ∃ u', ((system itemSchema).restrict OnlyItems).Run u
      (LosTrouvee.newItem u.count x place contact) u' ∧ u'.tables = u.tables ∧
      u'.inWriteTransaction = u.inWriteTransaction ∧ u'.count = u.count + 3 ∧
      Holding u' u.count x place contact := by
    refine ⟨_, .step ⟨trivial, ?_, rfl⟩ (.step ⟨trivial, ?_, rfl⟩ (.single ⟨trivial, ?_, rfl⟩)),
      rfl, rfl, rfl, ?_⟩
    · simp [Allows, Fits, Place.operation]
    · simp [Allows, Fits, Contact.operation]
    · intro p d hd l hl
      obtain ⟨-, ⟨rfl, rfl⟩ | ⟨rfl, rfl⟩⟩ := objectClassName_eq_some_iff.mp hd <;>
        cases hl <;> simp [insertObject, RLMObject.init, Nat.add_assoc]
    · constructor <;> simp [insertObject, Nat.add_assoc]
  exact ⟨u', ⟨run.of_restrict.reachable h.reachable, hw.trans h.inWriteTransaction,
    h.represents.congr ht⟩, hn, run, hh⟩

-- `realm.add(item)` for a new item.
theorem insert (h : Stores u r true) (hp : x.place = some place) (hc : x.contact = some contact) :
    Provides u r (r.insert x) true := by
  obtain ⟨v, hv, hn, run, hh⟩ := h.newItem x place contact
  have ht := (system_wellFormed hv.reachable).toTyped
  have ho : u.count + 2 < v.count := by omega
  have ha (l) (hl : Relation.ReflTransGen (Holds itemSchema v) (u.count + 2) l) : Accepts v l := by
    rcases (reaches_iff ht).mp hl with rfl | hl
    · exact accepts_init hh.item
    · exact (hh.accepts hl).left
  obtain ⟨w, hw⟩ : ∃ w, v.perform itemSchema (.add (u.count + 2)) = .ok w :=
    (addObject_ok_iff ht ho (Nat.lt_succ_self _)).mpr ⟨hv.inWriteTransaction, ha⟩
  have hs : (system itemSchema).Step v (.add (u.count + 2)) w := ⟨ho, hw⟩
  have hi : OnlyItems v (.add (u.count + 2)) :=
    ⟨by rw [hh.item]; rfl, fun l h => (hh.accepts h).right⟩
  have hg := (addObject_adds itemSchema _ ht hw).grows
  have he : v.edits (.add (u.count + 2)) = [.insert x] := by
    simp [edits, isUnmanaged_init hh.item, hh.ofObject hp hc]
  obtain ⟨ops, w', run', hw', he⟩ : Provides v r (r.insert x) true :=
    hv.step hs hi (hg.inWriteTransaction.trans hv.inWriteTransaction) (by rw [he]; rfl)
  refine ⟨_, w', run.append run', hw', ?_⟩
  rw [allEdits_append run.of_restrict, allEdits_eq_nil, List.nil_append, he]
  simp [LosTrouvee.newItem, Place.operation, Contact.operation, Item.operation]

-- `realm.delete(items[row])`
theorem erase (h : Stores u r true) (hx : r.find? k = some x) :
    Provides u r (r.erase k) true := by
  obtain ⟨i, hi⟩ := List.mem_iff_getElem?.mp (Realm.mem_objects_iff.mpr ⟨x, hx⟩)
  have hg : (system itemSchema).Step u (.get .item i) (u.createAccessor .item i) :=
    ⟨h.represents.lt_length hi, rfl⟩
  generalize hv : u.createAccessor .item i = v at hg
  obtain ⟨ht, hn, hw, hc, hr, hi'⟩ : v.tables = u.tables ∧ u.count < v.count ∧
      v.inWriteTransaction ∧ (v.objects u.count).className = .item ∧
      (v.objects u.count).realm = some .this ∧ (v.objects u.count).row = some i := by
    simp [← hv, createAccessor, insertObject, h.inWriteTransaction]
  have hs : Stores v r true := ⟨.step h.reachable hg, hw, h.represents.congr ht⟩
  obtain ⟨w, hd, hw'⟩ : ∃ w, (system itemSchema).Step v (.delete u.count) w ∧
      w.inWriteTransaction :=
    ⟨_, ⟨hn, deleteObject_eq_ok.mpr ⟨hr, hw, _, .inr ⟨i, hi', rfl⟩, rfl⟩⟩, hw⟩
  have he : v.edits (.delete u.count) = [.erase i] := by
    simp [edits, node?_of_managed hr hi', hc]
  obtain ⟨ops, w', run, hw', he⟩ : Provides v r (r.erase k) true :=
    hs.step hd hc hw' (by rw [he]; exact Realm.edit_erase hi)
  have ho : OnlyItems u (.get .item i) := trivial
  exact ⟨_, w', .step ⟨ho, hg⟩ run, hw', by rw [allEdits_cons hg.right]; exact he⟩

end Stores

end Store
end LosTrouvee
