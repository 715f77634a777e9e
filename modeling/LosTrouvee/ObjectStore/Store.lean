import LosTrouvee.Library.Rows
import LosTrouvee.Objects.Swift

namespace LosTrouvee

-- The classes of a Realm with their persisted properties in order. A property with an
-- `objectClassName` is a link to an object of that class, every other one holds a plain value.
structure Schema (C P : Type) where
  properties      : C → List P
  objectClassName : C → P → Option C
  nodup           : ∀ c, (properties c).Nodup
  mem_properties  : ∀ {c p d}, objectClassName c p = some d → p ∈ properties c

-- The plain properties of an object as they are read.
def Schema.plain {C P V : Type} [DecidableEq P] [DecidableEq C] (schema : Schema C P) (c : C)
    (value : P → V) : C × (P → Option V) :=
  (c, fun p => if p ∈ schema.properties c ∧ schema.objectClassName c p = none
    then some (value p) else none)

inductive RLMException
  | notInWriteTransaction
  | alreadyInWriteTransaction
  | invalidatedObject
  | objectOfOtherRealm
  | observedObject
  | notInThisRealm
  -- Not an exception of Realm: the model runs out of steps.
  | outOfSteps
  deriving DecidableEq

-- The Realm of an object: the one at hand or another.
inductive RLMRealm
  | this
  | other
  deriving DecidableEq

-- A row of a table. A link column holds the index of a row of the table that it leads to.
structure Row (P V : Type) where
  value : P → V
  link  : P → Option Nat

-- An object of the program. The objects are numbered in the order in which they are made.
@[ext]
structure RLMObject (C P V : Type) where
  className  : C
  -- The class of the object is the `accessorClass` of its schema.
  isAccessor : Bool
  realm      : Option RLMRealm
  -- The index of the row that `_row` is attached to.
  row        : Option Nat
  -- The ivars of the properties.
  value      : P → V
  link       : P → Option Nat
  -- Its `_observationInfo` has observers.
  isObserved : Bool

namespace RLMObject

variable {C P V : Type}

def isInvalidated (object : RLMObject C P V) : Bool :=
  object.isAccessor && object.row.isNone

-- The object can be added to a Realm.
def isUnmanaged (object : RLMObject C P V) : Bool :=
  object.realm.isNone && !object.isInvalidated

theorem isUnmanaged_iff {object : RLMObject C P V} :
    object.isUnmanaged ↔ object.realm = none ∧ object.isInvalidated = false := by
  simp [isUnmanaged]

end RLMObject

-- A Realm file with a table for each class, and the objects of the program.
structure Store (C P V : Type) where
  tables             : C → List (Row P V)
  objects            : Nat → RLMObject C P V
  -- The number of objects that have been made.
  count              : Nat
  inWriteTransaction : Bool

namespace Store

variable {C P V : Type}

-- The row that an object is attached to.
def row? (s : Store C P V) (o : Nat) : Option (Row P V) :=
  (s.objects o).row.bind fun row => (s.tables (s.objects o).className)[row]?

-- `object->ivar = …`
def modifyObject (s : Store C P V) (o : Nat) (f : RLMObject C P V → RLMObject C P V) :
    Store C P V :=
  { s with objects := Function.update s.objects o (f (s.objects o)) }

@[simp]
theorem tables_modifyObject (s : Store C P V) (o : Nat) (f : RLMObject C P V → RLMObject C P V) :
    (s.modifyObject o f).tables = s.tables :=
  rfl

theorem objects_modifyObject (s : Store C P V) (o l : Nat)
    (f : RLMObject C P V → RLMObject C P V) :
    (s.modifyObject o f).objects l = if l = o then f (s.objects o) else s.objects l := by
  simp [modifyObject, Function.update_apply]

theorem row?_modifyObject {s : Store C P V} {o : Nat} {f : RLMObject C P V → RLMObject C P V}
    (hc : (f (s.objects o)).className = (s.objects o).className)
    (hr : (f (s.objects o)).row = (s.objects o).row) (l : Nat) :
    (s.modifyObject o f).row? l = s.row? l := by
  by_cases hl : l = o
  case pos => simp [row?, objects_modifyObject, hl, hc, hr]
  case neg => simp [row?, objects_modifyObject, hl]

variable [DecidableEq C]

-- `Table::add_empty_row`
def addEmptyRow [Inhabited V] (s : Store C P V) (c : C) : Store C P V :=
  let row : Row P V := { value := fun _ => default, link := fun _ => none }
  { s with tables := Function.update s.tables c (s.tables c ++ [row]) }

def modifyRow (s : Store C P V) (c : C) (row : Nat) (f : Row P V → Row P V) : Store C P V :=
  { s with tables := Function.update s.tables c ((s.tables c).modify row f) }

theorem length_modifyRow (s : Store C P V) (c d : C) (i : Nat) (f : Row P V → Row P V) :
    ((s.modifyRow c i f).tables d).length = (s.tables d).length := by
  by_cases h : d = c <;> simp [modifyRow, h]

theorem getElem?_modifyRow (s : Store C P V) (c d : C) (i j : Nat) (f : Row P V → Row P V) :
    ((s.modifyRow c i f).tables d)[j]? =
      if d = c ∧ j = i then (s.tables d)[j]?.map f else (s.tables d)[j]? := by
  by_cases h : d = c
  case neg => simp [modifyRow, h]
  case pos => by_cases hj : i = j <;> simp [modifyRow, h, hj, eq_comm]

theorem row?_modifyRow {s : Store C P V} {o i : Nat} {r : Row P V} (hr : s.row? o = some r)
    (hi : (s.objects o).row = some i) (f : Row P V → Row P V) :
    (s.modifyRow (s.objects o).className i f).row? o = some (f r) := by
  have hg := getElem?_modifyRow s (s.objects o).className (s.objects o).className i i f
  simp only [row?, hi, Option.bind_some] at hr
  simp only [and_self, if_true, hr, Option.map_some] at hg
  exact Option.bind_eq_some_iff.mpr ⟨i, hi, hg⟩

variable [DecidableEq P]

-- `Table::set`
def setValue (s : Store C P V) (c : C) (row : Nat) (p : P) (v : V) : Store C P V :=
  s.modifyRow c row fun r => { r with value := Function.update r.value p v }

-- `Table::set_link`, and `Table::nullify_link` where there is no target.
def setLink (s : Store C P V) (c : C) (row : Nat) (p : P) (target : Option Nat) : Store C P V :=
  s.modifyRow c row fun r => { r with link := Function.update r.link p target }

-- `Table::move_last_over`. Links to the row become null. The links and the accessors of the last
-- row follow it.
def moveLastOver (schema : Schema C P) (s : Store C P V) (c : C) (row : Nat) : Store C P V :=
  let moved := List.movedOver ((s.tables c).length - 1) row
  let relink (d : C) (r : Row P V) : Row P V :=
    { r with link := fun p => if schema.objectClassName d p = some c
        then (r.link p).bind moved else r.link p }
  let tables := Function.update s.tables c ((s.tables c).moveLastOver row)
  { s with
    tables  := fun d => (tables d).map (relink d)
    objects := fun o =>
      let object := s.objects o
      if object.className = c ∧ object.realm = some .this
      then { object with row := object.row.bind moved } else object }

end Store

open RLMException

variable {C P V : Type}

def RLMVerifyInWriteTransaction (s : Store C P V) : Except RLMException Unit :=
  if s.inWriteTransaction then .ok () else .error notInWriteTransaction

variable [DecidableEq C] [DecidableEq P]

namespace RLMAccessorContext

-- `RLMAccessorContext::unbox<RowExpr>` for a context that promotes objects. The link that is
-- returned is the row of the object.
def unbox (add : Nat → Store C P V → Except RLMException (Store C P V)) (className : C)
    (link : Nat) (s : Store C P V) : Except RLMException (Store C P V × Option Nat) :=
  let v := s.objects link
  if v.isInvalidated then .error invalidatedObject
  else if v.className ≠ className then .ok (s, v.row)
  else match v.realm with
    | none        => (fun s => (s, (s.objects link).row)) <$> add link s
    | some .other => .error objectOfOtherRealm
    | some .this  => .ok (s, v.row)

end RLMAccessorContext

namespace Object

-- `value_for_property` followed by `set_property_value_impl`. Reading a link for an object that is
-- promoted sets its ivar to nil.
def setPropertyValue (add : Nat → Store C P V → Except RLMException (Store C P V))
    (schema : Schema C P) (object : Nat) (c : C) (row : Nat) (s : Store C P V) (p : P) :
    Except RLMException (Store C P V) :=
  let value := s.objects object
  match schema.objectClassName c p with
  | none           => .ok (s.setValue c row p (value.value p))
  | some className =>
    let s := s.modifyObject object fun o => { o with link := Function.update o.link p none }
    match value.link p with
    | none      => .ok (s.setLink c row p none)
    | some link => do
      let (s, target) ← RLMAccessorContext.unbox add className link s
      .ok (s.setLink c row p target)

-- `Object::create` for a class without a primary key.
def create [Inhabited V] (add : Nat → Store C P V → Except RLMException (Store C P V))
    (schema : Schema C P) (object : Nat) (s : Store C P V) : Except RLMException (Store C P V) :=
  let c := (s.objects object).className
  let row := (s.tables c).length
  let s := s.addEmptyRow c
  let s := s.modifyObject object fun o => { o with row := some row }
  (schema.properties c).foldlM (setPropertyValue add schema object c row) s

end Object

-- Adding an object adds what it links to. `steps` bounds the depth of these additions.
def RLMAddObjectToRealm [Inhabited V] (schema : Schema C P) :
    Nat → Nat → Store C P V → Except RLMException (Store C P V)
  | 0, _, _ => .error outOfSteps
  | steps + 1, object, s => do
    RLMVerifyInWriteTransaction s
    let o := s.objects object
    if o.isInvalidated then .error invalidatedObject
    else match o.realm with
      | some .this  => .ok s
      | some .other => .error objectOfOtherRealm
      | none        =>
        if o.isObserved then .error observedObject
        else do
          let s := s.modifyObject object fun o => { o with realm := some .this }
          let s ← Object.create (RLMAddObjectToRealm schema steps) schema object s
          .ok (s.modifyObject object fun o => { o with isAccessor := true })

def RLMDeleteObjectFromRealm (schema : Schema C P) (object : Nat) (s : Store C P V) :
    Except RLMException (Store C P V) :=
  let o := s.objects object
  if o.realm ≠ some .this then .error notInThisRealm
  else do
    RLMVerifyInWriteTransaction s
    let s := match o.row with
      | some row => s.moveLastOver schema o.className row
      | none     => s
    .ok (s.modifyObject object fun o => { o with realm := none })

end LosTrouvee
