import LosTrouvee.Library.Table
import LosTrouvee.Objects.Item

namespace LosTrouvee

abbrev Key := Nat

-- The objects of the Realm: a table for each class. A link to a row that is deleted becomes `nil`,
-- so every link leads to a row.
structure Realm where
  items    : Table (Item Key Key)
  places   : Table Place
  contacts : Table Contact
  placeLinks : ∀ {k row p}, items.find? k = some row → row.place = some p →
    ∃ place, places.find? p = some place
  contactLinks : ∀ {k row c}, items.find? k = some row → row.contact = some c →
    ∃ contact, contacts.find? c = some contact

-- An `Item` object of the program is managed by the Realm, i.e. it stands for one of its rows, or
-- it has not been added to it yet.
inductive ItemObject
  | managed (key : Key)
  | unmanaged (item : Item Place Contact)
  deriving DecidableEq

namespace Realm

variable {r r' : Realm} {k : Key} {x y : Item Place Contact}

def empty : Realm where
  items        := .empty
  places       := .empty
  contacts     := .empty
  placeLinks   := by simp
  contactLinks := by simp

-- `objects(Item.self)`
def objects (r : Realm) : List Key :=
  r.items.keys

-- The item of a row with its links followed.
def resolve (r : Realm) (row : Item Key Key) : Item Place Contact where
  title           := row.title
  itemDescription := row.itemDescription
  found           := row.found
  categoryRaw     := row.categoryRaw
  place           := row.place.bind r.places.find?
  contact         := row.contact.bind r.contacts.find?
  timestamp       := row.timestamp
  userEmail       := row.userEmail
  timeAdded       := row.timeAdded

def find? (r : Realm) (k : Key) : Option (Item Place Contact) :=
  r.items.find? k |>.map r.resolve

-- Reading a property of an object whose row was deleted raises an exception.
def read (r : Realm) (k : Key) : Except Trap (Item Place Contact) :=
  match r.find? k with
  | some x => .ok x
  | none   => .error .invalidObject

-- The row of an item whose place and contact are stored under the given links.
def row (item : Item Place Contact) (place contact : Option Key) : Item Key Key where
  title           := item.title
  itemDescription := item.itemDescription
  found           := item.found
  categoryRaw     := item.categoryRaw
  place           := place
  contact         := contact
  timestamp       := item.timestamp
  userEmail       := item.userEmail
  timeAdded       := item.timeAdded

-- Adding an item adds its place and its contact.
def insert (r : Realm) (item : Item Place Contact) : Realm where
  items    := r.items.insert <|
    row item (r.places.insert? item.place).2 (r.contacts.insert? item.contact).2
  places   := (r.places.insert? item.place).1
  contacts := (r.contacts.insert? item.contact).1
  placeLinks := by
    intro k x p hx hp
    by_cases hk : k = r.items.nextKey
    case pos =>
      subst hk
      simp only [Table.find?_insert, Function.update_self, Option.some.injEq] at hx
      subst hx
      cases hi : item.place <;> simp_all [row, Table.insert?, Table.find?_insert]
    case neg =>
      simp only [Table.find?_insert, Function.update_of_ne hk] at hx
      exact (r.placeLinks hx hp).imp fun _ => Table.insert?_preserves
  contactLinks := by
    intro k x c hx hc
    by_cases hk : k = r.items.nextKey
    case pos =>
      subst hk
      simp only [Table.find?_insert, Function.update_self, Option.some.injEq] at hx
      subst hx
      cases hi : item.contact <;> simp_all [row, Table.insert?, Table.find?_insert]
    case neg =>
      simp only [Table.find?_insert, Function.update_of_ne hk] at hx
      exact (r.contactLinks hx hc).imp fun _ => Table.insert?_preserves

def add (r : Realm) : ItemObject → Except Trap (Realm × Key)
  | .managed k      => if (r.find? k).isSome then .ok (r, k) else .error .invalidObject
  | .unmanaged item => .ok (r.insert item, r.items.nextKey)

-- Deleting an item deletes its row and nothing else.
def erase (r : Realm) (k : Key) : Realm where
  items    := r.items.erase k
  places   := r.places
  contacts := r.contacts
  placeLinks := by
    intro j x p hx hp
    by_cases hj : j = k <;> simp_all [Table.find?_erase]
    exact r.placeLinks hx hp
  contactLinks := by
    intro j x p hx hp
    by_cases hj : j = k <;> simp_all [Table.find?_erase]
    exact r.contactLinks hx hp

def delete (r : Realm) : ItemObject → Except Trap Realm
  | .managed k   => if (r.find? k).isSome then .ok (r.erase k) else .error .invalidObject
  | .unmanaged _ => .error .invalidObject

@[simp]
theorem read_eq_ok : r.read k = .ok x ↔ r.find? k = some x := by
  rw [read]
  split <;> simp_all

theorem mem_objects_iff : k ∈ r.objects ↔ ∃ x, r.find? k = some x := by
  simp [objects, find?, Table.mem_keys_iff]

theorem objects_nodup (r : Realm) : r.objects.Nodup :=
  r.items.keys_nodup

@[simp]
theorem find?_empty (k : Key) : empty.find? k = none :=
  rfl

theorem find?_nextKey (r : Realm) : r.find? r.items.nextKey = none := by
  simp [find?]

theorem find?_insert (r : Realm) (x : Item Place Contact) :
    (r.insert x).find? = Function.update r.find? r.items.nextKey (some x) := by
  funext k
  by_cases hk : k = r.items.nextKey
  case pos =>
    subst hk
    simp [find?, insert, Table.find?_insert, resolve, row, Table.insert?_link]
  case neg =>
    simp only [find?, insert, Table.find?_insert, Function.update_of_ne hk]
    cases hx : r.items.find? k
    case none => rfl
    case some x =>
      simp only [Option.map_some, Option.some.injEq, resolve, Item.mk.injEq, true_and, and_true]
      constructor
      · cases hp : x.place
        case none => rfl
        case some =>
          have ⟨_, h⟩ := r.placeLinks hx hp
          simp [h, Table.insert?_preserves h]
      · cases hc : x.contact
        case none => rfl
        case some =>
          have ⟨_, h⟩ := r.contactLinks hx hc
          simp [h, Table.insert?_preserves h]

theorem find?_erase (r : Realm) (k : Key) :
    (r.erase k).find? = Function.update r.find? k none := by
  funext j
  by_cases hj : j = k
  case pos => simp [find?, erase, Table.find?_erase, hj]
  case neg =>
    simp only [find?, erase, Table.find?_erase, Function.update_of_ne hj]
    rfl

theorem ne_nextKey (h : (r.find? k).isSome) : k ≠ r.items.nextKey := by
  rintro rfl
  simp [find?_nextKey] at h

theorem find?_insert_of_isSome (x : Item Place Contact) (h : (r.find? k).isSome) :
    (r.insert x).find? k = r.find? k := by
  rw [find?_insert, Function.update_of_ne (ne_nextKey h)]

theorem find?_erase_of_ne {j : Key} (h : j ≠ k) : (r.erase k).find? j = r.find? j := by
  rw [find?_erase, Function.update_of_ne h]

theorem find?_erase_of_some (j : Key) (h : r.find? k = some x) :
    (r.erase j).find? k = some x ∨ (r.erase j).find? k = none := by
  by_cases hk : k = j <;> simp [find?_erase, hk, h]

theorem find?_insert_of_some (y : Item Place Contact) (h : r.find? k = some x) :
    (r.insert y).find? k = some x := by
  rw [find?_insert_of_isSome y (by simp [h]), h]

@[simp]
theorem erase_nextKey (r : Realm) (k : Key) : (r.erase k).items.nextKey = r.items.nextKey :=
  rfl

theorem add_unmanaged_eq_ok {key : Key} :
    r.add (.unmanaged x) = .ok (r', key) ↔ r.insert x = r' ∧ r.items.nextKey = key := by
  simp [add]

theorem delete_eq_ok {o : ItemObject} :
    r.delete o = .ok r' ↔ ∃ k x, o = .managed k ∧ r.find? k = some x ∧ r.erase k = r' := by
  cases o <;> simp [delete]
  split <;> simp_all [Option.isSome_iff_exists]

-- The objects that a tab is for.
def Shows (r : Realm) (found : Bool) (k : Key) : Prop :=
  ∃ x, r.find? k = some x ∧ x.found = found

variable {found : Bool}

theorem shows_iff (h : r.find? k = some x) : r.Shows found k ↔ x.found = found := by
  simp [Shows, h]

theorem shows_erase_iff {j : Key} : (r.erase k).Shows found j ↔ r.Shows found j ∧ j ≠ k := by
  by_cases h : j = k <;> simp [Shows, find?_erase, h]

theorem shows_insert_iff {j : Key} :
    (r.insert y).Shows found j ↔ r.Shows found j ∨ j = r.items.nextKey ∧ y.found = found := by
  by_cases h : j = r.items.nextKey
  case pos => simp [Shows, find?_insert, h, find?_nextKey]
  case neg => simp [Shows, find?_insert, h]

end Realm
end LosTrouvee
