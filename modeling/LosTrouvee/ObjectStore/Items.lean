import LosTrouvee.Objects.Item
import LosTrouvee.ObjectStore.Operations

namespace LosTrouvee

-- The classes that the app keeps in its Realm.
inductive ClassName
  | item
  | place
  | contact
  deriving DecidableEq

inductive PropertyName
  | title
  | itemDescription
  | found
  | categoryRaw
  | place
  | contact
  | timestamp
  | userEmail
  | timeAdded
  | postalCode
  | city
  | street
  | nr
  | placeName
  | firstname
  | lastname
  | email
  | tel
  | mobile
  deriving DecidableEq

inductive PropertyValue
  | string (s : String)
  | bool (b : Bool)
  | date (d : Date)
  deriving DecidableEq

namespace PropertyValue

-- The value that an empty row holds until it is written to.
instance : Inhabited PropertyValue where
  default := .string ""

-- Swift's types exclude the other cases.
def asString : Option PropertyValue → String
  | some (.string s) => s
  | _                => ""

def asBool : Option PropertyValue → Bool
  | some (.bool b) => b
  | _              => false

def asDate : Option PropertyValue → Date
  | some (.date d) => d
  | _              => 0

end PropertyValue

abbrev ItemStore :=
  Store ClassName PropertyName PropertyValue

abbrev ItemOperation :=
  Operation ClassName PropertyName PropertyValue

namespace ClassName

def properties : ClassName → List PropertyName
  | item    => [.title, .itemDescription, .found, .categoryRaw, .place, .contact, .timestamp,
    .userEmail, .timeAdded]
  | place   => [.postalCode, .city, .street, .nr, .placeName]
  | contact => [.firstname, .lastname, .email, .tel, .mobile]

def objectClassName : ClassName → PropertyName → Option ClassName
  | item, .place   => some place
  | item, .contact => some contact
  | _, _           => none

end ClassName

-- The persisted properties of `Item`, `Place` and `Contact`.
def itemSchema : Schema ClassName PropertyName where
  properties           := ClassName.properties
  objectClassName      := ClassName.objectClassName
  nodup c              := by cases c <;> decide
  mem_properties {c p} := by
    cases c <;> cases p <;> simp [ClassName.objectClassName, ClassName.properties]

-- Only items have links.
theorem objectClassName_eq_some_iff {c d : ClassName} {p : PropertyName} :
    itemSchema.objectClassName c p = some d ↔
      c = .item ∧ (p = .place ∧ d = .place ∨ p = .contact ∧ d = .contact) := by
  cases c <;> cases p <;> simp [itemSchema, ClassName.objectClassName, eq_comm]

theorem objectClassName_inj {c d : ClassName} {p q : PropertyName}
    (hp : itemSchema.objectClassName c p = some d) (hq : itemSchema.objectClassName c q = some d) :
    p = q := by
  rw [objectClassName_eq_some_iff] at hp hq
  rcases hp.right with ⟨rfl, rfl⟩ | ⟨rfl, rfl⟩ <;> simp_all

-- The properties of an object as they are read.
abbrev Properties := PropertyName → Option PropertyValue

namespace Place

def values (place : Place) : PropertyName → PropertyValue
  | .postalCode => .string place.postalCode
  | .city       => .string place.city
  | .street     => .string place.street
  | .nr         => .string place.nr
  | .placeName  => .string place.placeName
  | _           => default

def ofObject : ClassName × Properties → Option Place
  | (.place, properties) => some {
      postalCode := PropertyValue.asString (properties .postalCode)
      city       := PropertyValue.asString (properties .city)
      street     := PropertyValue.asString (properties .street)
      nr         := PropertyValue.asString (properties .nr)
      placeName  := PropertyValue.asString (properties .placeName) }
  | _ => none

-- The initializer
def operation (place : Place) : ItemOperation :=
  .init .place place.values fun _ => none

theorem ofObject_plain (place : Place) :
    ofObject (itemSchema.plain .place place.values) = some place :=
  rfl

end Place

namespace Contact

def values (contact : Contact) : PropertyName → PropertyValue
  | .firstname => .string contact.firstname
  | .lastname  => .string contact.lastname
  | .email     => .string contact.email
  | .tel       => .string contact.tel
  | .mobile    => .string contact.mobile
  | _          => default

def ofObject : ClassName × Properties → Option Contact
  | (.contact, properties) => some {
      firstname := PropertyValue.asString (properties .firstname)
      lastname  := PropertyValue.asString (properties .lastname)
      email     := PropertyValue.asString (properties .email)
      tel       := PropertyValue.asString (properties .tel)
      mobile    := PropertyValue.asString (properties .mobile) }
  | _ => none

-- The initializer
def operation (contact : Contact) : ItemOperation :=
  .init .contact contact.values fun _ => none

theorem ofObject_plain (contact : Contact) :
    ofObject (itemSchema.plain .contact contact.values) = some contact :=
  rfl

end Contact

namespace Item

variable {P C : Type}

def values (item : Item P C) : PropertyName → PropertyValue
  | .title           => .string item.title
  | .itemDescription => .string item.itemDescription
  | .found           => .bool item.found
  | .categoryRaw     => .string item.categoryRaw
  | .timestamp       => .date item.timestamp
  | .userEmail       => .string item.userEmail
  | .timeAdded       => .date item.timeAdded
  | _                => default

-- The item that is read by way of an object and its links.
def ofObject (read : List PropertyName → Option (ClassName × Properties)) :
    Option (Item Place Contact) :=
  match read [] with
  | some (.item, properties) => some {
      title           := PropertyValue.asString (properties .title)
      itemDescription := PropertyValue.asString (properties .itemDescription)
      found           := PropertyValue.asBool (properties .found)
      categoryRaw     := PropertyValue.asString (properties .categoryRaw)
      place           := read [.place] >>= Place.ofObject
      contact         := read [.contact] >>= Contact.ofObject
      timestamp       := PropertyValue.asDate (properties .timestamp)
      userEmail       := PropertyValue.asString (properties .userEmail)
      timeAdded       := PropertyValue.asDate (properties .timeAdded) }
  | _ => none

def link (place contact : Nat) : PropertyName → Option Nat
  | .place   => some place
  | .contact => some contact
  | _        => none

-- The initializer, for the place and the contact with these numbers
def operation (item : Item P C) (place contact : Nat) : ItemOperation :=
  .init .item item.values (link place contact)

theorem ofObject_plain {read : List PropertyName → Option (ClassName × Properties)}
    {item : Item Place Contact} (h : read [] = some (itemSchema.plain .item item.values))
    (hp : read [.place] >>= Place.ofObject = item.place)
    (hc : read [.contact] >>= Contact.ofObject = item.contact) : ofObject read = some item := by
  rw [ofObject, h, hp, hc]
  rfl

end Item

namespace Store

-- A new Realm file.
def empty : ItemStore where
  tables _           := []
  objects _          := .init .item (fun _ => default) fun _ => none
  count              := 0
  inWriteTransaction := false

theorem opened_empty : Opened itemSchema empty where
  count              := rfl
  inWriteTransaction := rfl
  objects _          := ⟨rfl, rfl, fun _ => rfl⟩
  rowLink h          := by simp [empty] at h

end Store

-- A new item with its place and contact, where `count` is the number of objects so far.
def newItem (count : Nat) (item : Item Place Contact) (place : Place) (contact : Contact) :
    List ItemOperation :=
  [place.operation, contact.operation, item.operation count (count + 1)]

-- Somebody posts an item that has been lost.
def postItem (count : Nat) (title : String) : List ItemOperation :=
  let place := { postalCode := "9000", city := "Gent", street := "Veldstraat" }
  let contact := { firstname := "Ann", lastname := "Peeters", email := "ann@los.be" }
  let item := Item.init title "" false .key place contact 0 "ann@los.be" 0
  newItem count item place contact ++ [.beginWrite, .add (count + 2), .commitWrite]

-- `realm.write { realm.delete(items[row]) }`
def deleteItem (count row : Nat) : List ItemOperation :=
  [.get .item row, .beginWrite, .delete count, .commitWrite]

end LosTrouvee
