import LosTrouvee.Objects.Unicode

namespace LosTrouvee

-- A point in time, in ticks of 10 ns since the reference date of `Date`.
abbrev Date := Int

inductive Category
  | pet
  | key
  | laptop
  | smartphone
  | wallet
  | handbag
  | clothes
  | jewellery
  | toy
  | picture
  | document
  | headphones
  | computeraccessory
  | game
  | identitycard
  | medication
  | food
  | book
  | tool
  | carraccessory
  | suitcase
  | backpack
  | other
  deriving DecidableEq, Repr

namespace Category

def rawValue : Category → String
  | pet               => "pet"
  | key               => "key"
  | laptop            => "laptop"
  | smartphone        => "smartphone"
  | wallet            => "wallet"
  | handbag           => "handbag"
  | clothes           => "clothes"
  | jewellery         => "jewellery"
  | toy               => "toy"
  | picture           => "picture"
  | document          => "document"
  | headphones        => "headphones"
  | computeraccessory => "computeraccessory"
  | game              => "game"
  | identitycard      => "identitycard"
  | medication        => "medication"
  | food              => "food"
  | book              => "book"
  | tool              => "tool"
  | carraccessory     => "carraccessory"
  | suitcase          => "suitcase"
  | backpack          => "backpack"
  | other             => "other"

def allCases : List Category :=
  [pet, key, laptop, smartphone, wallet, handbag, clothes, jewellery, toy, picture, document,
    headphones, computeraccessory, game, identitycard, medication, food, book, tool, carraccessory,
    suitcase, backpack, other]

-- `Category(rawValue:)`
def ofRawValue (s : String) : Option Category :=
  allCases.find? (·.rawValue == s)

theorem mem_allCases (c : Category) : c ∈ allCases := by
  cases c <;> decide

theorem rawValue_letters (c : Category) : Letters c.rawValue := by
  cases c <;> decide

theorem ofRawValue_rawValue (c : Category) : ofRawValue c.rawValue = some c := by
  cases c <;> decide

theorem rawValue_of_ofRawValue {s : String} {c : Category} (h : ofRawValue s = some c) :
    c.rawValue = s := by
  simpa using List.find?_some h

-- The title under which the category is offered to the user.
def title (c : Category) : String :=
  Unicode.capitalizedLetters c.rawValue

theorem title_letters (c : Category) : Letters c.title := by
  cases c <;> decide

theorem capitalized_rawValue [Unicode] (c : Category) :
    Unicode.capitalized c.rawValue = .ok c.title :=
  Unicode.capitalized_letters c.rawValue_letters

-- Changing the case of a title back gives the raw value.
theorem lowercased_title [Unicode] (c : Category) : Unicode.lowercased c.title = c.rawValue := by
  rw [Unicode.lowercased_letters _ c.title_letters]
  cases c <;> decide

end Category

structure Place where
  postalCode : String
  city       : String
  street     : String
  nr         : String := ""
  placeName  : String := ""
  deriving DecidableEq, Repr

structure Contact where
  firstname : String
  lastname  : String
  email     : String
  tel       : String := ""
  mobile    : String := ""
  deriving DecidableEq, Repr

-- The properties of an item. An unmanaged item holds its place and contact (`P = Place` and
-- `C = Contact`), a row of the Realm holds links to theirs.
structure Item (P C : Type) where
  title           : String
  itemDescription : String
  found           : Bool
  categoryRaw     : String
  place           : Option P
  contact         : Option C
  timestamp       : Date
  userEmail       : String
  timeAdded       : Date
  deriving DecidableEq, Repr

namespace Item

variable {P C : Type}

def category (item : Item P C) : Category :=
  (Category.ofRawValue item.categoryRaw).getD .other

-- The convenience initializer. `timeAdded` has `Date()` as its default value, so a caller that does
-- not give it passes the current time.
def init (title itemDescription : String) (found : Bool) (category : Category) (place : Place)
    (contact : Contact) (timestamp : Date) (userEmail : String) (timeAdded : Date) :
    Item Place Contact where
  title           := title
  itemDescription := itemDescription
  found           := found
  categoryRaw     := category.rawValue
  place           := some place
  contact         := some contact
  timestamp       := timestamp
  userEmail       := userEmail
  timeAdded       := timeAdded

end Item
end LosTrouvee
