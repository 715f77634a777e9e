import LosTrouvee.Library.TransitionSystem
import LosTrouvee.ObjectStore.Store

namespace LosTrouvee

open RLMException

-- What a program does with a Realm and its objects.
inductive Operation (C P V : Type)
  | beginWrite
  | commitWrite
  -- An initializer
  | init (className : C) (value : P → V) (link : P → Option Nat)
  -- The setters of an object that has not been added to a Realm
  | setValue (object : Nat) (p : P) (v : V)
  | setLink (object : Nat) (p : P) (link : Option Nat)
  | add (object : Nat)
  | delete (object : Nat)
  -- An element of `objects(_:)` or the target of a link
  | get (className : C) (row : Nat)

-- An object as an initializer leaves it.
def RLMObject.init {C P V : Type} (className : C) (value : P → V) (link : P → Option Nat) :
    RLMObject C P V where
  className  := className
  isAccessor := false
  realm      := none
  row        := none
  value      := value
  link       := link
  isObserved := false

namespace Store

variable {C P V : Type} [DecidableEq C] [DecidableEq P] [Inhabited V]

def insertObject (s : Store C P V) (object : RLMObject C P V) : Store C P V :=
  { s with objects := Function.update s.objects s.count object, count := s.count + 1 }

def beginTransaction (s : Store C P V) : Except RLMException (Store C P V) :=
  if s.inWriteTransaction then .error alreadyInWriteTransaction
  else .ok { s with inWriteTransaction := true }

def commitTransaction (s : Store C P V) : Except RLMException (Store C P V) :=
  if s.inWriteTransaction then .ok { s with inWriteTransaction := false }
  else .error notInWriteTransaction

-- `RLMCreateObjectAccessor`
def createAccessor (s : Store C P V) (className : C) (row : Nat) : Store C P V :=
  s.insertObject {
    className  := className
    isAccessor := true
    realm      := some .this
    row        := some row
    value      := (s.objects s.count).value
    link       := fun _ => none
    isObserved := false }

def perform (schema : Schema C P) (s : Store C P V) :
    Operation C P V → Except RLMException (Store C P V)
  | .beginWrite                => s.beginTransaction
  | .commitWrite               => s.commitTransaction
  | .init className value link => .ok <| s.insertObject (.init className value link)
  | .setValue object p v       => .ok <| s.modifyObject object fun o =>
      { o with value := Function.update o.value p v }
  | .setLink object p link     => .ok <| s.modifyObject object fun o =>
      { o with link := Function.update o.link p link }
  | .add object                => RLMAddObjectToRealm schema (s.count + 1) object s
  | .delete object             => RLMDeleteObjectFromRealm schema object s
  | .get className row         => .ok <| s.createAccessor className row

-- An object that Swift's types allow as the value of a property.
def Fits (schema : Schema C P) (s : Store C P V) (c : C) (p : P) (link : Option Nat) : Prop :=
  ∀ d ∈ schema.objectClassName c p, ∀ l ∈ link, (s.objects l).className = d ∧ l < s.count

-- A program only uses objects that it has, and values of the right type.
def Allows (schema : Schema C P) (s : Store C P V) : Operation C P V → Prop
  | .beginWrite            => True
  | .commitWrite           => True
  | .init className _ link => ∀ p, s.Fits schema className p (link p)
  | .setValue object _ _   => object < s.count ∧ (s.objects object).isUnmanaged
  | .setLink object p link => object < s.count ∧ (s.objects object).isUnmanaged ∧
    s.Fits schema (s.objects object).className p link
  | .add object            => object < s.count
  | .delete object         => object < s.count
  | .get className row     => row < (s.tables className).length

instance (schema : Schema C P) (s : Store C P V) (c : C) (p : P) (link : Option Nat) :
    Decidable (s.Fits schema c p link) :=
  inferInstanceAs (Decidable (∀ d ∈ schema.objectClassName c p, ∀ l ∈ link,
    (s.objects l).className = d ∧ l < s.count))

-- Only the properties of the class can be links.
instance (schema : Schema C P) (s : Store C P V) (c : C) (link : P → Option Nat) :
    Decidable (∀ p, s.Fits schema c p (link p)) :=
  decidable_of_iff (∀ p ∈ schema.properties c, s.Fits schema c p (link p))
    ⟨fun h p d hd => h p (schema.mem_properties hd) d hd, fun h p _ => h p⟩

instance (schema : Schema C P) (s : Store C P V) : DecidablePred (s.Allows schema)
  | .beginWrite            => inferInstanceAs (Decidable True)
  | .commitWrite           => inferInstanceAs (Decidable True)
  | .init className _ link =>
    inferInstanceAs (Decidable (∀ p, s.Fits schema className p (link p)))
  | .setValue object _ _   =>
    inferInstanceAs (Decidable (object < s.count ∧ (s.objects object).isUnmanaged))
  | .setLink object p link =>
    inferInstanceAs (Decidable (object < s.count ∧ (s.objects object).isUnmanaged ∧
      s.Fits schema (s.objects object).className p link))
  | .add object            => inferInstanceAs (Decidable (object < s.count))
  | .delete object         => inferInstanceAs (Decidable (object < s.count))
  | .get className row     => inferInstanceAs (Decidable (row < (s.tables className).length))

-- A Realm file as a program without objects opens it.
structure Opened (schema : Schema C P) (s : Store C P V) : Prop where
  count              : s.count = 0
  inWriteTransaction : s.inWriteTransaction = false
  objects : ∀ o, (s.objects o).isAccessor = false ∧ (s.objects o).realm = none ∧
    ∀ p, (s.objects o).link p = none
  rowLink : ∀ {c d p} {i j : Nat} {r}, (s.tables c)[i]? = some r →
    schema.objectClassName c p = some d → r.link p = some j → j < (s.tables d).length

def system (schema : Schema C P) : TransitionSystem (Store C P V) (Operation C P V) where
  Init       := Opened schema
  Step s e s' := Allows schema s e ∧ s.perform schema e = .ok s'

end Store
end LosTrouvee
