import LosTrouvee.Objects.Realm

namespace LosTrouvee

-- The texts of a cell. The two date labels hold the dates they format.
structure ItemTableViewCell where
  titleLabel       : String
  dateAddedLabel   : Date
  categoryLabel    : String
  descriptionLabel : String
  timestampLabel   : Date
  placeLabel       : String
  deriving DecidableEq

namespace ItemTableViewCell

def formatPlace (place : Place) : String :=
  let placeString :=
    if !place.placeName.isEmpty then place.placeName else place.street ++ " " ++ place.nr
  placeString ++ " " ++ place.city

variable [Unicode]

def update (item : Item Place Contact) : Except Trap ItemTableViewCell := do
  let place ← unwrap item.place
  return {
    titleLabel       := item.title
    dateAddedLabel   := item.timeAdded
    categoryLabel    := Unicode.uppercased item.category.rawValue
    descriptionLabel := item.itemDescription
    timestampLabel   := item.timestamp
    placeLabel       := formatPlace place }

-- Filling a cell fails for an item without a place only.
theorem update_eq_error_iff {item : Item Place Contact} {t : Trap} :
    update item = .error t ↔ item.place = none ∧ t = .unexpectedNil := by
  cases h : item.place <;> simp [update, h, unwrap, bind, Except.bind, pure, Except.pure, eq_comm]

end ItemTableViewCell
end LosTrouvee
