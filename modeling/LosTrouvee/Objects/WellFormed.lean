import LosTrouvee.Objects.Item
import LosTrouvee.Objects.Validation

namespace LosTrouvee

-- What the form demands of an item before it can be saved.

structure Place.WellFormed (place : Place) : Prop where
  street     : place.street ≠ ""
  postalCode : place.postalCode ≠ ""
  city       : place.city ≠ ""

structure Contact.WellFormed (contact : Contact) : Prop where
  firstname : contact.firstname ≠ ""
  lastname  : contact.lastname ≠ ""
  email     : Validation.selfMatches Validation.emailRegEx contact.email
  tel       : ∀ c ∈ contact.tel.toList, c.isDigit
  mobile    : ∀ c ∈ contact.mobile.toList, c.isDigit

structure Item.WellFormed (item : Item Place Contact) : Prop where
  title           : item.title ≠ ""
  itemDescription : item.itemDescription ≠ ""
  place           : ∃ place, item.place = some place ∧ place.WellFormed
  contact         : ∃ contact, item.contact = some contact ∧ contact.WellFormed
  categoryRaw     : ∃ category : Category, item.categoryRaw = category.rawValue

end LosTrouvee
