import CrmQuery.Filter
import CrmQuery.Question.Budget
import CrmQuery.Vocabulary.Entities

/-!
# The entities of a question

`Entities` holds what a question names besides its domain and intent; `Entities.filters` are the
filters that follow from it in a domain.
-/

namespace CrmQuery

open Pattern

/-- The first member of a family with a word in the text. -/
def firstNamed? {α : Type} (family : List α) (patterns : α → List Pattern) (s : List Char) :
    Option α :=
  family.find? fun a => anyOccurs (patterns a) s

/-- The things that a question names. -/
structure Entities where
  leadStatus : Option LeadStatus
  country : Option Country
  budget : Option Budget
  bookingStatus : Option BookingStatus
  deriving DecidableEq, Repr

namespace Entities

/-- The things that a normalised question names. -/
def ofText (s : List Char) : Except Text.NumeralTooLong Entities := do
  let budget ← Budget.ofText? s
  return {
    leadStatus := firstNamed? LeadStatus.all LeadStatus.patterns s
    country := firstNamed? Country.all Country.patterns s
    budget := budget
    bookingStatus := firstNamed? BookingStatus.all BookingStatus.patterns s }

/-- The entities as fields of an object; what is not named has no field. -/
def fields (e : Entities) : List (String × Json) :=
  (e.leadStatus.map fun a => ("leadStatus", .string a.name)).toList ++
  (e.country.map fun a => ("country", .string a.key)).toList ++
  (e.budget.map fun a => ("budgetAmount", .int a.amount)).toList ++
  (e.bookingStatus.map fun a => ("bookingStatus", .string a.name)).toList

/-- The range of lead scores that is asked for; an overview is never restricted to one. -/
def scoreFilter? (e : Entities) (domain : Domain) : Option Filter :=
  if domain = .analytics then none
  else e.leadStatus.map fun a =>
    ⟨"lead_score", .between (.int a.band.low) (.int a.band.high)⟩

/-- The country that is asked for. -/
def countryFilter? (e : Entities) : Option Filter :=
  e.country.map fun a => ⟨"country", .compare .eq (.text a.display)⟩

/-- The budget that is asked for, a lower bound unless it is called an upper one. -/
def budgetFilter? (e : Entities) : Option Filter :=
  e.budget.map fun a =>
    ⟨"budget_max", .compare (if a.bound = some .atMost then .lte else .gte) (.int a.amount)⟩

/-- The state of bookings that is asked for; it matters for bookings only. -/
def statusFilter? (e : Entities) (domain : Domain) : Option Filter :=
  if domain = .bookings then
    e.bookingStatus.map fun a => ⟨"status", .compare .eq (.text a.name)⟩
  else none

/-- The filters that follow from the entities in a domain. -/
def filters (e : Entities) (domain : Domain) : List Filter :=
  (e.scoreFilter? domain).toList ++ e.countryFilter?.toList ++ e.budgetFilter?.toList ++
    (e.statusFilter? domain).toList

end Entities

end CrmQuery
