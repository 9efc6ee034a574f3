/-!
# Domains and intents

A question is about one `Domain` of the customer data and asks for it with one `Intent`.
-/

namespace CrmQuery

/-- The member of a list that has a given name. -/
def named? {α : Type} (all : List α) (name : α → String) (s : String) : Option α :=
  all.find? fun a => name a == s

/-- The areas of the customer data. -/
inductive Domain where
  | leads
  | bookings
  | revenue
  | contacts
  | analytics
  | unknown
  deriving DecidableEq, Repr

namespace Domain

/-- Every domain. -/
def all : List Domain := [leads, bookings, revenue, contacts, analytics, unknown]

/-- The name of a domain. -/
def name : Domain → String
  | leads => "leads"
  | bookings => "bookings"
  | revenue => "revenue"
  | contacts => "contacts"
  | analytics => "analytics"
  | unknown => "unknown"

/-- The domain of a given name. -/
def ofName? (s : String) : Option Domain := named? all name s

end Domain

/-- What a question asks for. -/
inductive Intent where
  | list
  | count
  | sum
  | analyze
  deriving DecidableEq, Repr

namespace Intent

/-- Every intent. -/
def all : List Intent := [list, count, sum, analyze]

/-- The name of an intent. -/
def name : Intent → String
  | list => "list"
  | count => "count"
  | sum => "sum"
  | analyze => "analyze"

end Intent

/-- How the rows of an answer are put together. -/
inductive Aggregation where
  | count
  | sum
  deriving DecidableEq, Repr

namespace Aggregation

/-- Every aggregation. -/
def all : List Aggregation := [count, sum]

/-- The name of an aggregation. -/
def name : Aggregation → String
  | count => "count"
  | sum => "sum"

end Aggregation

/-- The aggregation that an intent asks for. -/
def Intent.aggregation? : Intent → Option Aggregation
  | .count => some .count
  | .sum => some .sum
  | .list | .analyze => none

end CrmQuery
