import CrmQuery.Json.Writer
import CrmQuery.Sql.Query
import CrmQuery.Vocabulary.Topics

/-!
# Capabilities

`capabilities` describes what the engine understands and how it can answer, with examples in every
language.
-/

namespace CrmQuery

/-- Questions that are understood. -/
def Language.examples : Language → List String
  | de => [
      "Zeige mir alle heißen Leads aus Deutschland der letzten Woche",
      "Wie viele Buchungen hatten wir diesen Monat?",
      "Gesamtumsatz der letzten 30 Tage",
      "Kontakte aus Österreich mit Budget über 3000 Euro",
      "Übersicht der wichtigsten Kennzahlen"]
  | en => [
      "Show me all hot leads from Germany from last week",
      "How many bookings did we have this month?",
      "Total revenue for the last 30 days",
      "Contacts from Switzerland with a budget above 2000 euros",
      "Give me an overview of our KPIs"]

/-- What the engine understands, as the fields of an object. -/
def capabilities : List (String × Json) := [
  ("supported_languages", Json.strings (Language.all.map Language.name)),
  ("query_types", Json.strings ((Domain.all.filter (· != .unknown)).map Domain.name)),
  ("intents", Json.strings (Intent.all.map Intent.name)),
  ("visualization_types", Json.strings (Sql.Visualization.all.map Sql.Visualization.name)),
  ("examples", .object (Language.all.map fun l => (l.name, Json.strings l.examples)))]

/-- What is said about the service. -/
def Api.capabilitiesJson : Json :=
  .object ([
    ("service", .string "Natural Language Query Interface"),
    ("status", .string "operational")] ++ capabilities)

end CrmQuery
