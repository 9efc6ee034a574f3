import CrmQuery.Domain
import CrmQuery.Vocabulary.Entities
import CrmQuery.Vocabulary.Times

/-!
# Words for domains, intents and languages

The German and English words that tell the domain of a question (`Domain.patterns`) and its intent
(`Intent.patterns`).  Where words of several domains or intents occur, the first in `byPriority`
wins.  A question is in German if it contains one of the words of `Language.germanMarkers`, and in
English otherwise.
-/

namespace CrmQuery

open Pattern

/-- The German word for turnover, with its umlaut or without. -/
def turnover : Pattern := lit "ums" ++ among "aä" ++ lit "tz"

namespace Domain

/-- The domains in the order in which their words are looked for. -/
def byPriority : List Domain := [leads, revenue, bookings, contacts, analytics]

/-- The words for a domain. -/
def patterns : Domain → List Pattern
  | leads => [
      whole (lit "lead" ++ opt (lit "s")),
      whole (lit "interessenten"),
      whole (lit "prospect" ++ opt (lit "s"))]
  | revenue => [
      turnover,
      whole (lit "revenue"),
      whole (lit "einnahmen"),
      whole (lit "erl" ++ among "öo" ++ lit "s" ++ opt (lit "e")),
      whole (lit "sales"),
      whole (lit "income")]
  | bookings => [
      lit "buchung",
      whole (lit "booking" ++ opt (lit "s")),
      edge ++ lit "reservierung",
      whole (lit "reservation" ++ opt (lit "s"))]
  | contacts => [
      edge ++ lit "kontakt",
      whole (lit "contact" ++ opt (lit "s")),
      whole (lit "kunde" ++ opt (lit "n")),
      whole (lit "customer" ++ opt (lit "s"))]
  | analytics => [
      whole (lit "analytics"),
      edge ++ lit "statisti",
      whole (among "üu" ++ lit "bersicht"),
      whole (lit "overview"),
      whole (lit "dashboard"),
      whole (lit "kpi" ++ opt (lit "s")),
      whole (lit "kennzahlen"),
      whole (lit "performance")]
  | unknown => []

end Domain

namespace Intent

/-- The intents in the order in which their words are looked for. -/
def byPriority : List Intent := [count, sum, analyze, list]

/-- The words for an intent. -/
def patterns : Intent → List Pattern
  | count => [
      whole (phrase ["wie", "viele"]),
      whole (phrase ["how", "many"]),
      whole (lit "anzahl"),
      whole (lit "count"),
      whole (phrase ["number", "of"])]
  | sum => [
      whole (lit "summe"),
      whole (lit "sum"),
      whole (lit "total"),
      turnover,
      edge ++ lit "gesamt",
      whole (lit "revenue")]
  | analyze => [
      edge ++ lit "analy" ++ among "sz",
      edge ++ lit "statisti",
      whole (lit "performance"),
      whole (lit "trend" ++ opt (lit "s")),
      edge ++ lit "auswert"]
  | list => [
      edge ++ lit "zeig",
      edge ++ lit "anzeig",
      whole (lit "show"),
      edge ++ lit "list",
      whole (lit "display"),
      whole (lit "find" ++ opt (lit "e")),
      whole (phrase ["gib", "mir"]),
      whole (phrase ["give", "me"])]

end Intent

/-! ### Languages -/

/-- The languages of questions and explanations. -/
inductive Language where
  | de
  | en
  deriving DecidableEq, Repr

namespace Language

/-- Every language. -/
def all : List Language := [de, en]

/-- The code of a language. -/
def name : Language → String
  | de => "de"
  | en => "en"

/-- Words that occur in German questions only. -/
def germanMarkers : List Pattern := [
  whole (anyOf [
    lit "zeig" ++ opt (lit "e"), lit "wie", lit "viele", lit "der", lit "die", lit "das",
    lit "und", lit "aus", lit "mit", lit "alle", lit "mir", lit "von", lit "für",
    lit "letzte" ++ TimePhrase.ending, lit "heute", lit "gestern"]),
  whole (anyOf [
    lit "kontakte", lit "buchungen", lit "umsatz", lit "gesamtumsatz", lit "übersicht",
    lit "kennzahlen", lit "anzahl", lit "summe",
    lit "hei" ++ anyOf [lit "ß", lit "ss"] ++ lit "e" ++ TimePhrase.ending,
    lit "warme" ++ TimePhrase.ending, lit "kalte" ++ TimePhrase.ending, lit "über",
    lit "unter", lit "storniert" ++ opt (lit "e") ++ TimePhrase.ending])]

/-- The language of a normalised question. -/
def ofText (s : List Char) : Language := if anyOccurs germanMarkers s then de else en

end Language

end CrmQuery
