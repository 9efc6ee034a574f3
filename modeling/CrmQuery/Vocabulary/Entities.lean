import CrmQuery.Domain
import CrmQuery.Pattern.Basic

/-!
# Words for countries and states of leads and bookings

Besides the words (`patterns`) a `Country` has the name under which contacts are filed, and a
`LeadStatus` the band of lead scores that it stands for.
-/

namespace CrmQuery

open Pattern

/-- The countries that questions are understood to name. -/
inductive Country where
  | germany
  | switzerland
  | austria
  | turkey
  deriving DecidableEq, Repr

namespace Country

/-- The countries in the order in which their words are looked for. -/
def all : List Country := [germany, switzerland, austria, turkey]

/-- The key under which a country is reported. -/
def key : Country → String
  | germany => "deutschland"
  | switzerland => "schweiz"
  | austria => "österreich"
  | turkey => "türkei"

/-- The name under which contacts are filed. -/
def display : Country → String
  | germany => "Germany"
  | switzerland => "Switzerland"
  | austria => "Austria"
  | turkey => "Turkey"

/-- The name of the country with a given key; any other key is its own name. -/
def displayOfKey (s : String) : String := ((named? all key s).map display).getD s

/-- The words for a country and its people. -/
def patterns : Country → List Pattern
  | germany => [
      whole (lit "deutschland"),
      whole (lit "germany"),
      whole (lit "deutsche" ++ opt (among "nmr")),
      whole (lit "german")]
  | switzerland => [
      whole (lit "schweiz"),
      whole (lit "schweizer"),
      whole (lit "switzerland"),
      whole (lit "swiss")]
  | austria => [
      whole (anyOf [lit "österreich", lit "oesterreich"]),
      whole (lit "österreichische" ++ opt (among "nmr")),
      whole (lit "austria"),
      whole (lit "austrian")]
  | turkey => [
      whole (anyOf [lit "türkei", lit "tuerkei"]),
      whole (lit "türkiye"),
      whole (lit "turkey"),
      whole (lit "turkish")]

end Country

/-- How likely a contact is to buy. -/
inductive LeadStatus where
  | hot
  | warm
  | cold
  deriving DecidableEq, Repr

/-- A range of lead scores, both ends included. -/
structure ScoreBand where
  low : Int
  high : Int
  deriving DecidableEq, Repr

/-- The inflected form of a German adjective: the stem, and an ending that may be missing. -/
def inflected (stem : Pattern) : Pattern := stem ++ opt (lit "e") ++ opt (among "nmrs")

namespace LeadStatus

/-- The states in the order in which their words are looked for. -/
def all : List LeadStatus := [hot, warm, cold]

/-- The name of a state of leads. -/
def name : LeadStatus → String
  | hot => "hot"
  | warm => "warm"
  | cold => "cold"

/-- The lead scores of a state. -/
def band : LeadStatus → ScoreBand
  | hot => ⟨70, 100⟩
  | warm => ⟨40, 69⟩
  | cold => ⟨0, 39⟩

/-- The band of the state with a given name. -/
def bandNamed? (s : String) : Option ScoreBand := (named? all name s).map band

/-- The words for a state. -/
def patterns : LeadStatus → List Pattern
  | hot => [
      whole (inflected (lit "hei" ++ anyOf [lit "ß", lit "ss"])),
      whole (lit "hot"),
      edge ++ phrase ["sehr", "interessiert"]]
  | warm => [
      whole (inflected (lit "warm")),
      edge ++ lit "interessiert",
      whole (lit "interested")]
  | cold => [
      whole (inflected (lit "kalt")),
      whole (lit "cold"),
      edge ++ lit "uninteressiert"]

end LeadStatus

/-- The states of a booking. -/
inductive BookingStatus where
  | cancelled
  | confirmed
  | pending
  | completed
  deriving DecidableEq, Repr

namespace BookingStatus

/-- The states in the order in which their words are looked for. -/
def all : List BookingStatus := [cancelled, confirmed, pending, completed]

/-- The name of a state of bookings. -/
def name : BookingStatus → String
  | cancelled => "cancelled"
  | confirmed => "confirmed"
  | pending => "pending"
  | completed => "completed"

/-- The words for a state. -/
def patterns : BookingStatus → List Pattern
  | cancelled => [
      edge ++ lit "storniert",
      whole (lit "cancel" ++ opt (lit "l") ++ lit "ed"),
      edge ++ lit "abgesagt",
      edge ++ lit "refund"]
  | confirmed => [
      edge ++ lit "bestätigt",
      whole (lit "confirmed"),
      whole (lit "gebucht")]
  | pending => [
      whole (lit "pending"),
      edge ++ lit "wartend",
      whole (lit "offen" ++ opt (lit "e") ++ opt (among "nmr"))]
  | completed => [
      edge ++ lit "abgeschlossen",
      whole (lit "completed")]

end BookingStatus

end CrmQuery
