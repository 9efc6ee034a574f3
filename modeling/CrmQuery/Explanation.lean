import CrmQuery.Decimal.Rounding
import CrmQuery.Json.Writer
import CrmQuery.Vocabulary.Topics

/-!
# Explanations

`explain` writes a message to the user in German or English.  A message has places for values; if a
value is missing, or if it is a text where a share is expected, a general message takes its place.
-/

namespace CrmQuery

/-- The occasions for a message. -/
inductive Occasion where
  | inputInvalid
  | unsupportedDomain
  | securityRejected
  | lowConfidence
  deriving DecidableEq, Repr

namespace Occasion

/-- Every occasion. -/
def all : List Occasion := [inputInvalid, unsupportedDomain, securityRejected, lowConfidence]

/-- The code of an occasion. -/
def code : Occasion → String
  | inputInvalid => "input_invalid"
  | unsupportedDomain => "unsupported_domain"
  | securityRejected => "security_rejected"
  | lowConfidence => "low_confidence"

end Occasion

/-- A piece of a message. -/
inductive MessagePart where
  | text (s : String)
  /-- The value of a given name. -/
  | value (name : String)
  /-- The value of a given name as a percentage. -/
  | percentage (name : String)
  deriving DecidableEq, Repr

/-- The message on an occasion. -/
def messageParts : Occasion → Language → List MessagePart
  | .inputInvalid, .de => [
      .text "Die Anfrage muss zwischen ", .value "min_len", .text " und ", .value "max_len",
      .text " Zeichen lang sein."]
  | .inputInvalid, .en => [
      .text "The question must be between ", .value "min_len", .text " and ", .value "max_len",
      .text " characters long."]
  | .unsupportedDomain, .de => [
      .text ("Ich konnte die Frage keinem Bereich zuordnen. Fragen Sie nach Leads, " ++
        "Kontakten, Buchungen, Umsatz oder einer Übersicht.")]
  | .unsupportedDomain, .en => [
      .text ("I could not match the question to a known area. Ask about leads, " ++
        "contacts, bookings, revenue, or an overview.")]
  | .securityRejected, .de => [
      .text "Die Anfrage konnte aus Sicherheitsgründen nicht ausgeführt werden."]
  | .securityRejected, .en => [
      .text "The request could not be processed for security reasons."]
  | .lowConfidence, .de => [
      .text "Möglicherweise nicht das, was Sie meinten (Sicherheit ", .percentage "confidence",
      .text ")."]
  | .lowConfidence, .en => [
      .text "Possibly not what you meant (confidence ", .percentage "confidence", .text ")."]

/-- The message that fits every occasion. -/
def generalMessage : Language → String
  | .de => "Die Anfrage konnte nicht verarbeitet werden."
  | .en => "The request could not be processed."

/-- Why a value cannot be put into a message. -/
inductive ExplanationFault where
  | missing
  /-- A text is no share. -/
  | textAsShare
  /-- An integer beyond the range of doubles. -/
  | hugeInteger
  /-- A value of a kind that has no percentage at all. -/
  | noShare (kind : String)
  deriving DecidableEq, Repr

/-- The explanation of a fault. -/
def ExplanationFault.message : ExplanationFault → String
  | missing => "missing value"
  | textAsShare => "Unknown format code '%' for object of type 'str'"
  | hugeInteger => "int too large to convert to float"
  | noShare kind => "unsupported format string passed to " ++ kind ++ ".__format__"

/-- A value as a percentage. -/
def percentage : Json → Except ExplanationFault String
  | .float x => .ok (percentText x)
  | .int i =>
    let x := Float.ofInt i
    if x.isFinite then .ok (percentText x) else .error .hugeInteger
  | .bool b => .ok (percentText (if b then 1 else 0))
  | .string _ => .error .textAsShare
  | .null => .error (.noShare "NoneType")
  | .array _ => .error (.noShare "list")
  | .object _ => .error (.noShare "dict")

/-- The value of a name. -/
def lookupValue (values : List (String × Json)) (name : String) : Except ExplanationFault Json :=
  match values.lookup name with
  | some v => .ok v
  | none => .error .missing

/-- A piece of a message with its value put in. -/
def MessagePart.render (values : List (String × Json)) :
    MessagePart → Except ExplanationFault String
  | text s => .ok s
  | value name => (lookupValue values name).map Json.display
  | percentage name => lookupValue values name >>= CrmQuery.percentage

/-- A message with its values put in. -/
def renderParts (values : List (String × Json)) (parts : List MessagePart) :
    Except ExplanationFault String :=
  (parts.mapM (MessagePart.render values)).map String.join

/-- The message on an occasion, the general one where there is no such occasion or a value does not
fit. -/
def explain (occasion : Option Occasion) (language : Language) (values : List (String × Json)) :
    Except ExplanationFault String :=
  match occasion with
  | none => .ok (generalMessage language)
  | some o =>
    match renderParts values (messageParts o language) with
    | .ok s => .ok s
    | .error .missing => .ok (generalMessage language)
    | .error .textAsShare => .ok (generalMessage language)
    | .error e => .error e

/-- The language of a message for a language that was asked for: German by its name, else
English. -/
def Language.ofRequest (name : Option String) : Language :=
  (name.bind (named? all Language.name)).getD .en

/-- The message on an occasion whose values are known to fit. -/
def Occasion.message (o : Occasion) (language : Language) (values : List (String × Json)) :
    String :=
  (explain (some o) language values).toOption.getD (generalMessage language)

end CrmQuery
