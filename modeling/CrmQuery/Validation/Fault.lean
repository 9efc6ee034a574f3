import CrmQuery.Calendar.Iso
import CrmQuery.Json.Writer

/-!
# Faults of data

Checking a JSON value against the form that is expected yields the value of that form or a list of
every `Fault` in it (`Checked`).  A fault has a path to the place where it was found, and a kind
with a code and an explanation.
-/

namespace CrmQuery

/-- A step from a value to a part of it. -/
inductive Step where
  | key (name : String)
  | index (n : Nat)
  deriving DecidableEq, Repr

/-- A step as JSON. -/
def Step.toJson : Step → Json
  | key name => .string name
  | index n => .int n

/-- What can be wrong with a value. -/
inductive FaultKind where
  | missing
  | notInt
  | notFloat
  | notString
  /-- Not an array in a JSON text. -/
  | notArray
  /-- Not a list of values. -/
  | notList
  | notObject
  /-- Not an object with the fields of a record. -/
  | notRecord
  /-- A request without fields. -/
  | noFields
  | malformedInt
  | oversizedInt
  | fractionalInt
  | infiniteInt
  | malformedFloat
  /-- Not one of the names of an enumeration. -/
  | notNamed (names : List String)
  /-- Not one of a few fixed texts. -/
  | notLiteral (texts : List String)
  | below (bound : Nat)
  | above (bound : Nat)
  /-- The field that tells the variant is missing. -/
  | noTag (field : String)
  | unknownTag (field tag : String) (tags : List String)
  | notMoment
  | malformedMoment (cause : DateFault)
  | momentOutOfRange (cause : DateFault)
  | tooShort (least : Nat)
  | tooLong (most : Nat)
  | malformedJson
  /-- The parts do not go together. -/
  | inconsistent (explanation : String)
  deriving DecidableEq, Repr

/-- Quoted alternatives, the last after the word or. -/
def alternatives : List String → String
  | [] => ""
  | [a] => "'" ++ a ++ "'"
  | [a, b] => "'" ++ a ++ "' or '" ++ b ++ "'"
  | a :: rest => "'" ++ a ++ "', " ++ alternatives rest

/-- A number of characters. -/
def characters (n : Nat) : String := toString n ++ (if n = 1 then " character" else " characters")

namespace FaultKind

/-- The code of a fault. -/
def code : FaultKind → String
  | missing => "missing"
  | notInt => "int_type"
  | notFloat => "float_type"
  | notString => "string_type"
  | notArray | notList => "list_type"
  | notObject => "dict_type"
  | notRecord => "model_type"
  | noFields => "model_attributes_type"
  | malformedInt => "int_parsing"
  | oversizedInt => "int_parsing_size"
  | fractionalInt => "int_from_float"
  | infiniteInt => "finite_number"
  | malformedFloat => "float_parsing"
  | notNamed _ => "enum"
  | notLiteral _ => "literal_error"
  | below _ => "greater_than_equal"
  | above _ => "less_than_equal"
  | noTag _ => "union_tag_not_found"
  | unknownTag _ _ _ => "union_tag_invalid"
  | notMoment => "datetime_type"
  | malformedMoment _ => "datetime_from_date_parsing"
  | momentOutOfRange _ => "datetime_parsing"
  | tooShort _ => "string_too_short"
  | tooLong _ => "string_too_long"
  | malformedJson => "json_invalid"
  | inconsistent _ => "value_error"

/-- The explanation of a fault. -/
def message : FaultKind → String
  | missing => "Field required"
  | notInt => "Input should be a valid integer"
  | notFloat => "Input should be a valid number"
  | notString => "Input should be a valid string"
  | notArray => "Input should be a valid array"
  | notList => "Input should be a valid list"
  | notObject | notRecord => "Input should be an object"
  | noFields => "Input should be a valid dictionary or object to extract fields from"
  | malformedInt => "Input should be a valid integer, unable to parse string as an integer"
  | oversizedInt => "Unable to parse input string as an integer, exceeded maximum size"
  | fractionalInt => "Input should be a valid integer, got a number with a fractional part"
  | infiniteInt => "Input should be a finite number"
  | malformedFloat => "Input should be a valid number, unable to parse string as a number"
  | notNamed names => "Input should be " ++ alternatives names
  | notLiteral texts => "Input should be " ++ alternatives texts
  | below bound => "Input should be greater than or equal to " ++ toString bound
  | above bound => "Input should be less than or equal to " ++ toString bound
  | noTag field => "Unable to extract tag using discriminator '" ++ field ++ "'"
  | unknownTag field tag tags =>
    "Input tag '" ++ tag ++ "' found using '" ++ field ++
      "' does not match any of the expected tags: " ++
      ", ".intercalate (tags.map fun t => "'" ++ t ++ "'")
  | notMoment => "Input should be a valid datetime"
  | malformedMoment e => "Input should be a valid datetime or date, " ++ e.message
  | momentOutOfRange e => "Input should be a valid datetime, " ++ e.message
  | tooShort least => "String should have at least " ++ characters least
  | tooLong most => "String should have at most " ++ characters most
  | malformedJson => "JSON decode error"
  | inconsistent explanation => "Value error, " ++ explanation

end FaultKind

/-- Something wrong with a part of a value. -/
structure Fault where
  path : List Step
  kind : FaultKind
  deriving DecidableEq, Repr

/-- A fault as JSON. -/
def Fault.toJson (f : Fault) : Json :=
  .object [
    ("loc", .array (f.path.map Step.toJson)),
    ("type", .string f.kind.code),
    ("msg", .string f.kind.message)]

/-- A value of the expected form, or all faults of what was found instead. -/
abbrev Checked (α : Type) := Except (List Fault) α

namespace Checked

/-- A single fault of the value itself. -/
def fault {α : Type} (kind : FaultKind) : Checked α := .error [⟨[], kind⟩]

/-- The result for a part, seen from the whole. -/
def under {α : Type} (step : Step) (r : Checked α) : Checked α :=
  r.mapError (·.map fun f => { f with path := step :: f.path })

/-- Both results, or the faults of both. -/
def both {α β : Type} : Checked α → Checked β → Checked (α × β)
  | .ok a, .ok b => .ok (a, b)
  | .ok _, .error e => .error e
  | .error e, .ok _ => .error e
  | .error e, .error e' => .error (e ++ e')

/-- Check all items of a list, the first of them being number `n`. -/
def each {α β : Type} (check : α → Checked β) : Nat → List α → Checked (List β)
  | _, [] => .ok []
  | n, a :: rest =>
    (both (under (.index n) (check a)) (each check (n + 1) rest)).map fun r => r.1 :: r.2

/-- Check a field that has to be there. -/
def required {α : Type} (key : String) (check : Json → Checked α) (record : Json) : Checked α :=
  under (.key key) (match record.field? key with
    | none => fault .missing
    | some v => check v)

/-- Check a field that may be left out. -/
def optional {α : Type} (key : String) (default : α) (check : Json → Checked α)
    (record : Json) : Checked α :=
  under (.key key) (match record.field? key with
    | none => .ok default
    | some v => check v)

end Checked

end CrmQuery
