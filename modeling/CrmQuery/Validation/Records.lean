import CrmQuery.Classification
import CrmQuery.Sql.Query
import CrmQuery.Validation.Lenient

/-!
# Reading records from JSON

`Filter.ofJson`, `Timeframe.ofJson`, `Classification.ofJson` and `Query.ofJson` check a JSON value
and build the record that it describes.  Unknown fields are ignored.
-/

namespace CrmQuery

open Checked

/-- Check that a value has fields, and go on with it. -/
def record {α : Type} (check : Json → Checked α) (v : Json) : Checked α :=
  match v with
  | .object _ => check v
  | _ => fault .notRecord

/-! ### Filters -/

/-- A single value or a list of values. -/
inductive OneOrMany where
  | one (value : Scalar)
  | many (values : List Scalar)

/-- The faults of a value that is neither an integer nor a number nor a text. -/
def notScalar : List Fault := [
  ⟨[.key "int"], .notInt⟩, ⟨[.key "float"], .notFloat⟩, ⟨[.key "str"], .notString⟩]

/-- A number or a text; truth values count as one and zero. -/
def Scalar.ofJson : Json → Checked Scalar
  | .int i => .ok (.int i)
  | .float x => .ok (.float x)
  | .string s => .ok (.text s)
  | .bool b => .ok (.int (Lenient.ofBool b))
  | _ => .error notScalar

/-- The step to the list among the alternatives for the value of a filter. -/
def listAlternative : Step := .key "list[union[int,float,str]]"

/-- The value of a filter; the faults of a value that fits none of the alternatives are those of
each of them. -/
def OneOrMany.ofJson (v : Json) : Checked OneOrMany :=
  match Scalar.ofJson v with
  | .ok a => .ok (one a)
  | .error e =>
    match under listAlternative (Lenient.list .notArray Scalar.ofJson v) with
    | .ok as => .ok (many as)
    | .error e' => .error (e ++ e')

/-- The comparison of an operator, if it takes a single value. -/
def Operator.comparison? : Operator → Option Comparison
  | eq => some .eq
  | gte => some .gte
  | lte => some .lte
  | like => some .like
  | between => none

/-- A condition, if the operator takes so many values. -/
def Condition.of (operator : Operator) (value : OneOrMany) : Checked Condition :=
  match operator.comparison?, value with
  | some c, .one v => .ok (.compare c v)
  | some _, .many _ =>
    fault (.inconsistent ("'" ++ operator.name ++ "' filters take a single value"))
  | none, .many [low, high] => .ok (.between low high)
  | none, _ => fault (.inconsistent "'between' filters need exactly two values")

/-- The filter that a value describes. -/
def Filter.ofJson : Json → Checked Filter := record fun v => do
  let (field, operator, value) ←
    both (required "field" Lenient.string v)
      (both (required "operator" (Lenient.named Operator.all Operator.name) v)
        (required "value" OneOrMany.ofJson v))
  return ⟨field, ← Condition.of operator value⟩

/-! ### Timeframes -/

/-- A number of units, at least one. -/
def positiveCount (v : Json) : Checked { n : Nat // 0 < n } := do
  let i ← Lenient.int v
  if h : 1 ≤ i then return ⟨i.toNat, by omega⟩ else fault (.below 1)

/-- The window of so many units that a value describes. -/
def RelativeWindow.ofJson (v : Json) : Checked RelativeWindow := do
  let ((period, count), start, stop) ←
    both
      (both (required "period" (Lenient.literal Period.all Period.name) v)
        (required "count" positiveCount v))
      (both (required "start" Lenient.moment v) (required "end" Lenient.moment v))
  return ⟨period, count.1, count.2, start, stop⟩

/-- The window between two moments that a value describes. -/
def Timeframe.absoluteOfJson (v : Json) : Checked Timeframe := do
  let (start, stop) ← both (required "start" Lenient.moment v) (required "end" Lenient.moment v)
  return .absolute start stop

/-- The timeframe that a value describes; its field `type` tells the variant. -/
def Timeframe.ofJson (v : Json) : Checked Timeframe := do
  let fields ← Lenient.fields v
  match fields.lookup "type" with
  | none => fault (.noTag "type")
  | some (.string "relative") =>
    under (.key "relative") ((RelativeWindow.ofJson v).map .relative)
  | some (.string "absolute") => under (.key "absolute") (Timeframe.absoluteOfJson v)
  | some tag => fault (.unknownTag "type" tag.display ["relative", "absolute"])

/-! ### Classifications -/

/-- A number between zero and one. -/
def share (v : Json) : Checked Float := do
  let x ← Lenient.float v
  if x > 1 then fault (.above 1)
  else if x < 0 then fault (.below 0)
  else return x

/-- The classification that a value describes. -/
def Classification.ofJson : Json → Checked Classification := record fun v => do
  let (((domain, intent), entities, filters), (timeframe, aggregation), confidence, language) ←
    both
      (both
        (both (required "domain" (Lenient.named Domain.all Domain.name) v)
          (optional "intent" .list (Lenient.named Intent.all Intent.name) v))
        (both (optional "entities" [] Lenient.fields v)
          (optional "filters" [] (Lenient.list .notArray Filter.ofJson) v)))
      (both
        (both (optional "timeframe" none (Lenient.nullable Timeframe.ofJson) v)
          (optional "aggregation" none
            (Lenient.nullable (Lenient.named Aggregation.all Aggregation.name)) v))
        (both (required "confidence" share v)
          (optional "language" .de (Lenient.literal Language.all Language.name) v)))
  return {
    domain := domain
    intent := intent
    entities := entities
    filters := filters
    timeframe := timeframe
    aggregation := aggregation
    confidence := confidence
    language := language }

/-! ### Queries -/

namespace Sql.Query

/-- The query that the fields of a value describe; what is no list is a fault of the given kind. -/
def ofFields (kind : FaultKind) (v : Json) : Checked Query := do
  let ((sql, params), tables, visualization, columns) ←
    both
      (both (required "sql" Lenient.string v)
        (optional "params" [] (Lenient.list kind Lenient.any) v))
      (both (optional "tables" [] (Lenient.list kind Lenient.string) v)
        (both (required "visualization_type" (Lenient.named Visualization.all Visualization.name) v)
          (optional "expected_columns" [] (Lenient.list kind Lenient.string) v)))
  (Query.of sql params tables visualization columns).mapError fun e =>
    [⟨[], .inconsistent e.message⟩]

/-- The query that a value describes. -/
def ofJson : Json → Checked Query := record (ofFields .notArray)

end Sql.Query

end CrmQuery
