import CrmQuery.Json.Writer

/-!
# Filters

A `Filter` restricts one field of the customer data.  Its `Condition` holds one value, except that
`between` holds two.
-/

namespace CrmQuery

/-- A value that a field is compared with. -/
inductive Scalar where
  | int (value : Int)
  | float (value : Float)
  | text (value : String)
  deriving DecidableEq, Repr

/-- A value as JSON. -/
def Scalar.toJson : Scalar → Json
  | int i => .int i
  | float x => .float x
  | text s => .string s

/-- The kinds of conditions. -/
inductive Operator where
  | eq
  | gte
  | lte
  | between
  | like
  deriving DecidableEq, Repr

namespace Operator

/-- Every operator. -/
def all : List Operator := [eq, gte, lte, between, like]

/-- The name of an operator. -/
def name : Operator → String
  | eq => "eq"
  | gte => "gte"
  | lte => "lte"
  | between => "between"
  | like => "like"

end Operator

/-- Comparisons with a single value. -/
inductive Comparison where
  | eq
  | gte
  | lte
  | like
  deriving DecidableEq, Repr

/-- The operator of a comparison. -/
def Comparison.operator : Comparison → Operator
  | eq => .eq
  | gte => .gte
  | lte => .lte
  | like => .like

/-- A condition on the value of a field. -/
inductive Condition where
  | compare (comparison : Comparison) (value : Scalar)
  /-- The value lies in a range, both ends included. -/
  | between (low high : Scalar)
  deriving DecidableEq, Repr

namespace Condition

/-- The operator of a condition. -/
def operator : Condition → Operator
  | compare c _ => c.operator
  | between _ _ => .between

/-- The values of a condition in the order in which they are bound. -/
def values : Condition → List Scalar
  | compare _ v => [v]
  | between low high => [low, high]

end Condition

/-- A condition on a field. -/
structure Filter where
  field : String
  condition : Condition
  deriving DecidableEq, Repr

/-- A filter as JSON. -/
def Filter.toJson (f : Filter) : Json :=
  .object [
    ("field", .string f.field),
    ("operator", .string f.condition.operator.name),
    ("value", match f.condition with
      | .compare _ v => v.toJson
      | .between low high => .array [low.toJson, high.toJson])]

end CrmQuery
