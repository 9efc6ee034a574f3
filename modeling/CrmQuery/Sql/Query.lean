import CrmQuery.Json.Writer
import CrmQuery.Text.Digit

/-!
# Queries

A `Query` is the text of a statement with the values of its parameters and with hints at how to show
the result.  The text refers to parameters by numbers after a dollar sign; the numbers that occur
are exactly those of the parameters (`Query.numbered`).
-/

namespace CrmQuery.Sql

open CrmQuery.Text

/-- The ways to show a result. -/
inductive Visualization where
  | table
  | chart
  | metrics
  | list
  deriving DecidableEq, Repr

namespace Visualization

/-- Every visualization. -/
def all : List Visualization := [table, chart, metrics, list]

/-- The name of a visualization. -/
def name : Visualization → String
  | table => "table"
  | chart => "chart"
  | metrics => "metrics"
  | list => "list"

end Visualization

/-! ### Parameter numbers -/

/-- The runs of digits right after a dollar sign. -/
def numberRuns : List Char → List (List Char)
  | [] => []
  | c :: rest =>
    let run := if c = '$' then rest.takeWhile isDigit else []
    if run.isEmpty then numberRuns rest else run :: numberRuns rest

/-- Put a number into an increasing list, unless it is there. -/
def insertNumber (n : Nat) : List Nat → List Nat
  | [] => [n]
  | m :: ms => if n < m then n :: m :: ms else if n = m then m :: ms else m :: insertNumber n ms

/-- The numbers of the parameters that a text refers to, in increasing order. -/
def parameterNumbers (sql : String) : Except NumeralTooLong (List Nat) :=
  ((numberRuns sql.toList).mapM readNumeral).map (·.foldr insertNumber [])

/-- Why a text and a list of values do not make a query. -/
inductive NumberingFault where
  | numeralTooLong (cause : NumeralTooLong)
  /-- The text refers to these parameters, and so many values are bound. -/
  | mismatch (numbers : List Nat) (values : Nat)
  deriving DecidableEq, Repr

/-- The explanation of a fault. -/
def NumberingFault.message : NumberingFault → String
  | numeralTooLong e => e.message
  | mismatch numbers values =>
    "SQL references placeholders [" ++ ", ".intercalate (numbers.map toString) ++ "] but " ++
      toString values ++ " params were bound"

/-- The text of a statement, the values of its parameters, and hints at how to show the result. -/
structure Query where
  sql : String
  params : List Json
  tables : List String
  visualization : Visualization
  expectedColumns : List String
  /-- The text refers to every parameter and to no other number. -/
  numbered : parameterNumbers sql = .ok (List.range' 1 params.length)

namespace Query

/-- The query of a text and its values, if the numbers in the text are those of the values. -/
def of (sql : String) (params : List Json) (tables : List String) (visualization : Visualization)
    (expectedColumns : List String) : Except NumberingFault Query :=
  match h : parameterNumbers sql with
  | .error e => .error (.numeralTooLong e)
  | .ok numbers =>
    if h' : numbers = List.range' 1 params.length then
      .ok ⟨sql, params, tables, visualization, expectedColumns, h' ▸ h⟩
    else .error (.mismatch numbers params.length)

/-- The number of parameters that the text refers to. -/
def placeholderCount (q : Query) : Nat :=
  match parameterNumbers q.sql with
  | .ok numbers => numbers.length
  | .error _ => 0

/-- The text refers to as many parameters as have values. -/
@[simp] theorem placeholderCount_eq (q : Query) : q.placeholderCount = q.params.length := by
  unfold placeholderCount
  rw [q.numbered]
  exact List.length_range'

/-- The fields of a query as JSON. -/
def fields (q : Query) : List (String × Json) := [
  ("sql", .string q.sql),
  ("params", .array q.params),
  ("tables", Json.strings q.tables),
  ("visualization_type", .string q.visualization.name),
  ("expected_columns", Json.strings q.expectedColumns)]

/-- A query as JSON, with the number of its parameters. -/
def toJson (q : Query) : Json :=
  .object (q.fields ++ [("placeholder_count", .int q.placeholderCount)])

end Query

end CrmQuery.Sql
