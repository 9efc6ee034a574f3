import CrmQuery.Filter
import CrmQuery.Vocabulary.Entities

/-!
# Statements

A `Statement` is a query over the tables of the customer data.  `Select` lists or sums up rows of
one table, to which the contacts may be joined; an overview is a list of single numbers.  Values
never occur in a statement: it refers to them by the number of a parameter, and number 1 is the
tenant.  `Statement.render` is the text, `Statement.tables` the tables that it reads.
-/

namespace CrmQuery.Sql

/-- The tables of the customer data. -/
inductive Table where
  | contacts
  | bookings
  deriving DecidableEq, Repr

namespace Table

/-- The name of a table. -/
def name : Table → String
  | contacts => "contacts"
  | bookings => "bookings"

/-- The short name by which columns refer to the table. -/
def shortName : Table → String
  | contacts => "c"
  | bookings => "b"

end Table

/-- A column of a table. -/
structure Column where
  table : Table
  name : String
  deriving DecidableEq, Repr

/-- A column after the short name of its table. -/
def Column.render (c : Column) : String := c.table.shortName ++ "." ++ c.name

/-- A reference to a parameter. -/
def placeholder (number : Nat) : String := "$" ++ toString number

/-- The number of the parameter that holds the tenant. -/
def tenantNumber : Nat := 1

/-- What one item of a result is computed from. -/
inductive Expression where
  | column (c : Column)
  | countRows
  | countDistinct (c : Column)
  /-- The number of rows whose value in a column lies in a band. -/
  | countWithin (c : Column) (band : ScoreBand)
  | sum (c : Column)
  /-- The average with so many places after the point. -/
  | average (c : Column) (places : Nat)
  /-- The value of a column, or of another one where it is missing. -/
  | firstPresent (c d : Column)
  deriving DecidableEq, Repr

/-- The range of a band. -/
def renderBand (band : ScoreBand) : String :=
  "BETWEEN " ++ toString band.low ++ " AND " ++ toString band.high

/-- The text of an expression. -/
def Expression.render : Expression → String
  | column c => c.render
  | countRows => "COUNT(*)"
  | countDistinct c => "COUNT(DISTINCT " ++ c.render ++ ")"
  | countWithin c band => "COUNT(*) FILTER (WHERE " ++ c.render ++ " " ++ renderBand band ++ ")"
  | sum c => "SUM(" ++ c.render ++ ")"
  | average c places => "ROUND(AVG(" ++ c.render ++ "), " ++ toString places ++ ")"
  | firstPresent c d => "COALESCE(" ++ c.render ++ ", " ++ d.render ++ ")"

/-- An item of a result, and its name if it has one of its own. -/
structure Item where
  expression : Expression
  label : Option String
  deriving DecidableEq, Repr

/-- The text of an item. -/
def Item.render (i : Item) : String :=
  i.expression.render ++ (match i.label with
    | some l => " AS " ++ l
    | none => "")

/-- The sign of a comparison. -/
def comparisonSign : Comparison → String
  | .eq => "="
  | .gte => ">="
  | .lte => "<="
  | .like => "ILIKE"

/-- A condition on the rows of a statement. -/
inductive Conjunct where
  /-- The row belongs to the tenant. -/
  | ofTenant (t : Table)
  /-- The booking is not cancelled. -/
  | notCancelled
  /-- A column compares with a parameter. -/
  | compare (c : Column) (comparison : Comparison) (number : Nat)
  /-- A column lies between a parameter and the next one. -/
  | between (c : Column) (number : Nat)
  deriving DecidableEq, Repr

/-- The text of a condition. -/
def Conjunct.render : Conjunct → String
  | ofTenant t => (Column.mk t "tenant_id").render ++ " = " ++ placeholder tenantNumber
  | notCancelled => (Column.mk .bookings "status").render ++ " != 'cancelled'"
  | compare c comparison number =>
    c.render ++ " " ++ comparisonSign comparison ++ " " ++ placeholder number
  | between c number =>
    c.render ++ " BETWEEN " ++ placeholder number ++ " AND " ++ placeholder (number + 1)

/-- What rows are ordered by, the greatest first. -/
inductive OrderKey where
  | column (c : Column)
  | label (name : String)
  deriving DecidableEq, Repr

/-- The text of an order. -/
def OrderKey.render : OrderKey → String
  | column c => c.render ++ " DESC"
  | label name => name ++ " DESC"

/-- Rows of one table, or numbers that sum them up. -/
structure Select where
  items : List Item
  base : Table
  /-- The contacts of the bookings are joined. -/
  joined : Bool
  conditions : List Conjunct
  groupBy : List Column
  orderBy : List OrderKey
  limit : Option Int
  deriving DecidableEq, Repr

/-- Lines with a comma after each but the last. -/
def commaLines (texts : List String) : String := ",\n  ".intercalate texts

/-- The items of a result; a single one stands on the first line. -/
def renderItems : List Item → String
  | [i] => "SELECT " ++ i.render
  | items => "SELECT\n  " ++ commaLines (items.map Item.render)

/-- The line that joins the contacts of the tenant to the bookings. -/
def joinLine : String :=
  "JOIN contacts AS c ON c.id = b.contact_id AND " ++ (Conjunct.ofTenant .contacts).render

/-- A list of texts after a keyword; nothing if the list is empty. -/
def clause (keyword separator : String) : List String → List String
  | [] => []
  | texts => [keyword ++ " " ++ separator.intercalate texts]

/-- The lines of the text. -/
def Select.lines (s : Select) : List String :=
  [renderItems s.items, "FROM " ++ s.base.name ++ " AS " ++ s.base.shortName] ++
  (if s.joined then [joinLine] else []) ++
  clause "WHERE" "\n  AND " (s.conditions.map Conjunct.render) ++
  clause "GROUP BY" ", " (s.groupBy.map Column.render) ++
  clause "ORDER BY" ", " (s.orderBy.map OrderKey.render) ++
  clause "LIMIT" "" (s.limit.toList.map toString)

/-- The tables that a selection reads. -/
def Select.tables (s : Select) : List Table :=
  s.base :: if s.joined then [.contacts] else []

/-- What a single number measures. -/
inductive Measure where
  | countRows
  /-- The sum of a column, zero if there are no rows. -/
  | sum (column : String)
  deriving DecidableEq, Repr

/-- The text of a measure. -/
def Measure.render : Measure → String
  | countRows => "COUNT(*)"
  | sum column => "COALESCE(SUM(" ++ column ++ "), 0)"

/-- A restriction of a single number besides the tenant. -/
inductive Restriction where
  | notCancelled
  | scoreWithin (band : ScoreBand)
  deriving DecidableEq, Repr

/-- The text of a restriction. -/
def Restriction.render : Restriction → String
  | notCancelled => "status != 'cancelled'"
  | scoreWithin band => "lead_score " ++ renderBand band

/-- A single number about the rows of the tenant in one table. -/
structure Figure where
  measure : Measure
  table : Table
  restrictions : List Restriction
  label : String
  deriving DecidableEq, Repr

/-- The text of a single number. -/
def Figure.render (f : Figure) : String :=
  let conditions :=
    ("tenant_id = " ++ placeholder tenantNumber) :: f.restrictions.map Restriction.render
  "(SELECT " ++ f.measure.render ++ " FROM " ++ f.table.name ++ " WHERE " ++
    " AND ".intercalate conditions ++ ") AS " ++ f.label

/-- A query over the customer data. -/
inductive Statement where
  | select (s : Select)
  | overview (figures : List Figure)
  deriving DecidableEq, Repr

namespace Statement

/-- The text of a statement. -/
def render : Statement → String
  | select s => "\n".intercalate s.lines
  | overview figures => "SELECT\n  " ++ commaLines (figures.map Figure.render)

/-- The tables that a statement reads, each of them once. -/
def tables : Statement → List Table
  | select s => s.tables
  | overview figures => (figures.map Figure.table).eraseDups

end Statement

end CrmQuery.Sql
