import CrmQuery.Classification
import CrmQuery.Settings
import CrmQuery.Sql.Query
import CrmQuery.Sql.Statement
import CrmQuery.Validation.Fault

/-!
# Compiling classifications

`compile` turns a classification into a query for one tenant.  Every domain has fixed statements;
filters and the timeframe become conditions on allowed columns, and their values become parameters
after the tenant, in the order in which they occur.
-/

namespace CrmQuery.Sql

/-- Why a classification cannot be compiled. -/
inductive BuildFault where
  | unsupportedDomain (d : Domain)
  | unknownField (field : String)
  | unavailableField (field : String)
  /-- The parts of the query do not go together. -/
  | invalidQuery (faults : List Fault)
  | invalidSettings (faults : List Fault)
  deriving DecidableEq, Repr

/-- The explanation of a fault. -/
def BuildFault.message : BuildFault → String
  | unsupportedDomain d => "Cannot build a query for domain '" ++ d.name ++ "'"
  | unknownField field => "Unknown filter field '" ++ field ++ "'"
  | unavailableField field => "Filter field '" ++ field ++ "' is not available for this query"
  | invalidQuery faults | invalidSettings faults =>
    "\n".intercalate (faults.map (·.kind.message))

/-! ### Parameters -/

/-- The values bound so far, the first of them being number 1. -/
structure Binder where
  params : List Json

namespace Binder

/-- Bind a value; the number of its parameter comes with it. -/
def bind (b : Binder) (value : Json) : Nat × Binder :=
  (b.params.length + 1, ⟨b.params ++ [value]⟩)

end Binder

/-! ### Conditions -/

/-- The fields of contacts that filters may restrict. -/
def contactFields : List String := [
  "country", "lead_score", "budget_min", "budget_max", "city", "source", "email", "first_name",
  "last_name"]

/-- The fields of bookings that filters may restrict. -/
def bookingFields : List String := ["status", "total_amount", "currency"]

/-- The table that a field belongs to. -/
def fieldTable? (field : String) : Option Table :=
  if contactFields.contains field then some .contacts
  else if bookingFields.contains field then some .bookings
  else none

/-- The column of a field, if its table is among those that the statement reads. -/
def columnOf (field : String) (available : List Table) : Except BuildFault Column :=
  match fieldTable? field with
  | none => .error (.unknownField field)
  | some t => if t ∈ available then .ok ⟨t, field⟩ else .error (.unavailableField field)

/-- The condition of a filter on its column, with its values bound. -/
def compileCondition (c : Column) (condition : Condition) (b : Binder) : Conjunct × Binder :=
  match condition with
  | .compare comparison value =>
    let (n, b) := b.bind value.toJson
    (.compare c comparison n, b)
  | .between low high =>
    let (n, b) := b.bind low.toJson
    let (_, b) := b.bind high.toJson
    (.between c n, b)

/-- The conditions of filters, each with its values bound after those of the filters before it. -/
def compileFilters (available : List Table) :
    List Filter → Binder → Except BuildFault (List Conjunct × Binder)
  | [], b => .ok ([], b)
  | f :: rest, b => do
    let c ← columnOf f.field available
    let (conjunct, b) := compileCondition c f.condition b
    let (conjuncts, b) ← compileFilters available rest b
    return (conjunct :: conjuncts, b)

/-- The conditions of a timeframe on the rows of a table. -/
def compileTimeframe (t : Table) (timeframe : Option Timeframe) (b : Binder) :
    List Conjunct × Binder :=
  match timeframe with
  | none => ([], b)
  | some w =>
    let (n, b) := b.bind (.string w.start.isoText)
    let (m, b) := b.bind (.string w.stop.isoText)
    let c : Column := ⟨t, "created_at"⟩
    ([.compare c .gte n, .compare c .lte m], b)

/-! ### Statements of the domains -/

/-- What a statement shows of the rows that its conditions leave. -/
structure Shape where
  items : List Item
  groupBy : List Column
  orderBy : List OrderKey
  limited : Bool
  visualization : Visualization
  columns : List String

/-- A number with a name. -/
def metric (e : Expression) (label : String) : Item := ⟨e, some label⟩

/-- A column under its own name. -/
def plain (c : Column) : Item := ⟨.column c, none⟩

/-- A column of contacts. -/
def contact (name : String) : Column := ⟨.contacts, name⟩

/-- A column of bookings. -/
def booking (name : String) : Column := ⟨.bookings, name⟩

/-- Named numbers over all rows. -/
def metrics (items : List (Expression × String)) : Shape :=
  { items := items.map fun i => metric i.1 i.2
    groupBy := []
    orderBy := []
    limited := false
    visualization := .metrics
    columns := items.map (·.2) }

/-- The rows themselves, in a given order. -/
def rows (items : List Item) (orderBy : List Column) (columns : List String) : Shape :=
  { items := items
    groupBy := []
    orderBy := orderBy.map .column
    limited := true
    visualization := .table
    columns := columns }

/-- The number of leads in each state. -/
def leadCounts : List (Expression × String) :=
  LeadStatus.all.map fun s => (.countWithin (contact "lead_score") s.band, s.name ++ "_leads")

/-- What is shown of leads. -/
def leadShape : Intent → Shape
  | .count => metrics [(.countRows, "total_leads")]
  | .sum | .analyze =>
    metrics ([(.countRows, "total_leads")] ++ leadCounts ++
      [(.average (contact "lead_score") 1, "avg_lead_score")])
  | .list =>
    rows
      (["id", "first_name", "last_name", "email", "phone", "country", "city", "lead_score",
          "budget_min", "budget_max", "source", "created_at"].map (plain ∘ contact) ++
        [metric (.firstPresent (contact "last_activity_at") (contact "created_at"))
          "last_activity"])
      [contact "lead_score", contact "created_at"]
      ["first_name", "last_name", "email", "lead_score", "country", "last_activity"]

/-- What is shown of contacts. -/
def contactShape : Intent → Shape
  | .count => metrics [(.countRows, "total_contacts")]
  | .sum | .analyze =>
    metrics [
      (.countRows, "total_contacts"),
      (.countDistinct (contact "country"), "countries"),
      (.average (contact "budget_max") 2, "avg_budget_max")]
  | .list =>
    rows
      (["id", "first_name", "last_name", "email", "phone", "country", "city", "budget_min",
        "budget_max", "source", "created_at"].map (plain ∘ contact))
      [contact "created_at"]
      ["first_name", "last_name", "email", "country", "budget_max"]

/-- What is shown of bookings. -/
def bookingShape : Intent → Shape
  | .count => metrics [(.countRows, "total_bookings")]
  | .sum | .analyze =>
    metrics [
      (.countRows, "total_bookings"),
      (.sum (booking "total_amount"), "total_amount"),
      (.average (booking "total_amount") 2, "avg_booking_value")]
  | .list =>
    rows
      ((["id", "booking_reference"].map booking ++
        ["first_name", "last_name", "email"].map contact ++
        ["total_amount", "currency", "status", "booking_date", "check_in", "check_out",
          "created_at"].map booking).map plain)
      [booking "created_at"]
      ["first_name", "last_name", "total_amount", "status", "booking_date"]

/-- What is shown of revenue: its amounts in each currency. -/
def revenueShape : Shape :=
  { items := [
      metric (.sum (booking "total_amount")) "total_revenue",
      metric .countRows "booking_count",
      metric (.average (booking "total_amount") 2) "avg_booking_value",
      plain (booking "currency")]
    groupBy := [booking "currency"]
    orderBy := [.label "total_revenue"]
    limited := false
    visualization := .metrics
    columns := ["total_revenue", "booking_count", "avg_booking_value", "currency"] }

/-- The overview of everything that a tenant has. -/
def overviewFigures : List Figure := [
  ⟨.countRows, .contacts, [], "total_contacts"⟩,
  ⟨.countRows, .bookings, [], "total_bookings"⟩,
  ⟨.sum "total_amount", .bookings, [.notCancelled], "total_revenue"⟩,
  ⟨.countRows, .contacts, [.scoreWithin LeadStatus.hot.band], "hot_leads"⟩]

/-! ### Compilation -/

/-- A statement with the values of its parameters and with hints at how to show the result. -/
structure Draft where
  statement : Statement
  params : List Json
  visualization : Visualization
  columns : List String

/-- Rows of a table, and what is shown of them. -/
structure Selection where
  base : Table
  /-- The contacts of the bookings are joined. -/
  joined : Bool
  /-- Conditions that every question has. -/
  fixed : List Conjunct
  shape : Shape

/-- The tables whose fields a filter may restrict. -/
def Selection.available (s : Selection) : List Table :=
  s.base :: if s.joined then [.contacts] else []

/-- The statement on a selection, with the conditions of a classification after the fixed ones. -/
def Selection.draft (s : Selection) (limit : Int) (c : Classification) (tenant : String) :
    Except BuildFault Draft := do
  let (filters, b) ← compileFilters s.available c.filters ⟨[.string tenant]⟩
  let (times, b) := compileTimeframe s.base c.timeframe b
  return {
    statement := .select {
      items := s.shape.items
      base := s.base
      joined := s.joined
      conditions := .ofTenant s.base :: (s.fixed ++ filters ++ times)
      groupBy := s.shape.groupBy
      orderBy := s.shape.orderBy
      limit := if s.shape.limited then some limit else none }
    params := b.params
    visualization := s.shape.visualization
    columns := s.shape.columns }

/-- Some filter restricts a field of contacts. -/
def needsContacts (filters : List Filter) : Bool :=
  filters.any fun f => fieldTable? f.field == some .contacts

/-- The statements that a domain may have. -/
inductive Template where
  | selection (s : Selection)
  | overview

/-- The statement of a classification, if its domain has one. -/
def template? (c : Classification) : Option Template :=
  match c.domain with
  | .leads => some (.selection ⟨.contacts, false, [], leadShape c.intent⟩)
  | .contacts => some (.selection ⟨.contacts, false, [], contactShape c.intent⟩)
  | .bookings => some (.selection ⟨.bookings, true, [], bookingShape c.intent⟩)
  | .revenue =>
    some (.selection ⟨.bookings, needsContacts c.filters, [.notCancelled], revenueShape⟩)
  | .analytics => some .overview
  | .unknown => none

/-- The overview of a tenant; filters and timeframes do not restrict it. -/
def overviewDraft (tenant : String) : Draft :=
  { statement := .overview overviewFigures
    params := [.string tenant]
    visualization := .metrics
    columns := overviewFigures.map Figure.label }

/-- The statement of a classification and its parameters.  Lists have at most `limit` rows. -/
def draft (limit : Int) (c : Classification) (tenant : String) : Except BuildFault Draft :=
  match template? c with
  | none => .error (.unsupportedDomain c.domain)
  | some (.selection s) => s.draft limit c tenant
  | some .overview => .ok (overviewDraft tenant)

/-- The query of a draft. -/
def Draft.query (d : Draft) : Except BuildFault Query :=
  (Query.of d.statement.render d.params (d.statement.tables.map Table.name) d.visualization
    d.columns).mapError fun e => .invalidQuery [⟨[], .inconsistent e.message⟩]

/-- The query of a classification for a tenant.  Lists have at most `limit` rows. -/
def compile (limit : Int) (c : Classification) (tenant : String) : Except BuildFault Query := do
  (← draft limit c tenant).query

/-- The query of a classification is limited to a number of rows. -/
def isLimited (c : Classification) : Bool :=
  c.intent == .list && (c.domain == .leads || c.domain == .contacts || c.domain == .bookings)

/-- The query of a classification in an environment, of whose settings only the greatest number of
rows is needed, and only for lists. -/
def compileIn (env : Environment) (c : Classification) (tenant : String) :
    Except BuildFault Query := do
  let q ← compile Settings.default.resultLimit c tenant
  if isLimited c then
    let settings ← (Settings.read env).mapError .invalidSettings
    compile settings.resultLimit c tenant
  else return q

end CrmQuery.Sql
