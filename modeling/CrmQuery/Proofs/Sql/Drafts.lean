import CrmQuery.Sql.Compile
import Mathlib.Algebra.GroupWithZero.Nat
import Mathlib.Tactic.Common

/-!
# Drafts of statements

What the compilation of a classification does, said without its running state: the fields of the
filters are checked in order (`checkFields`), the conditions follow from the fields and operators
alone (`Selection.select`), and the parameters are the tenant, the values of the filters and the
ends of the timeframe (`paramsOf`).  `Selection.draft_eq` puts this together.
-/

namespace CrmQuery

/-- The number of values that an operator takes. -/
def Operator.arity : Operator → Nat
  | between => 2
  | eq | gte | lte | like => 1

theorem Condition.length_values (c : Condition) : c.values.length = c.operator.arity := by
  cases c with
  | compare comparison value => cases comparison <;> rfl
  | between low high => rfl

namespace Filter

/-- The field of a filter and its operator. -/
def key (f : Filter) : String × Operator := (f.field, f.condition.operator)

/-- The values of a filter as parameters. -/
def params (f : Filter) : List Json := f.condition.values.map Scalar.toJson

theorem length_params (f : Filter) : f.params.length = f.key.2.arity := by
  unfold params
  rw [List.length_map]
  exact f.condition.length_values

end Filter

/-- The ends of a timeframe as parameters. -/
def Timeframe.params (w : Timeframe) : List Json :=
  [.string w.start.isoText, .string w.stop.isoText]

/-- A classification that has filters and nothing else. -/
def Classification.ofFilters (domain : Domain) (intent : Intent) (filters : List Filter) :
    Classification :=
  { domain := domain
    intent := intent
    entities := []
    filters := filters
    timeframe := none
    aggregation := none
    confidence := 0
    language := .en }

namespace Sql

/-! ### Filters -/

/-- The column of a field that filters may restrict. -/
def columnFor (field : String) : Column := ⟨(fieldTable? field).getD .contacts, field⟩

/-- The condition of an operator on a column, with the number of its first parameter. -/
def conjunctOf (c : Column) (number : Nat) : Operator → Conjunct
  | .eq => .compare c .eq number
  | .gte => .compare c .gte number
  | .lte => .compare c .lte number
  | .like => .compare c .like number
  | .between => .between c number

/-- The conditions of filters with given fields and operators, with the number of their first
parameter. -/
def conjunctsFrom : Nat → List (String × Operator) → List Conjunct
  | _, [] => []
  | number, (field, operator) :: rest =>
    conjunctOf (columnFor field) number operator :: conjunctsFrom (number + operator.arity) rest

/-- The fault of the first field that a statement on the given tables cannot restrict. -/
def checkFields (available : List Table) : List String → Except BuildFault Unit
  | [] => .ok ()
  | field :: rest => columnOf field available >>= fun _ => checkFields available rest

theorem columnOf_eq_ok_iff {field : String} {available : List Table} {c : Column} :
    columnOf field available = .ok c ↔
      ∃ t ∈ available, fieldTable? field = some t ∧ c = ⟨t, field⟩ := by
  unfold columnOf
  cases fieldTable? field with
  | none => simp
  | some t =>
    by_cases ht : t ∈ available
    · simp [ht, eq_comm]
    · simp [ht]

theorem columnFor_eq {field : String} {t : Table} (h : fieldTable? field = some t) :
    columnFor field = ⟨t, field⟩ := by
  unfold columnFor
  rw [h, Option.getD_some]

theorem eq_columnFor {field : String} {available : List Table} {c : Column}
    (h : columnOf field available = .ok c) : c = columnFor field := by
  obtain ⟨t, -, ht, rfl⟩ := columnOf_eq_ok_iff.1 h
  exact (columnFor_eq ht).symm

theorem checkFields_eq_ok_iff {available : List Table} {fields : List String} :
    checkFields available fields = .ok () ↔
      ∀ field ∈ fields, ∃ t ∈ available, fieldTable? field = some t := by
  induction fields with
  | nil => simp [checkFields]
  | cons field rest ih =>
    unfold checkFields
    cases h : columnOf field available with
    | error e =>
      refine iff_of_false (by simp [bind, Except.bind]) fun hall => ?_
      obtain ⟨t, ht, hfield⟩ := hall field List.mem_cons_self
      cases h.symm.trans (columnOf_eq_ok_iff.2 ⟨t, ht, hfield, rfl⟩)
    | ok c =>
      obtain ⟨t, ht, hfield, -⟩ := columnOf_eq_ok_iff.1 h
      rw [List.forall_mem_cons]
      exact ih.trans (and_iff_right ⟨t, ht, hfield⟩).symm

theorem compileCondition_eq (c : Column) (condition : Condition) (b : Binder) :
    compileCondition c condition b =
      (conjunctOf c (b.params.length + 1) condition.operator,
        ⟨b.params ++ condition.values.map Scalar.toJson⟩) := by
  cases condition with
  | compare comparison value => cases comparison <;> rfl
  | between low high =>
    simp [compileCondition, Binder.bind, conjunctOf, Condition.operator, Condition.values]

theorem compileFilters_eq (available : List Table) (filters : List Filter) (b : Binder) :
    compileFilters available filters b =
      (checkFields available (filters.map Filter.field)).map fun _ =>
        (conjunctsFrom (b.params.length + 1) (filters.map Filter.key),
          ⟨b.params ++ filters.flatMap Filter.params⟩) := by
  induction filters generalizing b with
  | nil => simp [compileFilters, checkFields, conjunctsFrom, Except.map]
  | cons f rest ih =>
    simp only [compileFilters, List.map_cons, checkFields]
    cases h : columnOf f.field available with
    | error e => rfl
    | ok c =>
      -- The values of `f` shift the numbers of the filters after it by its arity.
      have hlength : b.params.length + 1 + f.key.2.arity =
          (b.params ++ f.condition.values.map Scalar.toJson).length + 1 := by
        rw [← f.length_params, List.length_append]
        unfold Filter.params
        omega
      simp only [bind, Except.bind, compileCondition_eq, ih]
      rw [eq_columnFor h]
      cases checkFields available (rest.map Filter.field) with
      | error e => rfl
      | ok u =>
        simp only [Except.map, pure, Except.pure, conjunctsFrom, Filter.key, List.flatMap_cons,
          Filter.params, List.append_assoc, ← hlength]

/-! ### Timeframes -/

/-- The conditions of a timeframe, if there is one, with the number of their first parameter. -/
def timeConjuncts (t : Table) (number : Nat) (timed : Bool) : List Conjunct :=
  if timed then
    [.compare ⟨t, "created_at"⟩ .gte number, .compare ⟨t, "created_at"⟩ .lte (number + 1)]
  else []

theorem compileTimeframe_eq (t : Table) (timeframe : Option Timeframe) (b : Binder) :
    compileTimeframe t timeframe b =
      (timeConjuncts t (b.params.length + 1) timeframe.isSome,
        ⟨b.params ++ timeframe.toList.flatMap Timeframe.params⟩) := by
  cases timeframe with
  | none => simp [compileTimeframe, timeConjuncts]
  | some w => simp [compileTimeframe, timeConjuncts, Binder.bind, Timeframe.params]

/-! ### Statements -/

/-- The number of values that filters with given fields and operators take. -/
def arities (keys : List (String × Operator)) : Nat := (keys.map fun k => k.2.arity).sum

theorem arities_cons (k : String × Operator) (keys : List (String × Operator)) :
    arities (k :: keys) = k.2.arity + arities keys := by
  simp [arities]

theorem map_fst_key (filters : List Filter) :
    (filters.map Filter.key).map Prod.fst = filters.map Filter.field :=
  List.map_map

theorem length_flatMap_params (filters : List Filter) :
    (filters.flatMap Filter.params).length = arities (filters.map Filter.key) := by
  unfold arities
  rw [List.length_flatMap, List.map_map]
  exact congrArg List.sum (List.map_congr_left fun f _ => f.length_params)

/-- The values of a classification: the tenant, those of the filters, the ends of the timeframe. -/
def paramsOf (c : Classification) (tenant : String) : List Json :=
  .string tenant :: (c.filters.flatMap Filter.params ++ c.timeframe.toList.flatMap Timeframe.params)

/-- The conditions of a selection, where filters have given fields and operators. -/
def Selection.conditions (s : Selection) (keys : List (String × Operator)) (timed : Bool) :
    List Conjunct :=
  .ofTenant s.base :: (s.fixed ++ conjunctsFrom 2 keys ++
    timeConjuncts s.base (2 + arities keys) timed)

/-- The statement on a selection, where filters have given fields and operators. -/
def Selection.select (s : Selection) (limit : Int) (keys : List (String × Operator))
    (timed : Bool) : Select :=
  { items := s.shape.items
    base := s.base
    joined := s.joined
    conditions := s.conditions keys timed
    groupBy := s.shape.groupBy
    orderBy := s.shape.orderBy
    limit := if s.shape.limited then some limit else none }

/-- The draft of a selection, if the fields of the filters can be restricted. -/
def Selection.draftOf (s : Selection) (limit : Int) (c : Classification) (tenant : String) :
    Draft :=
  { statement := .select (s.select limit (c.filters.map Filter.key) c.timeframe.isSome)
    params := paramsOf c tenant
    visualization := s.shape.visualization
    columns := s.shape.columns }

/-- A selection is drafted unless a field of a filter cannot be restricted. -/
theorem Selection.draft_eq (s : Selection) (limit : Int) (c : Classification) (tenant : String) :
    s.draft limit c tenant =
      (checkFields s.available (c.filters.map Filter.field)).map fun _ =>
        s.draftOf limit c tenant := by
  unfold Selection.draft
  rw [compileFilters_eq]
  cases checkFields s.available (c.filters.map Filter.field) with
  | error e => rfl
  | ok u =>
    have hlength : ([Json.string tenant] ++ c.filters.flatMap Filter.params).length + 1 =
        2 + arities (c.filters.map Filter.key) := by
      rw [List.length_append, length_flatMap_params, List.length_singleton]
      omega
    simp only [Except.map, bind, Except.bind, pure, Except.pure, compileTimeframe_eq, hlength]
    rfl

/-- The selection of each domain about rows. -/
theorem selection_cases {c : Classification} {s : Selection}
    (h : template? c = some (.selection s)) :
    (c.domain = .leads ∧ s = ⟨.contacts, false, [], leadShape c.intent⟩) ∨
    (c.domain = .contacts ∧ s = ⟨.contacts, false, [], contactShape c.intent⟩) ∨
    (c.domain = .bookings ∧ s = ⟨.bookings, true, [], bookingShape c.intent⟩) ∨
    (c.domain = .revenue ∧
      s = ⟨.bookings, needsContacts c.filters, [.notCancelled], revenueShape⟩) := by
  unfold template? at h
  cases hd : c.domain <;> simp only [hd, Option.some.injEq, Template.selection.injEq, reduceCtorEq]
    at h <;> simp [h.symm]

/-- The table whose rows a domain is about. -/
def baseOf? : Domain → Option Table
  | .leads | .contacts => some .contacts
  | .bookings | .revenue => some .bookings
  | .analytics | .unknown => none

theorem baseOf?_eq {c : Classification} {s : Selection} (h : template? c = some (.selection s)) :
    baseOf? c.domain = some s.base := by
  rcases selection_cases h with ⟨hd, rfl⟩ | ⟨hd, rfl⟩ | ⟨hd, rfl⟩ | ⟨hd, rfl⟩ <;> rw [hd] <;> rfl

theorem ne_analytics {c : Classification} {s : Selection}
    (h : template? c = some (.selection s)) : c.domain ≠ .analytics := by
  intro hd
  have hbase := baseOf?_eq h
  rw [hd] at hbase
  cases hbase

/-- A statement reads the tables that its filters need, except that leads and contacts are never
joined to bookings. -/
theorem mem_available {c : Classification} {s : Selection} {f : Filter} {t : Table}
    (h : template? c = some (.selection s)) (hf : f ∈ c.filters)
    (ht : fieldTable? f.field = some t)
    (hd : t = .contacts ∨ c.domain = .bookings ∨ c.domain = .revenue) : t ∈ s.available := by
  rcases selection_cases h with ⟨hc, rfl⟩ | ⟨hc, rfl⟩ | ⟨hc, rfl⟩ | ⟨hc, rfl⟩
  · simpa [Selection.available, hc] using hd
  · simpa [Selection.available, hc] using hd
  · cases t <;> simp [Selection.available]
  · cases t with
    | bookings => simp [Selection.available]
    | contacts =>
      have hneeds : needsContacts c.filters = true :=
        List.any_eq_true.2 ⟨f, hf, by rw [ht]; rfl⟩
      simp [Selection.available, hneeds]

/-- A draft is the overview, or the draft of a selection whose fields can be restricted. -/
theorem draft_cases {limit : Int} {c : Classification} {tenant : String} {d : Draft}
    (h : draft limit c tenant = .ok d) :
    (c.domain = .analytics ∧ d = overviewDraft tenant) ∨
    ∃ s, template? c = some (.selection s) ∧
      checkFields s.available (c.filters.map Filter.field) = .ok () ∧
      d = s.draftOf limit c tenant := by
  unfold draft at h
  split at h
  · cases h
  · rename_i s hs
    rw [Selection.draft_eq] at h
    cases hfields : checkFields s.available (c.filters.map Filter.field) with
    | error e =>
      rw [hfields] at h
      cases h
    | ok u =>
      rw [hfields] at h
      exact Or.inr ⟨s, hs, hfields, (Except.ok.inj h).symm⟩
  · rename_i ht
    refine Or.inl ⟨?_, (Except.ok.inj h).symm⟩
    unfold template? at ht
    cases hd : c.domain <;> simp [hd] at ht ⊢

theorem draft_eq_draftOf {c : Classification} {s : Selection}
    (h : template? c = some (.selection s))
    (hfields : checkFields s.available (c.filters.map Filter.field) = .ok ()) (limit : Int)
    (tenant : String) : draft limit c tenant = .ok (s.draftOf limit c tenant) := by
  unfold draft
  rw [h]
  simp only [Selection.draft_eq, hfields]
  rfl

/-- Only the unknown domain has no statement, and only analytics has the overview. -/
theorem exists_selection {c : Classification} (hunknown : c.domain ≠ .unknown)
    (hanalytics : c.domain ≠ .analytics) : ∃ s, template? c = some (.selection s) := by
  unfold template?
  cases hd : c.domain with
  | unknown => exact absurd hd hunknown
  | analytics => exact absurd hd hanalytics
  | _ => exact ⟨_, rfl⟩

end Sql

end CrmQuery
