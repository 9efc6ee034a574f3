import CrmQuery.Proofs.Sql.Numbering
import CrmQuery.Validation.Records

/-!
# Why a classification is not compiled

A question of a domain `Admits` the fields that its statements can restrict.  The first filter on
any other field decides with which fault the compilation ends; where there is none, nothing stands
against a query.  The main statement is `compileIn_refuses_first`.
-/

namespace CrmQuery

/-- The values of a filter as they were given. -/
def OneOrMany.scalars : OneOrMany → List Scalar
  | one value => [value]
  | many values => values

/-- A condition that was accepted keeps its operator and its values. -/
theorem Condition.eq_of_of_eq_ok {operator : Operator} {value : OneOrMany} {condition : Condition}
    (h : Condition.of operator value = .ok condition) :
    condition.operator = operator ∧ condition.values = value.scalars := by
  unfold Condition.of at h
  split at h
  · rename_i comparison v hcomparison
    obtain rfl := Except.ok.inj h
    cases operator <;> cases hcomparison <;> exact ⟨rfl, rfl⟩
  · cases h
  · rename_i low high hcomparison
    obtain rfl := Except.ok.inj h
    cases operator <;> cases hcomparison
    exact ⟨rfl, rfl⟩
  · cases h

namespace Sql

open Text

/-! ### Fields -/

/-- A filter of a question of a domain may restrict the field. -/
def Admits (d : Domain) (field : String) : Prop :=
  field ∈ contactFields ∨ field ∈ bookingFields ∧ d ≠ .leads ∧ d ≠ .contacts

instance (d : Domain) (field : String) : Decidable (Admits d field) :=
  inferInstanceAs (Decidable (_ ∨ _ ∧ _))

variable {field : String}

theorem fieldTable?_eq_contacts_iff :
    fieldTable? field = some .contacts ↔ field ∈ contactFields := by
  unfold fieldTable?
  simp only [List.contains_iff_mem]
  split_ifs <;> simp [*]

theorem fieldTable?_eq_bookings_iff :
    fieldTable? field = some .bookings ↔ field ∈ bookingFields := by
  have hapart : ∀ f ∈ bookingFields, f ∉ contactFields := by decide
  unfold fieldTable?
  simp only [List.contains_iff_mem]
  split_ifs with hcontacts hbookings
  · simpa using fun h => hapart field h hcontacts
  · simpa using hbookings
  · simpa using hbookings

theorem fieldTable?_eq_none_iff :
    fieldTable? field = none ↔ field ∉ contactFields ∧ field ∉ bookingFields := by
  rw [← fieldTable?_eq_contacts_iff, ← fieldTable?_eq_bookings_iff]
  cases fieldTable? field with
  | none => simp
  | some t => cases t <;> simp

/-- The contacts are joined to revenue exactly where a filter needs them. -/
theorem needsContacts_iff {filters : List Filter} :
    needsContacts filters = true ↔ ∃ f ∈ filters, f.field ∈ contactFields := by
  unfold needsContacts
  simp only [List.any_eq_true, beq_iff_eq, fieldTable?_eq_contacts_iff]

theorem columnOf_of_unknown (hcontacts : field ∉ contactFields) (hbookings : field ∉ bookingFields)
    (available : List Table) : columnOf field available = .error (.unknownField field) := by
  unfold columnOf
  rw [fieldTable?_eq_none_iff.2 ⟨hcontacts, hbookings⟩]

/-! ### Selections -/

section Selection

variable {c : Classification} {s : Selection} (h : template? c = some (.selection s))
include h

/-- A statement reads the table of every field that a question admits. -/
theorem exists_table_of_admits {f : Filter} (hf : f ∈ c.filters)
    (hadmits : Admits c.domain f.field) : ∃ t ∈ s.available, fieldTable? f.field = some t := by
  rcases hadmits with hcontacts | ⟨hbookings, hleads, hcontacts⟩
  · have ht := fieldTable?_eq_contacts_iff.2 hcontacts
    exact ⟨_, mem_available h hf ht (Or.inl rfl), ht⟩
  · have ht := fieldTable?_eq_bookings_iff.2 hbookings
    refine ⟨_, mem_available h hf ht (Or.inr ?_), ht⟩
    rcases selection_cases h with ⟨hd, -⟩ | ⟨hd, -⟩ | ⟨hd, -⟩ | ⟨hd, -⟩
    · exact absurd hd hleads
    · exact absurd hd hcontacts
    · exact Or.inl hd
    · exact Or.inr hd

/-- Leads and contacts are never joined to bookings. -/
theorem columnOf_of_unavailable (hfield : field ∈ bookingFields)
    (hd : c.domain = .leads ∨ c.domain = .contacts) :
    columnOf field s.available = .error (.unavailableField field) := by
  have havailable : Table.bookings ∉ s.available := by
    rcases selection_cases h with ⟨-, rfl⟩ | ⟨-, rfl⟩ | ⟨hc, -⟩ | ⟨hc, -⟩
    · simp [Selection.available]
    · simp [Selection.available]
    · simp [hc] at hd
    · simp [hc] at hd
  unfold columnOf
  simp only [fieldTable?_eq_bookings_iff.2 hfield, if_neg havailable]

end Selection

/-! ### The first fault -/

/-- The fields before the first one that cannot be restricted do not matter. -/
theorem checkFields_append_cons {available : List Table} {earlier later : List String}
    {e : BuildFault} (hearlier : ∀ g ∈ earlier, ∃ t ∈ available, fieldTable? g = some t)
    (hfield : columnOf field available = .error e) :
    checkFields available (earlier ++ field :: later) = .error e := by
  induction earlier with
  | nil =>
    rw [List.nil_append, checkFields, hfield]
    rfl
  | cons g earlier ih =>
    obtain ⟨⟨t, ht, hg⟩, hearlier⟩ := List.forall_mem_cons.1 hearlier
    rw [List.cons_append, checkFields, columnOf_eq_ok_iff.2 ⟨t, ht, hg, rfl⟩]
    exact ih hearlier

section Fault

variable {c : Classification} {s : Selection} {e : BuildFault}

theorem compileIn_eq_error (h : ∀ limit tenant, draft limit c tenant = .error e) (env : Environment)
    (tenant : String) : compileIn env c tenant = .error e := by
  unfold compileIn compile
  rw [h]
  rfl

theorem compileIn_of_first (h : template? c = some (.selection s)) {earlier later : List Filter}
    {f : Filter} (hc : c.filters = earlier ++ f :: later)
    (hearlier : ∀ g ∈ earlier, Admits c.domain g.field)
    (hfield : columnOf f.field s.available = .error e) (env : Environment) (tenant : String) :
    compileIn env c tenant = .error e := by
  refine compileIn_eq_error (fun limit tenant => ?_) env tenant
  have hfields : checkFields s.available (c.filters.map Filter.field) = .error e := by
    rw [hc, List.map_append, List.map_cons]
    refine checkFields_append_cons (List.forall_mem_map.2 fun g hg => ?_) hfield
    have hmem : g ∈ c.filters := hc ▸ List.mem_append_left _ hg
    exact exists_table_of_admits h hmem (hearlier g hg)
  unfold draft
  rw [h]
  simp only [Selection.draft_eq, hfields]
  rfl

end Fault

/-! ### Success -/

/-- What every limit makes a query of is a query in every environment from which the limit can be
read, if it is needed. -/
theorem exists_compileIn_iff {c : Classification} {tenant : String} {size : Prop}
    (h : ∀ limit, (∃ q, compile limit c tenant = .ok q) ↔ size) (env : Environment) :
    (∃ q, compileIn env c tenant = .ok q) ↔
      (isLimited c = true → ∃ settings, Settings.read env = .ok settings) ∧ size := by
  constructor
  · rintro ⟨q, hq⟩
    obtain ⟨limit, hlimit⟩ := exists_compile_of_compileIn hq
    refine ⟨fun hlimited => ?_, (h limit).1 ⟨q, hlimit⟩⟩
    obtain ⟨q', hq'⟩ := (h Settings.default.resultLimit).2 ((h limit).1 ⟨q, hlimit⟩)
    unfold compileIn at hq
    rw [hq'] at hq
    simp only [bind, Except.bind, if_pos hlimited] at hq
    cases hread : Settings.read env with
    | ok settings => exact ⟨settings, rfl⟩
    | error faults =>
      rw [hread] at hq
      cases hq
  · rintro ⟨hread, hsize⟩
    obtain ⟨q, hq⟩ := (h Settings.default.resultLimit).2 hsize
    unfold compileIn
    rw [hq]
    by_cases hlimited : isLimited c = true
    · obtain ⟨settings, hsettings⟩ := hread hlimited
      obtain ⟨q', hq'⟩ := (h settings.resultLimit).2 hsize
      refine ⟨q', ?_⟩
      simp only [bind, Except.bind, if_pos hlimited, hsettings, Except.mapError]
      exact hq'
    · refine ⟨q, ?_⟩
      simp only [bind, Except.bind, if_neg hlimited]
      rfl

theorem draft_of_admits {c : Classification} {s : Selection}
    (h : template? c = some (.selection s)) (hadmits : ∀ f ∈ c.filters, Admits c.domain f.field)
    (limit : Int) (tenant : String) : draft limit c tenant = .ok (s.draftOf limit c tenant) := by
  refine draft_eq_draftOf h (checkFields_eq_ok_iff.2 ?_) limit tenant
  exact List.forall_mem_map.2 fun f hf => exists_table_of_admits h hf (hadmits f hf)

theorem exists_compileIn_of_admits {c : Classification} {s : Selection}
    (h : template? c = some (.selection s)) (hadmits : ∀ f ∈ c.filters, Admits c.domain f.field)
    (env : Environment) (tenant : String) :
    (∃ q, compileIn env c tenant = .ok q) ↔
      (isLimited c = true → ∃ settings, Settings.read env = .ok settings) ∧
        (paramsOf c tenant).length < 10 ^ maxNumeralDigits := by
  refine exists_compileIn_iff (fun limit => ?_) env
  have hdraft := draft_of_admits h hadmits limit tenant
  rw [compile_eq_query hdraft]
  exact exists_query_iff hdraft

theorem exists_compileIn_of_analytics {c : Classification} (h : c.domain = .analytics)
    (env : Environment) (tenant : String) : ∃ q, compileIn env c tenant = .ok q := by
  have hdraft : ∀ limit, draft limit c tenant = .ok (overviewDraft tenant) := by
    intro limit
    unfold draft template?
    rw [h]
  have hone : (overviewDraft tenant).params.length = 1 := rfl
  have hsize : (overviewDraft tenant).params.length < 10 ^ maxNumeralDigits :=
    lt_pow_maxNumeralDigits (by omega)
  refine (exists_compileIn_iff (fun limit => ?_) env).2 ⟨fun hlimited => ?_, hsize⟩
  · rw [compile_eq_query (hdraft limit)]
    exact exists_query_iff (hdraft limit)
  · simp [isLimited, h] at hlimited

/-! ### Other faults -/

theorem draft_eq_error_of_compile {limit : Int} {c : Classification} {tenant : String}
    {e : BuildFault} (h : compile limit c tenant = .error e) :
    draft limit c tenant = .error e ∨ ∃ faults, e = .invalidQuery faults := by
  unfold compile at h
  cases hd : draft limit c tenant with
  | error e' =>
    rw [hd] at h
    cases h
    exact Or.inl rfl
  | ok d =>
    rw [hd] at h
    have hquery : d.query = .error e := h
    unfold Draft.query Except.mapError at hquery
    split at hquery
    · exact Or.inr ⟨_, (Except.error.inj hquery).symm⟩
    · cases hquery

/-- What stops a compilation after the fields of the filters are the size of the query and settings
that cannot be read. -/
theorem draft_eq_error_of_compileIn {env : Environment} {c : Classification} {tenant : String}
    {e : BuildFault} (h : compileIn env c tenant = .error e) :
    (∃ limit, draft limit c tenant = .error e) ∨
      ∃ faults, e = .invalidQuery faults ∨ e = .invalidSettings faults := by
  have hcompile : ∀ {limit}, compile limit c tenant = .error e →
      (∃ limit, draft limit c tenant = .error e) ∨
        ∃ faults, e = .invalidQuery faults ∨ e = .invalidSettings faults := by
    intro limit he
    rcases draft_eq_error_of_compile he with hdraft | ⟨faults, hfaults⟩
    · exact Or.inl ⟨limit, hdraft⟩
    · exact Or.inr ⟨faults, Or.inl hfaults⟩
  unfold compileIn at h
  cases hdefault : compile Settings.default.resultLimit c tenant with
  | error e' =>
    rw [hdefault] at h
    exact hcompile (hdefault.trans h)
  | ok q =>
    rw [hdefault] at h
    simp only [bind, Except.bind] at h
    split_ifs at h
    · cases hread : Settings.read env with
      | error faults =>
        rw [hread] at h
        exact Or.inr ⟨faults, Or.inr (Except.error.inj h).symm⟩
      | ok settings =>
        rw [hread] at h
        exact hcompile h
    · cases h

/-! ### Outcomes -/

/-- A question admits all its filters, or there is a first one that it does not admit. -/
theorem admits_or_first (d : Domain) (filters : List Filter) :
    (∀ f ∈ filters, Admits d f.field) ∨
      ∃ earlier f later, filters = earlier ++ f :: later ∧
        (∀ g ∈ earlier, Admits d g.field) ∧ ¬ Admits d f.field := by
  cases h : filters.find? fun f => ¬ Admits d f.field with
  | none => exact Or.inl (by simpa using h)
  | some f =>
    obtain ⟨hf, earlier, later, hfilters, hearlier⟩ := List.find?_eq_some_iff_append.1 h
    exact Or.inr ⟨earlier, f, later, hfilters, by simpa using hearlier, by simpa using hf⟩

/-- Questions about bookings and revenue can restrict every field that any question can. -/
theorem compileIn_ne_unavailable {c : Classification}
    (hd : c.domain = .bookings ∨ c.domain = .revenue) (env : Environment) (tenant field : String) :
    compileIn env c tenant ≠ .error (.unavailableField field) := by
  intro he
  obtain ⟨s, hs⟩ : ∃ s, template? c = some (.selection s) := by
    apply exists_selection <;> rcases hd with hd | hd <;> simp [hd]
  rcases admits_or_first c.domain c.filters with hall | ⟨earlier, f, later, hc, hearlier, hf⟩
  · rcases draft_eq_error_of_compileIn he with ⟨limit, hdraft⟩ | ⟨faults, hfaults | hfaults⟩
    · cases hdraft.symm.trans (draft_of_admits hs hall limit tenant)
    · cases hfaults
    · cases hfaults
  · have hnone : f.field ∉ contactFields ∧ f.field ∉ bookingFields := by
      refine ⟨fun h => hf (Or.inl h), fun h => hf (Or.inr ⟨h, ?_⟩)⟩
      rcases hd with hd | hd <;> simp [hd]
    have hunknown := columnOf_of_unknown hnone.1 hnone.2 s.available
    cases he.symm.trans (compileIn_of_first hs hc hearlier hunknown env tenant)

/-- How the compilation of a classification ends. -/
structure RefusesFirst (env : Environment) (c : Classification) (tenant : String) : Prop where
  unknown : c.domain = .unknown → compileIn env c tenant = .error (.unsupportedDomain .unknown)
  overview : c.domain = .analytics → ∃ q, compileIn env c tenant = .ok q
  /-- The first filter that is not admitted restricts a field that there is not. -/
  unknownField : c.domain ∈ [Domain.leads, .contacts, .bookings, .revenue] →
    ∀ earlier f later, c.filters = earlier ++ f :: later →
      (∀ g ∈ earlier, Admits c.domain g.field) → f.field ∉ contactFields ++ bookingFields →
        compileIn env c tenant = .error (.unknownField f.field) ∧
          (BuildFault.unknownField f.field).message = "Unknown filter field '" ++ f.field ++ "'"
  /-- The first filter that is not admitted restricts a field of bookings. -/
  unavailableField : c.domain ∈ [Domain.leads, .contacts] →
    ∀ earlier f later, c.filters = earlier ++ f :: later →
      (∀ g ∈ earlier, Admits c.domain g.field) → f.field ∈ bookingFields →
        compileIn env c tenant = .error (.unavailableField f.field) ∧
          (BuildFault.unavailableField f.field).message =
            "Filter field '" ++ f.field ++ "' is not available for this query"
  /-- Only settings that are needed and cannot be read, or a number of a parameter that is longer
  than any that a list in a memory reaches, could still stop a query. -/
  succeeds : c.domain ∈ [Domain.leads, .contacts, .bookings, .revenue] →
    (∀ f ∈ c.filters, Admits c.domain f.field) →
      ((∃ q, compileIn env c tenant = .ok q) ↔
        (isLimited c = true → ∃ settings, Settings.read env = .ok settings) ∧
          (paramsOf c tenant).length < 10 ^ maxNumeralDigits)
  available : c.domain ∈ [Domain.bookings, .revenue] →
    ∀ field, compileIn env c tenant ≠ .error (.unavailableField field)
  /-- The join of revenue makes contacts available where a filter needs them. -/
  joined : c.domain = .revenue → ∀ s, template? c = some (.selection s) →
    (.contacts ∈ s.available ↔ ∃ f ∈ c.filters, f.field ∈ contactFields)

theorem exists_selection_of_mem {c : Classification}
    (h : c.domain ∈ [Domain.leads, .contacts, .bookings, .revenue]) :
    ∃ s, template? c = some (.selection s) := by
  apply exists_selection <;> intro hd <;> simp [hd] at h

/-- The first filter on a field that is not admitted decides how a compilation fails, and without
one there is a query.  A condition that was accepted as well-formed always compiles, with all the
values that it was given. -/
theorem compileIn_refuses_first (env : Environment) (c : Classification) (tenant : String) :
    RefusesFirst env c tenant ∧
    ∀ operator value condition, Condition.of operator value = .ok condition →
      ∀ column b, compileCondition column condition b =
        (conjunctOf column (b.params.length + 1) operator,
          ⟨b.params ++ value.scalars.map Scalar.toJson⟩) := by
  refine ⟨?_, fun operator value condition hcondition column b => ?_⟩
  · constructor
    case unknown =>
      intro hd
      refine compileIn_eq_error (fun limit tenant => ?_) env tenant
      unfold draft template?
      rw [hd]
    case overview => exact fun hd => exists_compileIn_of_analytics hd env tenant
    case unknownField =>
      intro hd earlier f later hc hearlier hf
      obtain ⟨s, hs⟩ := exists_selection_of_mem hd
      rw [List.mem_append, not_or] at hf
      have hunknown := columnOf_of_unknown hf.1 hf.2 s.available
      exact ⟨compileIn_of_first hs hc hearlier hunknown env tenant, rfl⟩
    case unavailableField =>
      intro hd earlier f later hc hearlier hf
      obtain ⟨s, hs⟩ := exists_selection_of_mem (List.mem_append_left [.bookings, .revenue] hd)
      have hunavailable := columnOf_of_unavailable hs hf (by simpa using hd)
      exact ⟨compileIn_of_first hs hc hearlier hunavailable env tenant, rfl⟩
    case succeeds =>
      intro hd hadmits
      obtain ⟨s, hs⟩ := exists_selection_of_mem hd
      exact exists_compileIn_of_admits hs hadmits env tenant
    case available => exact fun hd => compileIn_ne_unavailable (by simpa using hd) env tenant
    case joined =>
      intro hd s hs
      rw [← needsContacts_iff]
      rcases selection_cases hs with ⟨h, -⟩ | ⟨h, -⟩ | ⟨h, -⟩ | ⟨-, rfl⟩
      · simp [h] at hd
      · simp [h] at hd
      · simp [h] at hd
      · simp [Selection.available]
  · obtain ⟨hoperator, hvalues⟩ := Condition.eq_of_of_eq_ok hcondition
    rw [compileCondition_eq, hoperator, hvalues]

/-- A field that there is not comes before one of bookings that leads do not have. -/
theorem compileIn_refuses_first_salary :
    let c := Classification.ofFilters .leads .list [
      ⟨"country", .compare .eq (.text "Austria")⟩, ⟨"salary", .compare .gte (.int 100)⟩,
      ⟨"status", .compare .eq (.text "pending")⟩]
    compileIn Environment.empty c "acme" = .error (.unknownField "salary") ∧
      (BuildFault.unknownField "salary").message = "Unknown filter field 'salary'" := by
  intro c
  refine (compileIn_refuses_first Environment.empty c "acme").1.unknownField (by decide)
    [⟨"country", .compare .eq (.text "Austria")⟩] ⟨"salary", .compare .gte (.int 100)⟩
    [⟨"status", .compare .eq (.text "pending")⟩] rfl ?_ (by decide)
  exact List.forall_mem_singleton.2 (Or.inl (by decide))

end Sql

end CrmQuery
