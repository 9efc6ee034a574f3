import CrmQuery.Proofs.Sql.Safety
import CrmQuery.Proofs.Question.Classify

/-!
# Questions lead to queries

Every classification that is read off a question can be compiled, unless its domain is unknown: its
filters only restrict fields that the statements of its domain can restrict (`checkFields_filters`),
and their values are those of the entities that were found (`entityParams_fields`).  The main
statement is `exists_compile_of_entities`.
-/

namespace CrmQuery

open Sql

/-! ### Entities -/

/-- The parameters for the entities that a classification reports: the ends of the band of a state
of leads, the name under which contacts of a country are filed, the amount of a budget, and for
bookings their state. -/
def entityParams (d : Domain) (entities : List (String × Json)) : List Json :=
  (match entities.lookup "leadStatus" with
    | some (.string s) =>
      (LeadStatus.bandNamed? s).toList.flatMap fun b => [.int b.low, .int b.high]
    | _ => []) ++
  (match entities.lookup "country" with
    | some (.string key) => [.string (Country.displayOfKey key)]
    | _ => []) ++
  (entities.lookup "budgetAmount").toList ++
  (if d = .bookings then (entities.lookup "bookingStatus").toList else [])

theorem bandNamed?_name (a : LeadStatus) : LeadStatus.bandNamed? a.name = some a.band := by
  cases a <;> rfl

theorem displayOfKey_key (a : Country) : Country.displayOfKey a.key = a.display := by
  cases a <;> rfl

/-- The values of the filters are those of the entities. -/
theorem entityParams_fields (e : Entities) {d : Domain} (hd : d ≠ .analytics) :
    entityParams d e.fields = (e.filters d).flatMap Filter.params := by
  have hscore : (match (e.leadStatus.map fun a => Json.string a.name) with
      | some (.string s) =>
        (LeadStatus.bandNamed? s).toList.flatMap fun b => [Json.int b.low, .int b.high]
      | _ => []) = (e.scoreFilter? d).toList.flatMap Filter.params := by
    rw [Entities.scoreFilter?, if_neg hd]
    cases e.leadStatus with
    | none => rfl
    | some a =>
      simp only [Option.map_some, bandNamed?_name]
      rfl
  have hcountry : (match (e.country.map fun a => Json.string a.key) with
      | some (.string key) => [Json.string (Country.displayOfKey key)]
      | _ => []) = e.countryFilter?.toList.flatMap Filter.params := by
    unfold Entities.countryFilter?
    cases e.country with
    | none => rfl
    | some a =>
      simp only [Option.map_some, displayOfKey_key]
      rfl
  have hbudget : (e.budget.map fun a => Json.int a.amount).toList =
      e.budgetFilter?.toList.flatMap Filter.params := by
    unfold Entities.budgetFilter?
    cases e.budget <;> rfl
  have hstatus : (if d = .bookings then
      (e.bookingStatus.map fun a => Json.string a.name).toList else []) =
        (e.statusFilter? d).toList.flatMap Filter.params := by
    unfold Entities.statusFilter?
    split_ifs
    · cases e.bookingStatus <;> rfl
    · rfl
  unfold entityParams Entities.filters
  rw [e.lookup_leadStatus, e.lookup_country, e.lookup_budgetAmount, e.lookup_bookingStatus, hscore,
    hcountry, hbudget, hstatus, List.flatMap_append, List.flatMap_append, List.flatMap_append]

/-! ### Fields -/

/-- The fields that filters of a question restrict; only those about bookings restrict a field of
bookings. -/
theorem fieldTable?_of_mem_filters {e : Entities} {d : Domain} {f : Filter}
    (h : f ∈ e.filters d) :
    fieldTable? f.field = some .contacts ∨
      fieldTable? f.field = some .bookings ∧ d = .bookings := by
  simp only [Entities.filters, List.mem_append, Option.mem_toList] at h
  rcases h with ((h | h) | h) | h
  · left
    unfold Entities.scoreFilter? at h
    split_ifs at h
    obtain ⟨a, -, rfl⟩ := Option.map_eq_some_iff.1 h
    rfl
  · left
    obtain ⟨a, -, rfl⟩ := Option.map_eq_some_iff.1 h
    rfl
  · left
    obtain ⟨a, -, rfl⟩ := Option.map_eq_some_iff.1 h
    rfl
  · right
    unfold Entities.statusFilter? at h
    split_ifs at h with hd
    obtain ⟨a, -, rfl⟩ := Option.map_eq_some_iff.1 h
    exact ⟨rfl, hd⟩

/-- A statement can restrict the fields of the filters that a question leads to. -/
theorem checkFields_filters {c : Classification} {s : Selection} {e : Entities}
    (h : template? c = some (.selection s)) (hc : c.filters = e.filters c.domain) :
    checkFields s.available (c.filters.map Filter.field) = .ok () := by
  rw [checkFields_eq_ok_iff, List.forall_mem_map]
  intro f hf
  rcases fieldTable?_of_mem_filters (hc ▸ hf) with ht | ⟨ht, hd⟩
  · exact ⟨_, mem_available h hf ht (Or.inl rfl), ht⟩
  · exact ⟨_, mem_available h hf ht (Or.inr (Or.inl hd)), ht⟩

/-! ### Classifications of questions -/

/-- What a classification of a question reports and restricts are the entities of the question. -/
theorem exists_entities_of_ofQuestion {question : String} {hint : Option Domain} {now : Moment}
    {c : Classification} (h : Classification.ofQuestion question hint now = .ok c) :
    ∃ e : Entities, c.entities = e.fields ∧ c.filters = e.filters c.domain := by
  obtain ⟨e, timeframe, -, -, rfl⟩ := of_ofQuestion_eq_ok h
  exact ⟨e, rfl, rfl⟩

theorem length_filters_le (e : Entities) (d : Domain) : (e.filters d).length ≤ 4 := by
  have hone : ∀ o : Option Filter, o.toList.length ≤ 1 := by
    intro o
    cases o <;> simp
  have hscore := hone (e.scoreFilter? d)
  have hcountry := hone e.countryFilter?
  have hbudget := hone e.budgetFilter?
  have hstatus := hone (e.statusFilter? d)
  simp only [Entities.filters, List.length_append]
  omega

theorem arities_le (keys : List (String × Operator)) : arities keys ≤ 2 * keys.length := by
  have harity : ∀ k : String × Operator, k.2.arity ≤ 2 := by
    rintro ⟨field, operator⟩
    cases operator <;> simp [Operator.arity]
  induction keys with
  | nil => exact Nat.zero_le _
  | cons k keys ih =>
    have hk := harity k
    rw [arities_cons, List.length_cons]
    omega

theorem length_params_lt {c : Classification} {e : Entities} (h : c.filters = e.filters c.domain)
    (tenant : String) : (paramsOf c tenant).length < 10 ^ Text.maxNumeralDigits := by
  have hle : (paramsOf c tenant).length ≤ 11 := by
    have hfilters := length_filters_le e c.domain
    have harities := arities_le (c.filters.map Filter.key)
    rw [List.length_map, h] at harities
    rw [length_paramsOf, h]
    split_ifs <;> omega
  exact Text.lt_pow_maxNumeralDigits (by omega)

theorem compile_unknown {c : Classification} (h : c.domain = .unknown) (limit : Int)
    (tenant : String) : compile limit c tenant = .error (.unsupportedDomain .unknown) := by
  have ht : template? c = none := by
    unfold template?
    rw [h]
  unfold compile draft
  rw [ht, h]
  rfl

/-- Unless its domain is unknown, a classification with the entities and filters of a question is
compiled. -/
theorem exists_compile_of_entities {c : Classification} {e : Entities}
    (hentities : c.entities = e.fields) (hfilters : c.filters = e.filters c.domain)
    (hdomain : c.domain ≠ .unknown) (limit : Int) (tenant : String) :
    ∃ q, compile limit c tenant = .ok q ∧ violations q.sql = [] ∧
      (c.domain ≠ .analytics → q.params = .string tenant ::
        (entityParams c.domain c.entities ++ c.timeframe.toList.flatMap Timeframe.params)) := by
  by_cases hd : c.domain = .analytics
  · have hdraft : draft limit c tenant = .ok (overviewDraft tenant) := by
      unfold draft template?
      rw [hd]
    have hone : (overviewDraft tenant).params.length = 1 := rfl
    obtain ⟨q, hq, hsql, -⟩ := exists_compile_eq hdraft (Text.lt_pow_maxNumeralDigits (by omega))
    exact ⟨q, hq, hsql ▸ violations_draft hdraft, fun hne => absurd hd hne⟩
  · obtain ⟨s, hs⟩ := exists_selection hdomain hd
    have hdraft := draft_eq_draftOf hs (checkFields_filters hs hfilters) limit tenant
    obtain ⟨q, hq, hsql, hparams⟩ := exists_compile_eq hdraft (length_params_lt hfilters tenant)
    refine ⟨q, hq, hsql ▸ violations_draft hdraft, fun _ => ?_⟩
    rw [hparams, hentities, entityParams_fields e hd, ← hfilters]
    rfl

end CrmQuery
