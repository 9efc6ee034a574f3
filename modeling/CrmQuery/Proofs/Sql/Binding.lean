import CrmQuery.Proofs.Sql.Numbering

/-!
# Parameters and the conditions that refer to them

The parameters of a statement are the tenant, the values of the filters in their order, and the ends
of the timeframe.  The condition of each filter has the numbers of the values of that filter
(`BindsFilter`), and the text refers to all parameters and to nothing else.  The main statement is
`compile_binds`.
-/

namespace CrmQuery.Sql

open Text

/-- The condition of a filter on a table, with the number of its first parameter. -/
def filterText (f : Filter) (t : Table) (number : Nat) : String :=
  match f.condition with
  | .compare comparison _ =>
    t.shortName ++ "." ++ f.field ++ " " ++ comparisonSign comparison ++ " $" ++ toString number
  | .between _ _ =>
    t.shortName ++ "." ++ f.field ++ " BETWEEN $" ++ toString number ++
      " AND $" ++ toString (number + 1)

/-- The number of conditions of a domain before those of the filters. -/
def fixedCount : Domain → Nat
  | .revenue => 2
  | _ => 1

/-- The condition at a place is that of a filter on its own column, and the parameters from its
number on are the values of the filter. -/
structure BindsFilter (conjuncts : List String) (params : List Json) (place number : Nat)
    (f : Filter) : Prop where
  condition : ∃ t, fieldTable? f.field = some t ∧ conjuncts[place]? = some (filterText f t number)
  values : (params.drop (number - 1)).take f.params.length = f.params

/-- The conditions from a place on are those of a timeframe on the time of creation, and the last
two parameters are its ends. -/
structure BindsTimes (conjuncts : List String) (params : List Json) (place : Nat) (base : Table)
    (w : Timeframe) : Prop where
  conditions : conjuncts.drop place = [
    base.shortName ++ ".created_at >= $" ++ toString (params.length - 1),
    base.shortName ++ ".created_at <= $" ++ toString params.length]
  values : params.drop (params.length - 2) = w.params

/-- A text about the rows of a table and its parameters go together. -/
structure BindsRows (c : Classification) (base : Table) (tenant sql : String)
    (params : List Json) : Prop where
  params_eq : params =
    .string tenant ::
      (c.filters.flatMap Filter.params ++ c.timeframe.toList.flatMap Timeframe.params)
  conditions : ∃ conjuncts, whereConjuncts sql = [conjuncts] ∧
    (∀ earlier f later, c.filters = earlier ++ f :: later →
      BindsFilter conjuncts params (fixedCount c.domain + earlier.length)
        (2 + (earlier.flatMap Filter.params).length) f) ∧
    ∀ w, c.timeframe = some w →
      BindsTimes conjuncts params (fixedCount c.domain + c.filters.length) base w

/-! ### Filters -/

theorem conjunctsFrom_append (number : Nat) (xs ys : List (String × Operator)) :
    conjunctsFrom number (xs ++ ys) =
      conjunctsFrom number xs ++ conjunctsFrom (number + arities xs) ys := by
  induction xs generalizing number with
  | nil => rfl
  | cons key rest ih =>
    obtain ⟨field, operator⟩ := key
    rw [List.cons_append, conjunctsFrom, conjunctsFrom, ih, arities_cons, Nat.add_assoc]
    rfl

theorem length_conjunctsFrom (number : Nat) (keys : List (String × Operator)) :
    (conjunctsFrom number keys).length = keys.length := by
  induction keys generalizing number with
  | nil => rfl
  | cons key rest ih => exact congrArg Nat.succ (ih _)

theorem render_conjunctOf (f : Filter) (t : Table) (number : Nat) :
    (conjunctOf ⟨t, f.field⟩ number f.condition.operator).render = filterText f t number := by
  unfold filterText
  cases f.condition with
  | compare comparison value =>
    simp only
    rw [← render_compare]
    cases comparison <;> rfl
  | between low high => exact render_between t f.field number

/-- The values of a filter stand after those of the filters before it. -/
theorem params_slice (first : Json) (earlier later : List Filter) (f : Filter) (rest : List Json) :
    ((first :: ((earlier ++ f :: later).flatMap Filter.params ++ rest)).drop
      (1 + (earlier.flatMap Filter.params).length)).take f.params.length = f.params := by
  rw [List.flatMap_append, List.flatMap_cons, Nat.add_comm, List.drop_succ_cons, List.append_assoc,
    List.append_assoc, List.drop_left, List.take_left]

/-- The conditions before those of the filters. -/
theorem length_fixed {c : Classification} {s : Selection}
    (h : template? c = some (.selection s)) : s.fixed.length + 1 = fixedCount c.domain := by
  rcases selection_cases h with ⟨hd, rfl⟩ | ⟨hd, rfl⟩ | ⟨hd, rfl⟩ | ⟨hd, rfl⟩ <;> rw [hd] <;> rfl

/-- The condition of a filter comes after the fixed ones and those of the filters before it. -/
theorem conditions_eq_append (s : Selection) (earlier later : List Filter) (f : Filter)
    (timed : Bool) : ∃ after,
      s.conditions ((earlier ++ f :: later).map Filter.key) timed =
        (.ofTenant s.base :: (s.fixed ++ conjunctsFrom 2 (earlier.map Filter.key))) ++
          conjunctOf (columnFor f.field) (2 + (earlier.flatMap Filter.params).length)
            f.condition.operator :: after := by
  refine ⟨conjunctsFrom (2 + (earlier.flatMap Filter.params).length + f.condition.operator.arity)
    (later.map Filter.key) ++
      timeConjuncts s.base (2 + arities ((earlier ++ f :: later).map Filter.key)) timed, ?_⟩
  have hfilters : conjunctsFrom 2 ((earlier ++ f :: later).map Filter.key) =
      conjunctsFrom 2 (earlier.map Filter.key) ++
        conjunctOf (columnFor f.field) (2 + (earlier.flatMap Filter.params).length)
          f.condition.operator ::
        conjunctsFrom (2 + (earlier.flatMap Filter.params).length + f.condition.operator.arity)
          (later.map Filter.key) := by
    rw [List.map_append, conjunctsFrom_append, ← length_flatMap_params, List.map_cons]
    rfl
  rw [Selection.conditions, hfilters]
  simp only [List.cons_append, List.append_assoc]

theorem bindsFilter_select {c : Classification} {s : Selection} {tenant : String}
    (h : template? c = some (.selection s))
    (hfields : checkFields s.available (c.filters.map Filter.field) = .ok ())
    {earlier later : List Filter} {f : Filter} (hf : c.filters = earlier ++ f :: later) :
    BindsFilter
      ((s.conditions (c.filters.map Filter.key) c.timeframe.isSome).map Conjunct.render)
      (paramsOf c tenant) (fixedCount c.domain + earlier.length)
      (2 + (earlier.flatMap Filter.params).length) f := by
  obtain ⟨t, -, ht⟩ := checkFields_eq_ok_iff.1 hfields f.field (by simp [hf])
  refine ⟨⟨t, ht, ?_⟩, ?_⟩
  · obtain ⟨after, hafter⟩ := conditions_eq_append s earlier later f c.timeframe.isSome
    have hplace : fixedCount c.domain + earlier.length =
        (Conjunct.ofTenant s.base ::
          (s.fixed ++ conjunctsFrom 2 (earlier.map Filter.key))).length := by
      rw [← length_fixed h, List.length_cons, List.length_append, length_conjunctsFrom,
        List.length_map]
      omega
    rw [hf, hafter, List.getElem?_map, hplace, List.getElem?_append_right (Nat.le_refl _),
      Nat.sub_self, List.getElem?_cons_zero, Option.map_some, columnFor_eq ht,
      render_conjunctOf]
  · have hnumber : 2 + (earlier.flatMap Filter.params).length - 1 =
        1 + (earlier.flatMap Filter.params).length := by
      omega
    rw [paramsOf, hf, hnumber]
    exact params_slice _ earlier later f _

/-! ### Timeframes -/

theorem bindsTimes_select {c : Classification} {s : Selection} {tenant : String}
    (h : template? c = some (.selection s)) {w : Timeframe} (hw : c.timeframe = some w) :
    BindsTimes
      ((s.conditions (c.filters.map Filter.key) c.timeframe.isSome).map Conjunct.render)
      (paramsOf c tenant) (fixedCount c.domain + c.filters.length) s.base w := by
  have hlength := length_paramsOf c tenant
  rw [hw, Option.isSome_some, if_pos rfl] at hlength
  constructor
  · have hplace : fixedCount c.domain + c.filters.length =
        ((Conjunct.ofTenant s.base :: (s.fixed ++ conjunctsFrom 2 (c.filters.map Filter.key))).map
          Conjunct.render).length := by
      rw [← length_fixed h, List.length_map, List.length_cons, List.length_append,
        length_conjunctsFrom, List.length_map]
      omega
    have hfirst : (paramsOf c tenant).length - 1 = 2 + arities (c.filters.map Filter.key) := by
      omega
    have hsecond : (paramsOf c tenant).length = 2 + arities (c.filters.map Filter.key) + 1 := by
      omega
    rw [Selection.conditions, ← List.cons_append, List.map_append, hplace, List.drop_left,
      map_render_timeConjuncts, hw, Option.isSome_some, if_pos rfl, hfirst, hsecond]
  · have hsplit : paramsOf c tenant =
        (.string tenant :: c.filters.flatMap Filter.params) ++ w.params := by
      simp [paramsOf, hw]
    have hplace : (paramsOf c tenant).length - 2 =
        (Json.string tenant :: c.filters.flatMap Filter.params).length := by
      rw [hsplit, List.length_append]
      exact Nat.add_sub_cancel _ 2
    rw [hplace, hsplit, List.drop_left]

theorem bindsRows_draftOf {c : Classification} {s : Selection} {tenant : String}
    (h : template? c = some (.selection s))
    (hfields : checkFields s.available (c.filters.map Filter.field) = .ok ()) (limit : Int) :
    BindsRows c s.base tenant (s.draftOf limit c tenant).statement.render
      (s.draftOf limit c tenant).params := by
  have hplain := select_plain h (map_fst_key c.filters ▸ hfields) limit c.timeframe.isSome
  exact ⟨rfl, _, whereConjuncts_render hplain (List.cons_ne_nil _ _),
    fun _ _ _ hf => bindsFilter_select h hfields hf, fun _ hw => bindsTimes_select h hw⟩

/-! ### Drafts -/

theorem mem_numerals_draft {limit : Int} {c : Classification} {tenant : String} {d : Draft}
    (h : draft limit c tenant = .ok d) (n : Nat) :
    (∃ r ∈ numberRuns d.statement.render.toList, numeral r = n) ↔
      1 ≤ n ∧ n ≤ d.params.length := by
  obtain ⟨ns, hns, hruns⟩ := numberRuns_draft h
  have hpos := length_params_pos h
  have hmem : (∃ r ∈ numberRuns d.statement.render.toList, numeral r = n) ↔
      n ∈ ns ++ List.range' 1 d.params.length := by
    rw [hruns]
    constructor
    · rintro ⟨r, hr, rfl⟩
      obtain ⟨m, hm, rfl⟩ := List.mem_map.1 hr
      rwa [numeral_toDigits]
    · exact fun hn => ⟨_, List.mem_map_of_mem hn, numeral_toDigits n⟩
  rw [hmem, List.mem_append, List.mem_range'_1]
  constructor
  · rintro (hn | hn)
    · rw [hns n hn]
      omega
    · omega
  · omega

theorem bindsRows_draft {limit : Int} {c : Classification} {tenant : String} {d : Draft}
    (h : draft limit c tenant = .ok d) {base : Table} (hbase : baseOf? c.domain = some base) :
    BindsRows c base tenant d.statement.render d.params := by
  rcases draft_cases h with ⟨hd, -⟩ | ⟨s, hs, hfields, rfl⟩
  · rw [hd] at hbase
    cases hbase
  · cases (baseOf?_eq hs).symm.trans hbase
    exact bindsRows_draftOf hs hfields limit

theorem params_draft_of_analytics {limit : Int} {c : Classification} {tenant : String} {d : Draft}
    (h : draft limit c tenant = .ok d) (hd : c.domain = .analytics) :
    d.params = [.string tenant] := by
  rcases draft_cases h with ⟨-, rfl⟩ | ⟨s, hs, -, -⟩
  · rfl
  · exact absurd hd (ne_analytics hs)

/-- The text of a query refers to its parameters one by one, and no draft is refused for a mismatch.
Only a number of more than `maxNumeralDigits` digits, which no list in a memory reaches, could stop
a draft from becoming a query. -/
theorem compile_binds (limit : Int) (c : Classification) (tenant : String) :
    (∀ q, compile limit c tenant = .ok q →
      (∀ base, baseOf? c.domain = some base → BindsRows c base tenant q.sql q.params) ∧
      (c.domain = .analytics → q.params = [.string tenant]) ∧
      (∀ n, (∃ r ∈ numberRuns q.sql.toList, numeral r = n) ↔ 1 ≤ n ∧ n ≤ q.params.length) ∧
      q.placeholderCount = q.params.length) ∧
    ∀ d, draft limit c tenant = .ok d →
      (∀ tables visualization columns numbers values,
        Query.of d.statement.render d.params tables visualization columns ≠
          .error (.mismatch numbers values)) ∧
      ((∃ q, compile limit c tenant = .ok q) ↔ d.params.length < 10 ^ maxNumeralDigits) := by
  refine ⟨fun q hq => ?_, fun d hd => ⟨of_ne_mismatch hd, ?_⟩⟩
  · obtain ⟨d, hd, hquery⟩ := exists_draft_of_compile hq
    obtain ⟨hsql, hparams, -⟩ := query_eq_ok hquery
    have hcount := q.placeholderCount_eq
    rw [hsql, hparams]
    rw [hparams] at hcount
    exact ⟨fun _ hbase => bindsRows_draft hd hbase, params_draft_of_analytics hd,
      mem_numerals_draft hd, hcount⟩
  · rw [compile_eq_query hd]
    exact exists_query_iff hd

/-- Two values come before that of the second filter. -/
theorem compile_binds_between_eq :
    let c := Classification.ofFilters .revenue .sum [
      ⟨"lead_score", .between (.int 70) (.int 100)⟩, ⟨"status", .compare .eq (.text "pending")⟩]
    ∃ q, compile 50 c "acme" = .ok q ∧ BindsRows c .bookings "acme" q.sql q.params ∧
      q.placeholderCount = 4 := by
  intro c
  have hdraft : ∃ d, draft 50 c "acme" = .ok d ∧ d.params.length = 4 := ⟨_, rfl, rfl⟩
  obtain ⟨d, hd, hlength⟩ := hdraft
  obtain ⟨hqueries, hdrafts⟩ := compile_binds 50 c "acme"
  obtain ⟨q, hq⟩ := (hdrafts d hd).2.2 (lt_pow_maxNumeralDigits (by omega))
  obtain ⟨hrows, -, -, hcount⟩ := hqueries q hq
  have hbookings := hrows .bookings rfl
  refine ⟨q, hq, hbookings, hcount.trans ?_⟩
  rw [hbookings.params_eq]
  rfl

end CrmQuery.Sql
