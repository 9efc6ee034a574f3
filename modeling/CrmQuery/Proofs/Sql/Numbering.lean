import CrmQuery.Proofs.Sql.Layout
import CrmQuery.Proofs.Text.Blank
import CrmQuery.Proofs.Text.Numerals
import Mathlib.Data.List.Basic

/-!
# Numbers of parameters in texts

The runs of digits after dollar signs are read off the text of a statement piece by piece
(`numberRuns_append`, `numberRuns_intercalate`).  In the text of a draft they are the numerals of
its parameters (`numberRuns_draft`), so nothing but the size of the numbers can stop a draft from
becoming a query (`exists_query_iff`).
-/

namespace CrmQuery.Sql

open Text

/-! ### Runs of digits -/

/-- A text that does not begin with a digit does not run on from the one before it. -/
theorem numberRuns_append (a : List Char) {b : List Char} (hb : ∀ c ∈ b.head?, isDigit c = false) :
    numberRuns (a ++ b) = numberRuns a ++ numberRuns b := by
  induction a with
  | nil => rfl
  | cons c a ih =>
    simp only [List.cons_append, numberRuns, takeWhile_append_of_head? a hb, ih]
    split_ifs <;> rfl

/-- A text without dollar signs can be left out in front of another one. -/
theorem numberRuns_prepend {a : List Char} (ha : '$' ∉ a) (b : List Char) :
    numberRuns (a ++ b) = numberRuns b := by
  induction a with
  | nil => rfl
  | cons c a ih =>
    have hc : c ≠ '$' := fun e => ha (e ▸ List.mem_cons_self)
    rw [List.cons_append, numberRuns, if_neg hc, ih fun h => ha (List.mem_cons_of_mem c h)]
    rfl

theorem numberRuns_eq_nil {a : List Char} (ha : '$' ∉ a) : numberRuns a = [] := by
  rw [← List.append_nil a, numberRuns_prepend ha]
  rfl

theorem numberRuns_intercalate {c : Char} {sep : List Char} (hsep : '$' ∉ c :: sep)
    (hc : isDigit c = false) : ∀ ls : List (List Char),
      numberRuns ((c :: sep).intercalate ls) = ls.flatMap numberRuns
  | [] => rfl
  | [l] => by simp
  | l :: l' :: ls => by
    have hhead :
        ∀ d ∈ (c :: sep ++ (c :: sep).intercalate (l' :: ls)).head?, isDigit d = false := by
      simpa using hc
    rw [List.intercalate_cons_cons, List.append_assoc, numberRuns_append l hhead,
      numberRuns_prepend hsep, numberRuns_intercalate hsep hc (l' :: ls)]
    rfl

theorem numberRuns_placeholder (n : Nat) :
    numberRuns (placeholder n).toList = [Nat.toDigits 10 n] := by
  have hdigits : ∀ c ∈ Nat.toDigits 10 n, isDigit c = true :=
    fun c hc => isDigit_of_isDigit (isDigit_of_mem hc)
  have hdollar : '$' ∉ Nat.toDigits 10 n := fun h => absurd (hdigits _ h) (by decide)
  have hrun : (Nat.toDigits 10 n).takeWhile isDigit = Nat.toDigits 10 n := by
    simpa using @List.takeWhile_append_of_pos Char isDigit _ [] hdigits
  have htext : (placeholder n).toList = '$' :: Nat.toDigits 10 n := by
    simp [placeholder]
  rw [htext, numberRuns, if_pos rfl, hrun, numberRuns_eq_nil hdollar]
  simp [Nat.toDigits_ne_nil]

/-! ### Numbers in statements -/

/-- The numbers of the parameters in a condition. -/
def Conjunct.numbers : Conjunct → List Nat
  | ofTenant _ => [tenantNumber]
  | notCancelled => []
  | compare _ _ number => [number]
  | between _ number => [number, number + 1]

theorem Column.not_mem_render {c : Column} (h : IsName c.name) : '$' ∉ c.render.toList := by
  have hquiet : Quiet reserved ['.'] c.render := c.quiet h (List.mem_singleton_self '.')
  exact hquiet.not_mem (by decide) (by decide)

theorem numberRuns_conjunct {k : Conjunct} (h : k.Plain) :
    numberRuns k.render.toList = k.numbers.map (Nat.toDigits 10) := by
  cases k with
  | ofTenant t =>
    have hname : IsName "tenant_id" := by decide
    have hcolumn : '$' ∉ (Column.mk t "tenant_id").render.toList := Column.not_mem_render hname
    simp only [Conjunct.render, String.toList_append]
    rw [List.append_assoc, numberRuns_prepend hcolumn, numberRuns_prepend (by decide),
      numberRuns_placeholder]
    rfl
  | notCancelled => decide
  | compare c comparison number =>
    have hsign : '$' ∉ (comparisonSign comparison).toList := by cases comparison <;> decide
    simp only [Conjunct.render, String.toList_append, List.append_assoc]
    rw [numberRuns_prepend (Column.not_mem_render h), numberRuns_prepend (by decide),
      numberRuns_prepend hsign, numberRuns_prepend (by decide), numberRuns_placeholder]
    rfl
  | between c number =>
    have hand : ∀ c ∈ (" AND ".toList ++ (placeholder (number + 1)).toList).head?,
        isDigit c = false := by
      simpa using (by decide : isDigit ' ' = false)
    simp only [Conjunct.render, String.toList_append, List.append_assoc]
    rw [numberRuns_prepend (Column.not_mem_render h), numberRuns_prepend (by decide),
      numberRuns_append _ hand, numberRuns_prepend (by decide), numberRuns_placeholder,
      numberRuns_placeholder]
    rfl

theorem numberRuns_where {ks : List Conjunct} (h : ∀ k ∈ ks, k.Plain) :
    ((clause "WHERE" "\n  AND " (ks.map Conjunct.render)).map String.toList).flatMap numberRuns =
      (ks.flatMap Conjunct.numbers).map (Nat.toDigits 10) := by
  have hsep : "\n  AND ".toList = '\n' :: [' ', ' ', 'A', 'N', 'D', ' '] := by decide
  rcases eq_or_ne ks [] with rfl | hne
  · rfl
  · obtain ⟨l, hl⟩ : ∃ l, clause "WHERE" "\n  AND " (ks.map Conjunct.render) = [l] := by
      obtain ⟨k, ks, rfl⟩ := List.exists_cons_of_ne_nil hne
      exact ⟨_, rfl⟩
    obtain ⟨-, rfl⟩ := mem_clause_iff.1 (hl ▸ List.mem_singleton_self l)
    rw [hl, List.map_singleton, List.flatMap_singleton, String.toList_append,
      numberRuns_prepend (by decide), String.toList_intercalate, hsep,
      numberRuns_intercalate (by decide) (by decide), List.map_map, List.flatMap_map,
      List.map_flatMap]
    exact List.flatMap_congr fun k hk => numberRuns_conjunct (h k hk)

/-- The numbers of the parameters in a selection, as they occur. -/
def Select.numbers (s : Select) : List Nat :=
  (if s.joined then [tenantNumber] else []) ++ s.conditions.flatMap Conjunct.numbers

theorem numberRuns_select {s : Select} (h : s.Plain) :
    numberRuns (Statement.select s).render.toList = s.numbers.map (Nat.toDigits 10) := by
  have hitems : numberRuns (renderItems s.items).toList = [] :=
    numberRuns_eq_nil ((quiet_renderItems h.items).not_mem (by decide) (by decide))
  have hsources : (s.sources.map String.toList).flatMap numberRuns =
      if s.joined then [Nat.toDigits 10 tenantNumber] else [] := by
    unfold Select.sources
    generalize s.base = t, s.joined = joined
    cases t <;> cases joined <;> decide
  have htrailer : (s.trailer.map String.toList).flatMap numberRuns = [] := by
    rw [List.flatMap_eq_nil_iff, List.forall_mem_map]
    exact fun l hl => numberRuns_eq_nil ((quiet_trailer h l hl).not_mem (by decide) (by decide))
  have hbreak : "\n".toList = ['\n'] := by decide
  unfold Statement.render Select.numbers
  rw [String.toList_intercalate, hbreak, numberRuns_intercalate (by decide) (by decide), s.lines_eq]
  simp only [List.map_cons, List.flatMap_cons, List.map_append, List.flatMap_append, hitems,
    hsources, numberRuns_where h.conditions, htrailer, List.nil_append, List.append_nil,
    List.map_append]
  split_ifs <;> rfl

/-! ### Numbers in drafts -/

theorem flatMap_numbers_conjunctsFrom (number : Nat) (keys : List (String × Operator)) :
    (conjunctsFrom number keys).flatMap Conjunct.numbers = List.range' number (arities keys) := by
  induction keys generalizing number with
  | nil => rfl
  | cons key rest ih =>
    obtain ⟨field, operator⟩ := key
    have hnumbers : (conjunctOf (columnFor field) number operator).numbers =
        List.range' number operator.arity := by
      cases operator <;> rfl
    rw [conjunctsFrom, List.flatMap_cons, hnumbers, ih, List.range'_append_1, arities_cons]

theorem flatMap_numbers_timeConjuncts (t : Table) (number : Nat) (timed : Bool) :
    (timeConjuncts t number timed).flatMap Conjunct.numbers =
      List.range' number (if timed then 2 else 0) := by
  cases timed <;> rfl

theorem length_paramsOf (c : Classification) (tenant : String) :
    (paramsOf c tenant).length =
      1 + arities (c.filters.map Filter.key) + if c.timeframe.isSome then 2 else 0 := by
  have htimes : (c.timeframe.toList.flatMap Timeframe.params).length =
      if c.timeframe.isSome then 2 else 0 := by
    cases c.timeframe <;> rfl
  rw [paramsOf, List.length_cons, List.length_append, length_flatMap_params, htimes]
  omega

theorem numbers_select {c : Classification} {s : Selection}
    (h : template? c = some (.selection s)) (limit : Int) (tenant : String) :
    (s.select limit (c.filters.map Filter.key) c.timeframe.isSome).numbers =
      (if s.joined then [1] else []) ++ List.range' 1 (paramsOf c tenant).length := by
  have hfixed : s.fixed.flatMap Conjunct.numbers = [] := by
    rcases selection_cases h with ⟨-, rfl⟩ | ⟨-, rfl⟩ | ⟨-, rfl⟩ | ⟨-, rfl⟩ <;> rfl
  have hconditions : (s.conditions (c.filters.map Filter.key) c.timeframe.isSome).flatMap
      Conjunct.numbers = List.range' 1 (paramsOf c tenant).length := by
    rw [Selection.conditions, List.flatMap_cons, List.flatMap_append, List.flatMap_append, hfixed,
      flatMap_numbers_conjunctsFrom, flatMap_numbers_timeConjuncts, List.nil_append,
      List.range'_append_1, length_paramsOf, Nat.add_assoc, Nat.add_comm 1, List.range'_succ]
    rfl
  unfold Select.numbers
  exact congrArg _ hconditions

theorem numberRuns_overview : numberRuns (Statement.overview overviewFigures).render.toList =
    [1, 1, 1, 1].map (Nat.toDigits 10) := by
  rw [toList_overview]
  decide

/-- The text of a draft refers to all its parameters in order, after some references to the
tenant. -/
theorem numberRuns_draft {limit : Int} {c : Classification} {tenant : String} {d : Draft}
    (h : draft limit c tenant = .ok d) : ∃ ns : List Nat, (∀ n ∈ ns, n = 1) ∧
      numberRuns d.statement.render.toList =
        (ns ++ List.range' 1 d.params.length).map (Nat.toDigits 10) := by
  rcases draft_cases h with ⟨-, rfl⟩ | ⟨s, hs, hfields, rfl⟩
  · exact ⟨[1, 1, 1], by simp, numberRuns_overview⟩
  · have hplain := select_plain hs (map_fst_key c.filters ▸ hfields) limit c.timeframe.isSome
    refine ⟨if s.joined then [1] else [], by split_ifs <;> simp, ?_⟩
    exact (numberRuns_select hplain).trans (by rw [numbers_select hs limit tenant]; rfl)

theorem length_params_pos {limit : Int} {c : Classification} {tenant : String} {d : Draft}
    (h : draft limit c tenant = .ok d) : 0 < d.params.length := by
  rcases draft_cases h with ⟨-, rfl⟩ | ⟨s, -, -, rfl⟩ <;> exact Nat.succ_pos _

/-! ### Numbers read back -/

theorem insertNumber_of_lt {n : Nat} {ms : List Nat} (h : ∀ m ∈ ms, n < m) :
    insertNumber n ms = n :: ms := by
  cases ms with
  | nil => rfl
  | cons m ms => exact if_pos (h m List.mem_cons_self)

theorem foldr_insertNumber_range' (k m : Nat) :
    (List.range' k m).foldr insertNumber [] = List.range' k m := by
  induction m generalizing k with
  | zero => rfl
  | succ m ih =>
    rw [List.range'_succ, List.foldr_cons, ih]
    refine insertNumber_of_lt fun n hn => ?_
    have := (List.mem_range'_1.1 hn).1
    omega

/-- Repetitions of the first number change nothing. -/
theorem foldr_insertNumber_append {n : Nat} {ns ms : List Nat} (h : ∀ m ∈ ns, m = n) :
    ns.foldr insertNumber (n :: ms) = n :: ms := by
  induction ns with
  | nil => rfl
  | cons m ns ih =>
    rw [List.foldr_cons, ih fun k hk => h k (List.mem_cons_of_mem m hk), h m List.mem_cons_self,
      insertNumber, if_neg (Nat.lt_irrefl n), if_pos rfl]

theorem mapM_readNumeral {ns : List Nat} (h : ∀ n ∈ ns, n < 10 ^ maxNumeralDigits) :
    (ns.map (Nat.toDigits 10)).mapM readNumeral = .ok ns := by
  induction ns with
  | nil => rfl
  | cons n ns ih =>
    rw [List.map_cons, List.mapM_cons, readNumeral_toDigits, if_pos (h n List.mem_cons_self),
      ih fun m hm => h m (List.mem_cons_of_mem n hm)]
    rfl

theorem exists_mapM_readNumeral_eq_error {ns : List Nat} {n : Nat} (hn : n ∈ ns)
    (h : ¬ n < 10 ^ maxNumeralDigits) :
    ∃ e, (ns.map (Nat.toDigits 10)).mapM readNumeral = .error e := by
  induction ns with
  | nil => cases hn
  | cons m ns ih =>
    rw [List.map_cons, List.mapM_cons, readNumeral_toDigits]
    rcases List.mem_cons.1 hn with rfl | hn
    · rw [if_neg h]
      exact ⟨_, rfl⟩
    · obtain ⟨e, he⟩ := ih hn
      rw [he]
      split_ifs
      · exact ⟨e, rfl⟩
      · exact ⟨_, rfl⟩

theorem parameterNumbers_draft {limit : Int} {c : Classification} {tenant : String} {d : Draft}
    (h : draft limit c tenant = .ok d) (hsize : d.params.length < 10 ^ maxNumeralDigits) :
    parameterNumbers d.statement.render = .ok (List.range' 1 d.params.length) := by
  obtain ⟨ns, hns, hruns⟩ := numberRuns_draft h
  have hpos := length_params_pos h
  have hall : ∀ n ∈ ns ++ List.range' 1 d.params.length, n < 10 ^ maxNumeralDigits := by
    intro n hn
    have hle : n ≤ d.params.length := by
      rcases List.mem_append.1 hn with hn | hn
      · rw [hns n hn]
        exact hpos
      · have := (List.mem_range'_1.1 hn).2
        omega
    exact Nat.lt_of_le_of_lt hle hsize
  obtain ⟨m, hm⟩ := Nat.exists_eq_succ_of_ne_zero (Nat.ne_of_gt hpos)
  unfold parameterNumbers
  rw [hruns, mapM_readNumeral hall, Except.map, List.foldr_append, foldr_insertNumber_range', hm,
    List.range'_succ, foldr_insertNumber_append hns]

theorem exists_parameterNumbers_eq_error {limit : Int} {c : Classification} {tenant : String}
    {d : Draft} (h : draft limit c tenant = .ok d)
    (hsize : ¬ d.params.length < 10 ^ maxNumeralDigits) :
    ∃ e, parameterNumbers d.statement.render = .error e := by
  obtain ⟨ns, -, hruns⟩ := numberRuns_draft h
  have hmem : d.params.length ∈ ns ++ List.range' 1 d.params.length := by
    have hpos := length_params_pos h
    rw [List.mem_append, List.mem_range'_1]
    omega
  obtain ⟨e, he⟩ := exists_mapM_readNumeral_eq_error hmem hsize
  unfold parameterNumbers
  rw [hruns, he]
  exact ⟨e, rfl⟩

/-! ### Queries of drafts -/

/-- The numbers in the text of a draft are those of its parameters, if they can be read. -/
theorem of_ne_mismatch {limit : Int} {c : Classification} {tenant : String} {d : Draft}
    (h : draft limit c tenant = .ok d) (tables : List String) (visualization : Visualization)
    (columns : List String) (numbers : List Nat) (values : Nat) :
    Query.of d.statement.render d.params tables visualization columns ≠
      .error (.mismatch numbers values) := by
  unfold Query.of
  split
  · simp
  · rename_i ns hns
    have hsize : d.params.length < 10 ^ maxNumeralDigits := by
      by_contra hsize
      obtain ⟨e, he⟩ := exists_parameterNumbers_eq_error h hsize
      rw [he] at hns
      cases hns
    rw [parameterNumbers_draft h hsize] at hns
    rw [dif_pos (Except.ok.inj hns).symm]
    simp

/-- The query of a draft is made from its parts. -/
theorem query_eq_ok {d : Draft} {q : Query} (h : d.query = .ok q) :
    q.sql = d.statement.render ∧ q.params = d.params ∧
      q.tables = d.statement.tables.map Table.name ∧ q.visualization = d.visualization ∧
      q.expectedColumns = d.columns := by
  unfold Draft.query Query.of at h
  split at h
  · cases h
  · split_ifs at h
    · cases h
      exact ⟨rfl, rfl, rfl, rfl, rfl⟩
    · cases h

theorem exists_query_eq_ok {d : Draft}
    (h : parameterNumbers d.statement.render = .ok (List.range' 1 d.params.length)) :
    ∃ q, d.query = .ok q := by
  unfold Draft.query Query.of
  split
  · rename_i e he
    rw [h] at he
    cases he
  · rename_i numbers hnumbers
    rw [h] at hnumbers
    rw [dif_pos (Except.ok.inj hnumbers).symm]
    exact ⟨_, rfl⟩

/-- A draft becomes a query unless the numbers of its parameters are too long to be read. -/
theorem exists_query_iff {limit : Int} {c : Classification} {tenant : String} {d : Draft}
    (h : draft limit c tenant = .ok d) :
    (∃ q, d.query = .ok q) ↔ d.params.length < 10 ^ maxNumeralDigits := by
  constructor
  · rintro ⟨q, hq⟩
    by_contra hsize
    obtain ⟨e, he⟩ := exists_parameterNumbers_eq_error h hsize
    have hnumbered := q.numbered
    rw [(query_eq_ok hq).1, he] at hnumbered
    cases hnumbered
  · exact fun hsize => exists_query_eq_ok (parameterNumbers_draft h hsize)

theorem compile_eq_query {limit : Int} {c : Classification} {tenant : String} {d : Draft}
    (h : draft limit c tenant = .ok d) : compile limit c tenant = d.query := by
  unfold compile
  rw [h]
  rfl

/-- A draft with few parameters becomes a query with these parameters and the text of the draft. -/
theorem exists_compile_eq {limit : Int} {c : Classification} {tenant : String} {d : Draft}
    (h : draft limit c tenant = .ok d) (hsize : d.params.length < 10 ^ maxNumeralDigits) :
    ∃ q, compile limit c tenant = .ok q ∧ q.sql = d.statement.render ∧ q.params = d.params := by
  obtain ⟨q, hq⟩ := (exists_query_iff h).2 hsize
  obtain ⟨hsql, hparams, -⟩ := query_eq_ok hq
  exact ⟨q, (compile_eq_query h).trans hq, hsql, hparams⟩

theorem exists_draft_of_compile {limit : Int} {c : Classification} {tenant : String} {q : Query}
    (h : compile limit c tenant = .ok q) :
    ∃ d, draft limit c tenant = .ok d ∧ d.query = .ok q := by
  unfold compile at h
  cases hd : draft limit c tenant with
  | error e =>
    rw [hd] at h
    cases h
  | ok d =>
    rw [hd] at h
    exact ⟨d, rfl, h⟩

/-- A query binds the values of its classification; the overview binds the tenant alone. -/
theorem params_of_compile {limit : Int} {c : Classification} {tenant : String} {q : Query}
    (h : compile limit c tenant = .ok q) :
    q.params = if c.domain = .analytics then [.string tenant] else paramsOf c tenant := by
  obtain ⟨d, hdraft, hquery⟩ := exists_draft_of_compile h
  obtain ⟨-, hparams, -⟩ := query_eq_ok hquery
  rcases draft_cases hdraft with ⟨hd, rfl⟩ | ⟨s, hs, -, rfl⟩
  · rw [if_pos hd]
    exact hparams
  · rw [if_neg (ne_analytics hs)]
    exact hparams

/-- An environment only decides how many rows a list may have. -/
theorem exists_compile_of_compileIn {env : Environment} {c : Classification} {tenant : String}
    {q : Query} (h : compileIn env c tenant = .ok q) : ∃ limit, compile limit c tenant = .ok q := by
  unfold compileIn at h
  cases hdefault : compile Settings.default.resultLimit c tenant with
  | error e =>
    rw [hdefault] at h
    cases h
  | ok q' =>
    rw [hdefault] at h
    simp only [bind, Except.bind] at h
    split_ifs at h
    · cases hread : (Settings.read env).mapError BuildFault.invalidSettings with
      | error e =>
        rw [hread] at h
        cases h
      | ok settings =>
        rw [hread] at h
        exact ⟨settings.resultLimit, h⟩
    · cases h
      exact ⟨Settings.default.resultLimit, hdefault⟩

end CrmQuery.Sql
