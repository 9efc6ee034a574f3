import CrmQuery.Proofs.Sql.Denylist
import CrmQuery.Proofs.Sql.Numbering

/-!
# Statements are safe

A text that begins with SELECT has no violations if it is put together from harmless words and signs
and has at most one dash (`violations_eq_nil`).  The texts of all drafts are of this kind
(`violations_draft`), so no query that is compiled is ever refused (`compile_safe`).
-/

namespace CrmQuery.Sql

open Text Pattern

/-- The signs in statements. -/
def statementSigns : List Char := '\n' :: '-' :: (itemSigns ++ conjunctSigns)

/-! ### Texts without violations -/

theorem violations_eq_nil {sql : String} {rest : List Char}
    (hstart : sql.toList = "SELECT".toList ++ rest) (hrest : isWordAt rest.head? = false)
    (hquiet : Quiet denied statementSigns sql) (hdash : sql.toList.count '-' ≤ 1) :
    violations sql = [] := by
  obtain ⟨kept, cut, rfl, -, hstrip⟩ :=
    exists_strip_eq (u := "SELECT".toList) (v := rest) (by decide) (by decide)
  rw [← hstart] at hstrip
  have hkept : isWordAt kept.head? = false := by
    cases kept with
    | nil => rfl
    | cons c kept => exact hrest
  have hwords : ∀ x ∈ words (strip sql.toList), ∀ w ∈ denied, ¬ Spells w x := by
    have hsmall : ∀ w ∈ denied, ∀ k ∈ w.toList, k.isLower = true := by decide
    rw [words_strip]
    intro x hx w hw hspells
    exact hquiet.avoids x hx (List.mem_map.2 ⟨w, hw, ((spells_iff (hsmall w hw)).1 hspells).symm⟩)
  have hsigns : ∀ c ∈ [';', '/'], c ∉ strip sql.toList := by
    have houtside : ∀ c ∈ [';', '/'],
        isBlank c = false ∧ isWord c = false ∧ c ∉ statementSigns := by decide
    intro c hc
    obtain ⟨hblank, hword, hsign⟩ := houtside c hc
    rw [← List.count_eq_zero, count_strip hblank, List.count_eq_zero]
    exact hquiet.not_mem hword hsign
  rw [violations_eq, breaches_eq_nil_iff]
  refine ⟨by simp [hstrip], ⟨"select", by decide, ?_⟩, ?_, hwords, fun hpart => ?_, fun hpart => ?_⟩
  · rw [hstrip, takeWhile_isWord_append (by decide) hkept]
    decide
  · exact fun hmem => hsigns ';' (by decide) (List.dropLast_subset _ hmem)
  · have htwo : ("--".toList).count '-' = 2 := by decide
    have hle := hpart.sublist.count_le '-'
    rw [count_strip (by decide)] at hle
    omega
  · exact hsigns '/' (by decide) (hpart.subset (by simp))

/-! ### Texts of selections -/

theorem count_intercalate {c : Char} {sep : List Char} (hc : c ∉ sep) :
    ∀ ls : List (List Char), (sep.intercalate ls).count c = (ls.map (List.count c)).sum
  | [] => rfl
  | [l] => by simp
  | l :: l' :: ls => by
    rw [List.intercalate_cons_cons, List.count_append, List.count_append,
      List.count_eq_zero_of_not_mem hc, count_intercalate hc (l' :: ls)]
    rfl

theorem quiet_sources (s : Select) : ∀ l ∈ s.sources, Quiet denied statementSigns l := by
  unfold Select.sources
  generalize s.base = t, s.joined = joined
  cases t <;> cases joined <;> decide

theorem quiet_select {s : Select} (h : s.Plain) :
    Quiet denied statementSigns (Statement.select s).render := by
  have hdenied : denied ⊆ reserved := (List.suffix_append ["from", "join"] denied).subset
  unfold Statement.render
  refine Quiet.intercalate (by decide) ?_
  rw [s.lines_eq]
  simp only [List.forall_mem_cons, List.forall_mem_append]
  refine ⟨?_, quiet_sources s, ?_, ?_⟩
  · exact (quiet_renderItems h.items).mono hdenied (by decide)
  · exact fun l hl => (quiet_where h.conditions l hl).mono hdenied (by decide)
  · exact fun l hl => (quiet_trailer h l hl).mono hdenied (by decide)

theorem count_toString_int (n : Int) : (toString n).toList.count '-' ≤ 1 := by
  have hdigits : ∀ m : Nat, (toString m).toList.count '-' = 0 := by
    intro m
    rw [toList_toString, List.count_eq_zero]
    exact fun h => absurd (isDigit_of_mem h) (by decide)
  cases n with
  | ofNat m =>
    have htext : toString (Int.ofNat m) = toString m := rfl
    rw [htext, hdigits]
    exact Nat.zero_le 1
  | negSucc m =>
    have htext : toString (Int.negSucc m) = "-" ++ toString (m + 1) := rfl
    have hdash : "-".toList.count '-' = 1 := by decide
    rw [htext, String.toList_append, List.count_append, hdash, hdigits]

theorem sum_count_eq_zero {ls : List String} (h : ∀ l ∈ ls, '-' ∉ l.toList) :
    ((ls.map String.toList).map (List.count '-')).sum = 0 := by
  simp only [List.map_map, List.sum_eq_zero_iff_forall_eq_nat, List.forall_mem_map]
  exact fun l hl => List.count_eq_zero_of_not_mem (h l hl)

theorem sum_count_limit (limit : Option Int) :
    (((clause "LIMIT" "" (limit.toList.map toString)).map String.toList).map
      (List.count '-')).sum ≤ 1 := by
  cases limit with
  | none => exact Nat.zero_le 1
  | some n =>
    obtain ⟨l, hl⟩ : ∃ l, clause "LIMIT" "" ((some n).toList.map toString) = [l] := ⟨_, rfl⟩
    obtain ⟨m, rfl⟩ := eq_of_mem_limit (hl ▸ List.mem_singleton_self l)
    have hword : "LIMIT ".toList.count '-' = 0 := by decide
    rw [hl, List.map_singleton, List.map_singleton, List.sum_singleton, String.toList_append,
      List.count_append, hword, Nat.zero_add]
    exact count_toString_int m

/-- Only the limit may be negative. -/
theorem count_select {s : Select} (h : s.Plain) :
    (Statement.select s).render.toList.count '-' ≤ 1 := by
  have hbefore : ∀ l ∈ renderItems s.items :: (s.sources ++
      (clause "WHERE" "\n  AND " (s.conditions.map Conjunct.render) ++
        (clause "GROUP BY" ", " (s.groupBy.map Column.render) ++
          clause "ORDER BY" ", " (s.orderBy.map OrderKey.render)))), '-' ∉ l.toList := by
    have hsources : ∀ l ∈ s.sources, '-' ∉ l.toList := by
      unfold Select.sources
      generalize s.base = t, s.joined = joined
      cases t <;> cases joined <;> decide
    simp only [List.forall_mem_cons, List.forall_mem_append]
    refine ⟨?_, hsources, fun l hl => ?_, fun l hl => ?_, fun l hl => ?_⟩
    · exact (quiet_renderItems h.items).not_mem (by decide) (by decide)
    · exact (quiet_where h.conditions l hl).not_mem (by decide) (by decide)
    · exact (quiet_groupBy h l hl).not_mem (by decide) (by decide)
    · exact (quiet_orderBy h l hl).not_mem (by decide) (by decide)
  have hlines : s.lines = (renderItems s.items :: (s.sources ++
      (clause "WHERE" "\n  AND " (s.conditions.map Conjunct.render) ++
        (clause "GROUP BY" ", " (s.groupBy.map Column.render) ++
          clause "ORDER BY" ", " (s.orderBy.map OrderKey.render))))) ++
      clause "LIMIT" "" (s.limit.toList.map toString) := by
    simp only [s.lines_eq, Select.trailer, List.append_assoc, List.cons_append]
  unfold Statement.render
  rw [String.toList_intercalate, count_intercalate (by decide), hlines, List.map_append,
    List.map_append, List.sum_append, sum_count_eq_zero hbefore, Nat.zero_add]
  exact sum_count_limit s.limit

theorem exists_intercalate_cons (sep l : List Char) (ls : List (List Char)) :
    ∃ t, sep.intercalate (l :: ls) = l ++ t := by
  cases ls with
  | nil => exact ⟨[], by simp⟩
  | cons l' ls => exact ⟨_, by rw [List.intercalate_cons_cons, List.append_assoc]⟩

/-- A statement begins with the word SELECT. -/
theorem exists_select_eq (s : Select) : ∃ rest,
    (Statement.select s).render.toList = "SELECT".toList ++ rest ∧ isWordAt rest.head? = false := by
  have hitems : ∃ c rest, (renderItems s.items).toList = "SELECT".toList ++ c :: rest ∧
      isWord c = false := by
    have hblank : "SELECT ".toList = "SELECT".toList ++ [' '] := by decide
    have hbreak : "SELECT\n  ".toList = "SELECT".toList ++ ['\n', ' ', ' '] := by decide
    unfold renderItems
    split
    · rw [String.toList_append, hblank, List.append_assoc]
      exact ⟨' ', _, rfl, by decide⟩
    · rw [String.toList_append, hbreak, List.append_assoc]
      exact ⟨'\n', _, rfl, by decide⟩
  obtain ⟨c, rest, hrest, hc⟩ := hitems
  unfold Statement.render
  rw [String.toList_intercalate, s.lines_eq, List.map_cons]
  obtain ⟨t, ht⟩ := exists_intercalate_cons "\n".toList (renderItems s.items).toList
    ((s.sources ++ (clause "WHERE" "\n  AND " (s.conditions.map Conjunct.render) ++
      s.trailer)).map String.toList)
  rw [ht, hrest, List.append_assoc]
  exact ⟨_, rfl, hc⟩

theorem violations_select {s : Select} (h : s.Plain) :
    violations (Statement.select s).render = [] := by
  obtain ⟨rest, hstart, hrest⟩ := exists_select_eq s
  exact violations_eq_nil hstart hrest (quiet_select h) (count_select h)

/-! ### The overview -/

theorem violations_overview : violations (Statement.overview overviewFigures).render = [] := by
  obtain ⟨hchars, havoids, hdash⟩ :
      (∀ c ∈ (Statement.overview overviewFigures).render.toList,
        isWord c = true ∨ c ∈ statementSigns) ∧
      Avoids denied (Statement.overview overviewFigures).render.toList ∧
      (Statement.overview overviewFigures).render.toList.count '-' ≤ 1 := by
    rw [toList_overview]
    decide +kernel
  obtain ⟨rest, hrest⟩ : ∃ rest, "SELECT\n  ".toList ++ rest =
      (Statement.overview overviewFigures).render.toList := ⟨_, (toList_overview _).symm⟩
  have hstart : "SELECT\n  ".toList = "SELECT".toList ++ ['\n', ' ', ' '] := by decide
  rw [hstart, List.append_assoc] at hrest
  exact violations_eq_nil hrest.symm (by rfl) ⟨hchars, havoids⟩ hdash

/-- The text of every draft is safe. -/
theorem violations_draft {limit : Int} {c : Classification} {tenant : String} {d : Draft}
    (h : draft limit c tenant = .ok d) : violations d.statement.render = [] := by
  rcases draft_cases h with ⟨-, rfl⟩ | ⟨s, hs, hfields, rfl⟩
  · exact violations_overview
  · rw [← map_fst_key] at hfields
    exact violations_select (select_plain hs hfields limit _)

/-! ### Queries -/

theorem violations_compile {limit : Int} {c : Classification} {tenant : String} {q : Query}
    (h : compile limit c tenant = .ok q) : violations q.sql = [] := by
  obtain ⟨d, hd, hq⟩ := exists_draft_of_compile h
  obtain ⟨hsql, -⟩ := query_eq_ok hq
  rw [hsql]
  exact violations_draft hd

/-- Whatever is compiled may be run, for every classification, tenant and greatest number of rows,
negative ones included, and in every environment. -/
theorem compile_safe (c : Classification) (tenant : String) :
    (∀ limit q, compile limit c tenant = .ok q → violations q.sql = [] ∧ isSafe q.sql = true) ∧
    ∀ env q, compileIn env c tenant = .ok q → violations q.sql = [] ∧ isSafe q.sql = true := by
  have hsafe : ∀ limit q, compile limit c tenant = .ok q →
      violations q.sql = [] ∧ isSafe q.sql = true := by
    intro limit q hq
    have hnone := violations_compile hq
    exact ⟨hnone, by rw [isSafe, hnone]; rfl⟩
  refine ⟨hsafe, fun env q hq => ?_⟩
  obtain ⟨limit, hlimit⟩ := exists_compile_of_compileIn hq
  exact hsafe limit q hlimit

/-- A negative number of rows puts one dash into the text, which begins no comment. -/
theorem compile_safe_negative_limit :
    let c := Classification.ofFilters .bookings .list [
      ⟨"city", .compare .like (.text "'; DROP TABLE contacts --")⟩,
      ⟨"total_amount", .between (.int 0) (.int (-1))⟩]
    (∃ q, compile (-1) c "acme" = .ok q ∧ violations q.sql = [] ∧ isSafe q.sql = true) ∧
      ∃ q, compileIn (Environment.empty.set "result_limit" "-1") c "acme" = .ok q ∧
        violations q.sql = [] ∧ isSafe q.sql = true := by
  intro c
  have hcompile : ∀ limit, ∃ q, compile limit c "acme" = .ok q := by
    intro limit
    have hdraft : ∃ d, draft limit c "acme" = .ok d ∧ d.params.length = 4 := ⟨_, rfl, rfl⟩
    obtain ⟨d, hd, hlength⟩ := hdraft
    obtain ⟨q, hq, -⟩ := exists_compile_eq hd (lt_pow_maxNumeralDigits (by omega))
    exact ⟨q, hq⟩
  obtain ⟨hsafe, hsafeIn⟩ := compile_safe c "acme"
  constructor
  · obtain ⟨q, hq⟩ := hcompile (-1)
    exact ⟨q, hq, hsafe (-1) q hq⟩
  · have hread : ∃ s, Settings.read (Environment.empty.set "result_limit" "-1") = .ok s ∧
        s.resultLimit = -1 := ⟨_, rfl, rfl⟩
    obtain ⟨s, hs, hlimit⟩ := hread
    obtain ⟨q₀, hq₀⟩ := hcompile Settings.default.resultLimit
    obtain ⟨q, hq⟩ := hcompile (-1)
    have hin : compileIn (Environment.empty.set "result_limit" "-1") c "acme" = .ok q := by
      have hlimited : isLimited c = true := rfl
      unfold compileIn
      rw [hq₀, hs, hlimited]
      simp only [bind, Except.bind, Except.mapError, if_true, hlimit]
      exact hq
    exact ⟨q, hin, hsafeIn _ q hin⟩

end CrmQuery.Sql
