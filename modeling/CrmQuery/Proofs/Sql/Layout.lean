import CrmQuery.Proofs.Sql.Rendering

/-!
# Reading statements back

A reader of a text finds its tables and conditions without knowing how it was made: `clauseBodies`
takes what follows a keyword at the beginning of a clause, `whereConjuncts` cuts the WHERE clauses
at their ANDs, and `tableWords` lists the words right after any FROM or JOIN.  On the text of a
selection with plain names they find what the selection says (`clauseBodies_from`,
`clauseBodies_join`, `whereConjuncts_render`, `tableWords_render`).
-/

namespace CrmQuery.Sql

open Text

/-- What follows a keyword in the clauses of a text that begin with it. -/
def clauseBodies (keyword sql : String) : List String :=
  (bodies keyword.toList sql.toList).map String.ofList

/-- The parts of a text between the occurrences of a separator. -/
def cutAt (separator s : String) : List String :=
  (pieces separator.toList s.toList).map String.ofList

/-- The conditions of each WHERE clause. -/
def whereConjuncts (sql : String) : List (List String) :=
  (clauseBodies "WHERE" sql).map (cutAt "\n  AND ")

/-- The words right after FROM or JOIN. -/
def tableWords (s : List Char) : List String :=
  (followers ["from", "join"] (words s)).map String.ofList

theorem clauseBodies_eq_singleton {x : Char} {keyword body sql : String}
    (hx : keyword.toList.head? = some x) {before after : List String}
    (hs : clauses sql.toList = (before ++ (keyword ++ " " ++ body) :: after).map String.toList)
    (hbefore : ∀ l ∈ before, l.toList.head? ≠ some x)
    (hafter : ∀ l ∈ after, l.toList.head? ≠ some x) : clauseBodies keyword sql = [body] := by
  have hline : (keyword ++ " " ++ body).toList = keyword.toList ++ ' ' :: body.toList := by simp
  rw [List.map_append, List.map_cons, hline] at hs
  unfold clauseBodies
  rw [bodies_eq_singleton hx hs (List.forall_mem_map.2 hbefore) (List.forall_mem_map.2 hafter),
    List.map_singleton, String.ofList_toList]

/-- Texts that do not have the first character of a separator are found between its occurrences. -/
theorem cutAt_intercalate {x : Char} {separator : String} {texts : List String}
    (hx : separator.toList.head? = some x) (hne : texts ≠ []) (h : ∀ t ∈ texts, x ∉ t.toList) :
    cutAt separator (separator.intercalate texts) = texts := by
  obtain ⟨xs, hsep⟩ : ∃ xs, separator.toList = x :: xs := List.head?_eq_some_iff.1 hx
  unfold cutAt
  rw [String.toList_intercalate, hsep,
    pieces_intercalate (by simpa using hne) (List.forall_mem_map.2 h), List.map_map]
  exact (List.map_congr_left fun t _ => String.ofList_toList).trans (List.map_id _)

/-! ### Lines -/

/-- A text is one clause and begins with a given letter. -/
def IsClause (x : Char) (l : String) : Prop :=
  clauses l.toList = [l.toList] ∧ l.toList.head? = some x

instance (x : Char) (l : String) : Decidable (IsClause x l) := inferInstanceAs (Decidable (_ ∧ _))

theorem IsClause.head?_ne {x y : Char} {l : String} (h : IsClause x l) (hxy : x ≠ y) :
    l.toList.head? ≠ some y :=
  fun e => hxy (Option.some.inj (h.2.symm.trans e))

/-- The lines that name the tables. -/
def Select.sources (s : Select) : List String :=
  ("FROM " ++ s.base.name ++ " AS " ++ s.base.shortName) :: if s.joined then [joinLine] else []

/-- The lines after the conditions. -/
def Select.trailer (s : Select) : List String :=
  clause "GROUP BY" ", " (s.groupBy.map Column.render) ++
  clause "ORDER BY" ", " (s.orderBy.map OrderKey.render) ++
  clause "LIMIT" "" (s.limit.toList.map toString)

theorem Select.lines_eq (s : Select) :
    s.lines = renderItems s.items :: (s.sources ++
      (clause "WHERE" "\n  AND " (s.conditions.map Conjunct.render) ++ s.trailer)) := by
  simp only [lines, sources, trailer, List.append_assoc, List.cons_append, List.nil_append]

theorem mem_clause_iff {keyword separator l : String} {texts : List String} :
    l ∈ clause keyword separator texts ↔
      texts ≠ [] ∧ l = keyword ++ " " ++ separator.intercalate texts := by
  cases texts with
  | nil => simp [clause]
  | cons t ts => simp [clause]

theorem quiet_clause {bad : List String} {signs : List Char} {keyword separator : String}
    {texts : List String} (hk : Opens bad signs (keyword ++ " "))
    (hsep : Separates bad signs separator) (h : ∀ t ∈ texts, Quiet bad signs t) :
    ∀ l ∈ clause keyword separator texts, Quiet bad signs l := by
  intro l hl
  obtain ⟨-, rfl⟩ := mem_clause_iff.1 hl
  exact (Quiet.intercalate hsep h).after hk

theorem head?_clause {x : Char} {keyword separator : String} {texts : List String}
    (hk : keyword.toList.head? = some x) :
    ∀ l ∈ clause keyword separator texts, l.toList.head? = some x := by
  intro l hl
  obtain ⟨-, rfl⟩ := mem_clause_iff.1 hl
  rw [String.toList_append, String.toList_append, List.append_assoc, List.head?_append, hk,
    Option.some_or]

/-- A harmless text without line breaks is one clause. -/
theorem clauses_of_quiet {bad : List String} {signs : List Char} {l : String}
    (h : Quiet bad signs l) (hsigns : '\n' ∉ signs) : clauses l.toList = [l.toList] :=
  clauses_eq_singleton (h.not_mem (by decide) hsigns)

theorem isClause_renderItems {items : List Item} (h : ∀ i ∈ items, i.Plain) :
    IsClause 'S' (renderItems items) := by
  have hline : ∀ t ∈ items.map Item.render, '\n' ∉ t.toList := by
    intro t ht
    obtain ⟨i, hi, rfl⟩ := List.mem_map.1 ht
    exact (Item.quiet (h i hi)).not_mem (by decide) (by decide)
  have hcommas : clauses ("SELECT\n  " ++ commaLines (items.map Item.render)).toList =
      [("SELECT\n  " ++ commaLines (items.map Item.render)).toList] := by
    have hlines : ∀ t ∈ (items.map Item.render).map String.toList, '\n' ∉ t := by simpa using hline
    have hindented := clauses_intercalate_indented (x := [',']) (y := [' ']) (by decide) (by decide)
      hlines
    have hstart : "SELECT\n  ".toList = "SELECT".toList ++ '\n' :: [' ', ' '] := by decide
    rw [String.toList_append, commaLines, String.toList_intercalate, hstart, List.append_assoc]
    exact clauses_prepend (by decide) (clauses_cons_eq_singleton_iff.2
      ⟨fun _ => rfl, clauses_prepend (by decide) hindented⟩)
  unfold renderItems
  split
  · rename_i i
    have hi : '\n' ∉ i.render.toList := hline _ (by simp)
    exact ⟨clauses_eq_singleton (by simpa using hi), by simp⟩
  · exact ⟨hcommas, by simp⟩

theorem isClause_from (t : Table) : IsClause 'F' ("FROM " ++ t.name ++ " AS " ++ t.shortName) := by
  cases t <;> decide

theorem isClause_joinLine : IsClause 'J' joinLine := by
  decide

theorem isClause_where {ks : List Conjunct} (h : ∀ k ∈ ks, k.Plain) :
    ∀ l ∈ clause "WHERE" "\n  AND " (ks.map Conjunct.render), IsClause 'W' l := by
  intro l hl
  refine ⟨?_, head?_clause (by decide) l hl⟩
  obtain ⟨-, rfl⟩ := mem_clause_iff.1 hl
  have hline : ∀ t ∈ (ks.map Conjunct.render).map String.toList, '\n' ∉ t := by
    simpa using fun k hk => (Conjunct.quiet (h k hk)).not_mem (by decide) (by decide)
  have hindented := clauses_intercalate_indented (x := []) (y := " AND ".toList) (by decide)
    (by decide) hline
  rw [String.toList_append, String.toList_intercalate]
  exact clauses_prepend (by decide) hindented

/-- The signs in the lines after the conditions. -/
def trailerSigns : List Char := '-' :: itemSigns

theorem quiet_toString_int (n : Int) {signs : List Char} (h : '-' ∈ signs) :
    Quiet reserved signs (toString n) := by
  cases n with
  | ofNat m => exact quiet_toString m _
  | negSucc m =>
    have hminus : Opens reserved ['-'] "-" := by decide
    exact ((quiet_toString (m + 1) _).after hminus).mono (List.Subset.refl _) (by simpa using h)

theorem quiet_groupBy {s : Select} (h : s.Plain) :
    ∀ l ∈ clause "GROUP BY" ", " (s.groupBy.map Column.render), Quiet reserved itemSigns l := by
  refine quiet_clause (by decide) (by decide) (List.forall_mem_map.2 ?_)
  exact fun c hc => c.quiet (h.groupBy c hc) (by decide)

theorem quiet_orderBy {s : Select} (h : s.Plain) :
    ∀ l ∈ clause "ORDER BY" ", " (s.orderBy.map OrderKey.render), Quiet reserved itemSigns l := by
  refine quiet_clause (by decide) (by decide) (List.forall_mem_map.2 ?_)
  exact fun k hk => OrderKey.quiet (h.orderBy k hk)

theorem eq_of_mem_limit {limit : Option Int} {l : String}
    (h : l ∈ clause "LIMIT" "" (limit.toList.map toString)) :
    ∃ n : Int, l = "LIMIT " ++ toString n := by
  cases limit with
  | none => cases h
  | some n =>
    obtain ⟨-, rfl⟩ := mem_clause_iff.1 h
    rw [Option.toList_some, List.map_singleton, String.intercalate_singleton]
    exact ⟨n, rfl⟩

theorem quiet_trailer {s : Select} (h : s.Plain) :
    ∀ l ∈ s.trailer, Quiet reserved trailerSigns l := by
  have hsigns : itemSigns ⊆ trailerSigns := List.subset_cons_self _ _
  intro l hl
  simp only [Select.trailer, List.mem_append] at hl
  rcases hl with (hl | hl) | hl
  · exact (quiet_groupBy h l hl).mono (List.Subset.refl _) hsigns
  · exact (quiet_orderBy h l hl).mono (List.Subset.refl _) hsigns
  · obtain ⟨n, rfl⟩ := eq_of_mem_limit hl
    exact (quiet_toString_int n (by decide)).after (by decide)

theorem isClause_trailer {s : Select} (h : s.Plain) :
    ∀ l ∈ s.trailer, ∃ x ∈ ['G', 'O', 'L'], IsClause x l := by
  intro l hl
  have hclause := clauses_of_quiet (quiet_trailer h l hl) (by decide)
  simp only [Select.trailer, List.mem_append] at hl
  rcases hl with (hl | hl) | hl
  · exact ⟨'G', by simp, hclause, head?_clause (by decide) l hl⟩
  · exact ⟨'O', by simp, hclause, head?_clause (by decide) l hl⟩
  · exact ⟨'L', by simp, hclause, head?_clause (by decide) l hl⟩

/-! ### Clauses -/

theorem clauses_render {s : Select} (h : s.Plain) :
    clauses (Statement.select s).render.toList = s.lines.map String.toList := by
  have hone : ∀ {x : Char} {l : String}, IsClause x l → x ≠ ' ' →
      clauses l.toList = [l.toList] ∧ l.toList.head? ≠ some ' ' :=
    fun hl hx => ⟨hl.1, hl.head?_ne hx⟩
  have hall : ∀ l ∈ s.lines, clauses l.toList = [l.toList] ∧ l.toList.head? ≠ some ' ' := by
    intro l hl
    rw [s.lines_eq, List.mem_cons, List.mem_append, List.mem_append] at hl
    rcases hl with rfl | hl | hl | hl
    · exact hone (isClause_renderItems h.items) (by decide)
    · rcases List.mem_cons.1 hl with rfl | hl
      · exact hone (isClause_from s.base) (by decide)
      · split_ifs at hl
        · rw [List.mem_singleton.1 hl]
          exact hone isClause_joinLine (by decide)
        · cases hl
    · exact hone (isClause_where h.conditions l hl) (by decide)
    · obtain ⟨x, hx, hl⟩ := isClause_trailer h l hl
      exact hone hl (by rintro rfl; simp at hx)
  unfold Statement.render
  rw [String.toList_intercalate]
  refine clauses_intercalate (by simp [s.lines_eq]) ?_
  simpa using hall

theorem head?_join_ne {s : Select} {y : Char} (hy : y ≠ 'J') :
    ∀ l ∈ if s.joined then [joinLine] else [], l.toList.head? ≠ some y := by
  intro l hl
  split_ifs at hl
  · rw [List.mem_singleton.1 hl]
    exact isClause_joinLine.head?_ne hy.symm
  · cases hl

section Bodies

variable {s : Select} (h : s.Plain)
include h

theorem head?_items_ne {y : Char} (hy : y ≠ 'S') : (renderItems s.items).toList.head? ≠ some y :=
  (isClause_renderItems h.items).head?_ne hy.symm

theorem head?_where_ne {y : Char} (hy : y ≠ 'W') :
    ∀ l ∈ clause "WHERE" "\n  AND " (s.conditions.map Conjunct.render), l.toList.head? ≠ some y :=
  fun l hl => (isClause_where h.conditions l hl).head?_ne hy.symm

theorem head?_trailer_ne {y : Char} (hy : y ∉ ['G', 'O', 'L']) :
    ∀ l ∈ s.trailer, l.toList.head? ≠ some y := by
  intro l hl
  obtain ⟨x, hx, hclause⟩ := isClause_trailer h l hl
  exact hclause.head?_ne fun e => hy (e ▸ hx)

/-- The only FROM of the text reads from the base table. -/
theorem clauseBodies_from : clauseBodies "FROM" (Statement.select s).render =
    [s.base.name ++ " AS " ++ s.base.shortName] := by
  have hlines := clauses_render h
  have hfrom : "FROM " ++ s.base.name ++ " AS " ++ s.base.shortName =
      "FROM" ++ " " ++ (s.base.name ++ " AS " ++ s.base.shortName) := by
    cases s.base <;> rfl
  rw [s.lines_eq, Select.sources, hfrom, List.cons_append] at hlines
  refine clauseBodies_eq_singleton (x := 'F') (by decide)
    (show _ = List.map _ ([_] ++ _ :: _) from hlines) ?_ ?_
  · exact List.forall_mem_singleton.2 (head?_items_ne h (by decide))
  · simp only [List.forall_mem_append]
    exact ⟨head?_join_ne (by decide), head?_where_ne h (by decide), head?_trailer_ne h (by decide)⟩

/-- Where contacts are joined, the only JOIN of the text is on those of the tenant. -/
theorem clauseBodies_join : clauseBodies "JOIN" (Statement.select s).render =
    if s.joined then ["contacts AS c ON c.id = b.contact_id AND c.tenant_id = $1"] else [] := by
  have hlines := clauses_render h
  have hafter : ∀ l ∈ clause "WHERE" "\n  AND " (s.conditions.map Conjunct.render) ++ s.trailer,
      l.toList.head? ≠ some 'J' :=
    List.forall_mem_append.2 ⟨head?_where_ne h (by decide), head?_trailer_ne h (by decide)⟩
  have hbefore : ∀ l ∈ [renderItems s.items, "FROM " ++ s.base.name ++ " AS " ++ s.base.shortName],
      l.toList.head? ≠ some 'J' :=
    List.forall_mem_cons.2 ⟨head?_items_ne h (by decide),
      List.forall_mem_singleton.2 ((isClause_from s.base).head?_ne (by decide))⟩
  rw [s.lines_eq, Select.sources] at hlines
  cases hjoined : s.joined with
  | false =>
    rw [hjoined] at hlines
    have hnone : bodies "JOIN".toList (Statement.select s).render.toList = [] := by
      refine bodies_eq_nil (x := 'J') (by decide) ?_
      rw [hlines, List.forall_mem_map]
      exact List.forall_mem_append.2 ⟨hbefore, hafter⟩
    unfold clauseBodies
    rw [hnone]
    rfl
  | true =>
    have hline : joinLine =
        "JOIN" ++ " " ++ "contacts AS c ON c.id = b.contact_id AND c.tenant_id = $1" := by
      decide
    rw [hjoined, if_pos rfl, hline] at hlines
    exact clauseBodies_eq_singleton (x := 'J') (by decide)
      (show _ = List.map _ ([_, _] ++ _ :: _) from hlines) hbefore hafter

/-- The conditions of the only WHERE of the text are those of the selection. -/
theorem whereConjuncts_render (hne : s.conditions ≠ []) :
    whereConjuncts (Statement.select s).render = [s.conditions.map Conjunct.render] := by
  have hlines := clauses_render h
  have hwhere : clause "WHERE" "\n  AND " (s.conditions.map Conjunct.render) =
      ["WHERE" ++ " " ++ "\n  AND ".intercalate (s.conditions.map Conjunct.render)] := by
    obtain ⟨k, ks, hk⟩ := List.exists_cons_of_ne_nil hne
    rw [hk, List.map_cons]
    rfl
  have hbodies : clauseBodies "WHERE" (Statement.select s).render =
      ["\n  AND ".intercalate (s.conditions.map Conjunct.render)] := by
    rw [s.lines_eq, hwhere, ← List.cons_append] at hlines
    refine clauseBodies_eq_singleton (x := 'W') (by decide) hlines ?_
      (head?_trailer_ne h (by decide))
    simp only [Select.sources, List.forall_mem_cons]
    exact ⟨head?_items_ne h (by decide), (isClause_from s.base).head?_ne (by decide),
      head?_join_ne (by decide)⟩
  have hline : ∀ t ∈ s.conditions.map Conjunct.render, '\n' ∉ t.toList :=
    List.forall_mem_map.2 fun k hk => (Conjunct.quiet (h.conditions k hk)).not_mem (by decide)
      (by decide)
  unfold whereConjuncts
  rw [hbodies, List.map_singleton, cutAt_intercalate (x := '\n') (by decide) (by simpa using hne)
    hline]

end Bodies

/-! ### Tables -/

theorem quiet_renderItems {items : List Item} (h : ∀ i ∈ items, i.Plain) :
    Quiet reserved ('\n' :: itemSigns) (renderItems items) := by
  have hsigns : itemSigns ⊆ '\n' :: itemSigns := List.subset_cons_self _ _
  have hitem : ∀ i ∈ items, Quiet reserved ('\n' :: itemSigns) i.render :=
    fun i hi => (Item.quiet (h i hi)).mono (List.Subset.refl _) hsigns
  unfold renderItems
  split
  · rename_i i
    exact (hitem i (List.mem_singleton_self i)).after (by decide)
  · exact (Quiet.intercalate (by decide) (List.forall_mem_map.2 hitem)).after
      (by decide)

theorem quiet_where {ks : List Conjunct} (h : ∀ k ∈ ks, k.Plain) :
    ∀ l ∈ clause "WHERE" "\n  AND " (ks.map Conjunct.render),
      Quiet reserved ('\n' :: conjunctSigns) l := by
  refine quiet_clause (by decide) (by decide) (List.forall_mem_map.2 fun k hk => ?_)
  exact (Conjunct.quiet (h k hk)).mono (List.Subset.refl _) (List.subset_cons_self _ _)

/-- The words of a harmless text are no keywords that name tables. -/
theorem forall_words_of_quiet {signs : List Char} {s : String} (h : Quiet reserved signs s) :
    ∀ w ∈ words s.toList, w.map caseKey ∉ ["from", "join"].map String.toList :=
  h.avoids.mono (List.prefix_append ["from", "join"] denied).subset

/-- The lines that name the tables name them in the order in which they are read, and none of these
lines runs on into the next one. -/
theorem followers_sources (s : Select) :
    (∀ v ∈ ((s.sources.map String.toList).flatMap words).getLast?,
      v.map caseKey ∉ ["from", "join"].map String.toList) ∧
    (followers ["from", "join"] ((s.sources.map String.toList).flatMap words)).map String.ofList =
      s.tables.map Table.name := by
  unfold Select.sources Select.tables
  generalize s.base = t, s.joined = joined
  cases t <;> cases joined <;> decide

/-- The tables that the text names are those that the selection reads. -/
theorem tableWords_render {s : Select} (h : s.Plain) :
    tableWords (Statement.select s).render.toList = s.tables.map Table.name := by
  have hitems := forall_words_of_quiet (quiet_renderItems h.items)
  have hrest : ∀ w ∈ ((clause "WHERE" "\n  AND " (s.conditions.map Conjunct.render) ++
      s.trailer).map String.toList).flatMap words,
      w.map caseKey ∉ ["from", "join"].map String.toList := by
    intro w hw
    obtain ⟨l, hl, hw⟩ := List.mem_flatMap.1 hw
    obtain ⟨t, ht, rfl⟩ := List.mem_map.1 hl
    rcases List.mem_append.1 ht with ht | ht
    · exact forall_words_of_quiet (quiet_where h.conditions t ht) w hw
    · exact forall_words_of_quiet (quiet_trailer h t ht) w hw
  obtain ⟨hlast, hsources⟩ := followers_sources s
  have hwords : words (Statement.select s).render.toList =
      words (renderItems s.items).toList ++ ((s.sources.map String.toList).flatMap words ++
        ((clause "WHERE" "\n  AND " (s.conditions.map Conjunct.render) ++
          s.trailer).map String.toList).flatMap words) := by
    have hbreak : "\n".toList = ['\n'] := by decide
    unfold Statement.render
    rw [String.toList_intercalate, hbreak, words_intercalate (by decide), s.lines_eq, List.map_cons,
      List.flatMap_cons, List.map_append, List.flatMap_append]
  unfold tableWords
  rw [hwords, followers_append fun v hv => hitems v (List.mem_of_getLast? hv),
    followers_append hlast, followers_eq_nil hitems, followers_eq_nil hrest, List.append_nil]
  exact hsources

/-! ### The overview -/

/-- The characters of a single number, from those of its parts. -/
def Figure.chars (f : Figure) : List Char :=
  "(SELECT ".toList ++ f.measure.render.toList ++ " FROM ".toList ++ f.table.name.toList ++
    " WHERE ".toList ++ " AND ".toList.intercalate
      (("tenant_id = ".toList ++ (placeholder tenantNumber).toList) ::
        (f.restrictions.map Restriction.render).map String.toList) ++
    ") AS ".toList ++ f.label.toList

theorem Figure.toList_render (f : Figure) : f.render.toList = f.chars := by
  unfold Figure.render Figure.chars
  simp only [String.toList_append, String.toList_intercalate, List.map_cons]

theorem toList_overview (figures : List Figure) : (Statement.overview figures).render.toList =
    "SELECT\n  ".toList ++ ",\n  ".toList.intercalate (figures.map Figure.chars) := by
  unfold Statement.render commaLines
  rw [String.toList_append, String.toList_intercalate, List.map_map,
    List.map_congr_left fun f _ => f.toList_render]

end CrmQuery.Sql
