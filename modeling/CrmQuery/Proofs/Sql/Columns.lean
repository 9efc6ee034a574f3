import CrmQuery.Proofs.Sql.Refusals

/-!
# Columns and the tables that are read

A reader of a text finds the words before its points (`qualifiers`) and the short names that its
FROM and JOIN introduce (`sourceNames`).  On the text of a selection the former are the tables of
its columns (`qualifiers_select`), which are tables that it reads (`table_mem_of_mem_columns`).  The
main statement is `compileIn_names_tables`.
-/

namespace CrmQuery.Sql

open Text

/-! ### Qualifiers -/

/-- The word that a text ends with, in reverse, where `run` is the word before it. -/
def lastRun (run : List Char) (s : List Char) : List Char :=
  s.foldl (fun run c => if isWord c then c :: run else []) run

/-- The words right before the points of a text; `run` is the word before it, in reverse. -/
def qualifiersFrom (run : List Char) : List Char → List (List Char)
  | [] => []
  | c :: rest =>
    (if c = '.' then [run.reverse] else []) ++
      qualifiersFrom (if isWord c then c :: run else []) rest

/-- The words right before the points of a text. -/
def qualifiers (s : List Char) : List (List Char) := qualifiersFrom [] s

example : qualifiers "ON c.id = b.contact_id".toList = ["c".toList, "b".toList] := by decide

theorem qualifiersFrom_append (a b : List Char) : ∀ run,
    qualifiersFrom run (a ++ b) = qualifiersFrom run a ++ qualifiersFrom (lastRun run a) b := by
  induction a with
  | nil => exact fun _ => rfl
  | cons c a ih =>
    intro run
    rw [List.cons_append, qualifiersFrom, qualifiersFrom, ih, List.append_assoc]
    rfl

theorem qualifiersFrom_eq_nil {s : List Char} (h : '.' ∉ s) : ∀ run, qualifiersFrom run s = [] := by
  induction s with
  | nil => exact fun _ => rfl
  | cons c s ih =>
    intro run
    rw [List.mem_cons, not_or] at h
    rw [qualifiersFrom, if_neg (Ne.symm h.1), ih h.2, List.nil_append]

theorem qualifiers_eq_nil {s : List Char} (h : '.' ∉ s) : qualifiers s = [] :=
  qualifiersFrom_eq_nil h []

/-- No word runs on from a text that does not end with one. -/
theorem lastRun_eq_nil {s : List Char} (h : isWordAt s.getLast? = false) : lastRun [] s = [] := by
  rcases List.eq_nil_or_concat s with rfl | ⟨s, c, rfl⟩
  · rfl
  · have hc : isWord c = false := by simpa [isWordAt] using h
    simp [lastRun, hc]

/-- A text without points can be left out after another one. -/
theorem qualifiers_append_of_not_mem (a : List Char) {b : List Char} (hb : '.' ∉ b) :
    qualifiers (a ++ b) = qualifiers a := by
  unfold qualifiers
  rw [qualifiersFrom_append, qualifiersFrom_eq_nil hb, List.append_nil]

theorem qualifiers_append {a : List Char} (ha : isWordAt a.getLast? = false) (b : List Char) :
    qualifiers (a ++ b) = qualifiers a ++ qualifiers b := by
  unfold qualifiers
  rw [qualifiersFrom_append, lastRun_eq_nil ha]

/-- A text without points that no word runs on from can be left out before another one. -/
theorem qualifiers_prepend {a : List Char} (hdot : '.' ∉ a) (ha : isWordAt a.getLast? = false)
    (b : List Char) : qualifiers (a ++ b) = qualifiers b := by
  rw [qualifiers_append ha, qualifiers_eq_nil hdot, List.nil_append]

/-- A text without points that words neither run on into nor from. -/
structure Parts (sep : List Char) : Prop where
  dot_not_mem : '.' ∉ sep
  ne_nil : sep ≠ []
  head : isWordAt sep.head? = false
  last : isWordAt sep.getLast? = false

instance (sep : List Char) : Decidable (Parts sep) :=
  decidable_of_iff
    ('.' ∉ sep ∧ sep ≠ [] ∧ isWordAt sep.head? = false ∧ isWordAt sep.getLast? = false)
    ⟨fun h => ⟨h.1, h.2.1, h.2.2.1, h.2.2.2⟩, fun h => ⟨h.dot_not_mem, h.ne_nil, h.head, h.last⟩⟩

theorem Parts.qualifiers_append {sep : List Char} (h : Parts sep) (a b : List Char) :
    qualifiers (a ++ (sep ++ b)) = qualifiers a ++ qualifiers b := by
  have hlast : isWordAt (a ++ sep).getLast? = false := by
    have hsep := h.last
    rw [List.getLast?_eq_some_getLast h.ne_nil] at hsep
    rwa [List.getLast?_append, List.getLast?_eq_some_getLast h.ne_nil, Option.some_or]
  rw [← List.append_assoc, Sql.qualifiers_append hlast,
    qualifiers_append_of_not_mem _ h.dot_not_mem]

/-- Texts are read one by one where a separator stands between them. -/
theorem qualifiers_intercalate {sep : List Char} (h : Parts sep) :
    ∀ ls : List (List Char), qualifiers (sep.intercalate ls) = ls.flatMap qualifiers
  | [] => by simp [qualifiers, qualifiersFrom]
  | [l] => by simp
  | l :: l' :: ls => by
    rw [List.intercalate_cons_cons, List.append_assoc, h.qualifiers_append,
      qualifiers_intercalate h (l' :: ls)]
    rfl

/-! ### Columns -/

/-- The columns in an expression. -/
def Expression.columns : Expression → List Column
  | column c | countDistinct c | countWithin c _ | sum c | average c _ => [c]
  | countRows => []
  | firstPresent c d => [c, d]

/-- The columns in a condition. -/
def Conjunct.columns : Conjunct → List Column
  | ofTenant t => [⟨t, "tenant_id"⟩]
  | notCancelled => [⟨.bookings, "status"⟩]
  | compare c _ _ | between c _ => [c]

/-- The columns in an order. -/
def OrderKey.columns : OrderKey → List Column
  | column c => [c]
  | label _ => []

/-- The columns in the line that joins the contacts. -/
def joinColumns : List Column :=
  [⟨.contacts, "id"⟩, ⟨.bookings, "contact_id"⟩, ⟨.contacts, "tenant_id"⟩]

/-- The columns in what is shown of rows. -/
def Shape.shownColumns (s : Shape) : List Column :=
  s.items.flatMap (·.expression.columns) ++ (s.groupBy ++ s.orderBy.flatMap OrderKey.columns)

/-- The columns in a selection, in the order of its lines. -/
def Select.columns (s : Select) : List Column :=
  s.items.flatMap (·.expression.columns) ++ ((if s.joined then joinColumns else []) ++
    (s.conditions.flatMap Conjunct.columns ++
      (s.groupBy ++ s.orderBy.flatMap OrderKey.columns)))

/-- The short names of the tables of columns. -/
def tableNames (cs : List Column) : List (List Char) := cs.map fun c => c.table.shortName.toList

theorem IsName.dot_not_mem {s : String} (h : IsName s) : '.' ∉ s.toList := by
  have hquiet : Quiet reserved [] s := h.quiet []
  exact hquiet.not_mem (by decide) (by decide)

theorem dot_not_mem_toString (n : Int) : '.' ∉ (toString n).toList := by
  have hquiet : Quiet reserved ['-'] (toString n) := quiet_toString_int n (by decide)
  exact hquiet.not_mem (by decide) (by decide)

theorem qualifiers_column {c : Column} (h : IsName c.name) :
    qualifiers c.render.toList = tableNames [c] := by
  have hname : ∀ t : Table,
      qualifiers (t.shortName.toList ++ ".".toList) = [t.shortName.toList] := by
    intro t
    cases t <;> decide
  unfold Column.render
  rw [String.toList_append, String.toList_append, qualifiers_append_of_not_mem _ h.dot_not_mem,
    hname]
  rfl

/-- An expression around one column has its table, whatever stands around it without points. -/
theorem qualifiers_around {c : Column} (h : IsName c.name) {a b : String} (ha : '.' ∉ a.toList)
    (hlast : isWordAt a.toList.getLast? = false) (hb : '.' ∉ b.toList) :
    qualifiers (a ++ c.render ++ b).toList = tableNames [c] := by
  rw [String.toList_append, String.toList_append, qualifiers_append_of_not_mem _ hb,
    qualifiers_prepend ha hlast, qualifiers_column h]

theorem qualifiers_expression {e : Expression} (h : e.Plain) :
    qualifiers e.render.toList = tableNames e.columns := by
  cases e with
  | column c => exact qualifiers_column h
  | countRows =>
    have hdot : '.' ∉ "COUNT(*)".toList := by decide
    exact qualifiers_eq_nil hdot
  | countDistinct c => exact qualifiers_around h (by decide) (by decide) (by decide)
  | countWithin c band =>
    have hband : '.' ∉ (" " ++ (renderBand band ++ ")")).toList := by
      simp only [renderBand, String.toList_append, List.mem_append, not_or]
      exact ⟨by decide, ⟨⟨⟨by decide, dot_not_mem_toString _⟩, by decide⟩,
        dot_not_mem_toString _⟩, by decide⟩
    have haround :=
      qualifiers_around h.1 (a := "COUNT(*) FILTER (WHERE ") (by decide) (by decide) hband
    rwa [← String.append_assoc, ← String.append_assoc] at haround
  | sum c => exact qualifiers_around h (by decide) (by decide) (by decide)
  | average c places =>
    have hplaces : '.' ∉ ("), " ++ (toString places ++ ")")).toList := by
      simp only [String.toList_append, List.mem_append, not_or]
      exact ⟨by decide, dot_not_mem_toString places, by decide⟩
    have haround := qualifiers_around h (a := "ROUND(AVG(") (by decide) (by decide) hplaces
    rwa [← String.append_assoc, ← String.append_assoc] at haround
  | firstPresent c d =>
    have hcomma : Parts ", ".toList := by decide
    show qualifiers ("COALESCE(" ++ c.render ++ ", " ++ d.render ++ ")").toList = tableNames [c, d]
    rw [String.toList_append, qualifiers_append_of_not_mem _ (by decide), String.toList_append,
      String.toList_append, String.toList_append, List.append_assoc, hcomma.qualifiers_append,
      qualifiers_prepend (by decide) (by decide), qualifiers_column h.1, qualifiers_column h.2]
    rfl

theorem qualifiers_item {i : Item} (h : i.Plain) :
    qualifiers i.render.toList = tableNames i.expression.columns := by
  have hexpression := qualifiers_expression h.1
  unfold Item.render
  rw [String.toList_append]
  cases hl : i.label with
  | none => simpa using hexpression
  | some l =>
    have hlabel : '.' ∉ (" AS " ++ l).toList := by
      rw [String.toList_append, List.mem_append, not_or]
      exact ⟨by decide, (h.2 l hl).dot_not_mem⟩
    simp only
    rw [qualifiers_append_of_not_mem _ hlabel, hexpression]

theorem qualifiers_conjunct {k : Conjunct} (h : k.Plain) :
    qualifiers k.render.toList = tableNames k.columns := by
  have hplaceholder : ∀ n, '.' ∉ (placeholder n).toList := by
    intro n
    unfold placeholder
    rw [String.toList_append, List.mem_append, not_or]
    exact ⟨by decide, dot_not_mem_toString n⟩
  have hafter : ∀ {c : Column} {b : String}, IsName c.name → '.' ∉ b.toList →
      qualifiers (c.render ++ b).toList = tableNames [c] := by
    intro c b hc hb
    rw [String.toList_append, qualifiers_append_of_not_mem _ hb, qualifiers_column hc]
  cases k with
  | ofTenant t =>
    have hname : IsName "tenant_id" := by decide
    have hrest : '.' ∉ (" = " ++ placeholder tenantNumber).toList := by decide
    rw [Conjunct.render, String.append_assoc]
    exact hafter (c := ⟨t, "tenant_id"⟩) hname hrest
  | notCancelled =>
    have hname : IsName "status" := by decide
    exact hafter (c := ⟨.bookings, "status"⟩) hname (by decide)
  | compare c comparison number =>
    have hrest :
        '.' ∉ (" " ++ (comparisonSign comparison ++ (" " ++ placeholder number))).toList := by
      simp only [String.toList_append, List.mem_append, not_or]
      refine ⟨by decide, ?_, by decide, hplaceholder number⟩
      cases comparison <;> decide
    rw [Conjunct.render, String.append_assoc, String.append_assoc, String.append_assoc]
    exact hafter h hrest
  | between c number =>
    have hrest : '.' ∉ (" BETWEEN " ++ (placeholder number ++
        (" AND " ++ placeholder (number + 1)))).toList := by
      simp only [String.toList_append, List.mem_append, not_or]
      exact ⟨by decide, hplaceholder number, by decide, hplaceholder (number + 1)⟩
    rw [Conjunct.render, String.append_assoc, String.append_assoc, String.append_assoc]
    exact hafter h hrest

theorem qualifiers_orderKey {k : OrderKey} (h : k.Plain) :
    qualifiers k.render.toList = tableNames k.columns := by
  cases k with
  | column c =>
    rw [OrderKey.render, String.toList_append, qualifiers_append_of_not_mem _ (by decide)]
    exact qualifiers_column h
  | label name =>
    rw [OrderKey.render, String.toList_append, qualifiers_append_of_not_mem _ (by decide)]
    exact qualifiers_eq_nil (IsName.dot_not_mem h)

/-! ### Lines -/

/-- What is read of parts one by one are their columns. -/
theorem flatMap_qualifiers {α : Type} {render : α → String} {columns : α → List Column}
    {parts : List α} (h : ∀ a ∈ parts, qualifiers (render a).toList = tableNames (columns a)) :
    ((parts.map render).map String.toList).flatMap qualifiers =
      tableNames (parts.flatMap columns) := by
  rw [List.flatMap_map, List.flatMap_map, tableNames, List.map_flatMap]
  exact List.flatMap_congr h

theorem qualifiers_clause {α : Type} {keyword separator : String} {render : α → String}
    {columns : α → List Column} {parts : List α} (hkeyword : '.' ∉ keyword.toList)
    (hsep : Parts separator.toList)
    (h : ∀ a ∈ parts, qualifiers (render a).toList = tableNames (columns a)) :
    ((clause keyword separator (parts.map render)).map String.toList).flatMap qualifiers =
      tableNames (parts.flatMap columns) := by
  have hspace : Parts [' '] := by decide
  have hblank : " ".toList = [' '] := rfl
  cases parts with
  | nil => rfl
  | cons a parts =>
    have hbody : qualifiers (separator.intercalate ((a :: parts).map render)).toList =
        tableNames ((a :: parts).flatMap columns) := by
      rw [String.toList_intercalate, qualifiers_intercalate hsep, flatMap_qualifiers h]
    show qualifiers
      (keyword ++ " " ++ separator.intercalate ((a :: parts).map render)).toList ++ [] = _
    rw [List.append_nil, String.toList_append, String.toList_append, hblank, List.append_assoc,
      hspace.qualifiers_append, qualifiers_eq_nil hkeyword, List.nil_append, hbody]

theorem qualifiers_renderItems {items : List Item} (h : ∀ i ∈ items, i.Plain) :
    qualifiers (renderItems items).toList = tableNames (items.flatMap (·.expression.columns)) := by
  have hcomma : Parts ",\n  ".toList := by decide
  have hitem : ∀ i ∈ items, qualifiers i.render.toList = tableNames i.expression.columns :=
    fun i hi => qualifiers_item (h i hi)
  have htexts := flatMap_qualifiers hitem
  rw [← htexts]
  unfold renderItems
  split
  · rename_i i
    rw [String.toList_append, qualifiers_prepend (by decide) (by decide)]
    simp
  · rw [String.toList_append, qualifiers_prepend (by decide) (by decide), commaLines,
      String.toList_intercalate, qualifiers_intercalate hcomma]

theorem qualifiers_sources (s : Select) :
    (s.sources.map String.toList).flatMap qualifiers =
      tableNames (if s.joined then joinColumns else []) := by
  unfold Select.sources
  generalize s.base = t, s.joined = joined
  cases t <;> cases joined <;> decide

/-- The words before the points of a text are the tables of its columns. -/
theorem qualifiers_select {s : Select} (h : s.Plain) :
    qualifiers (Statement.select s).render.toList = tableNames s.columns := by
  have hbreak : Parts "\n".toList := by decide
  have hcomma : Parts ", ".toList := by decide
  have hand : Parts "\n  AND ".toList := by decide
  have hcolumn : ∀ c ∈ s.groupBy, qualifiers c.render.toList = tableNames [c] :=
    fun c hc => qualifiers_column (h.groupBy c hc)
  have hlimit : ((clause "LIMIT" "" (s.limit.toList.map toString)).map String.toList).flatMap
      qualifiers = [] := by
    rw [List.flatMap_map, List.flatMap_eq_nil_iff]
    intro l hl
    obtain ⟨n, rfl⟩ := eq_of_mem_limit hl
    rw [String.toList_append, qualifiers_append_of_not_mem _ (dot_not_mem_toString n)]
    decide
  unfold Statement.render
  rw [String.toList_intercalate, qualifiers_intercalate hbreak, s.lines_eq, Select.trailer]
  simp only [List.map_cons, List.map_append, List.flatMap_cons, List.flatMap_append]
  rw [qualifiers_renderItems h.items, qualifiers_sources,
    qualifiers_clause (by decide) hand fun k hk => qualifiers_conjunct (h.conditions k hk),
    qualifiers_clause (by decide) hcomma hcolumn,
    qualifiers_clause (by decide) hcomma fun k hk => qualifiers_orderKey (h.orderBy k hk), hlimit]
  simp [tableNames, Select.columns, List.flatMap_singleton']

/-! ### Tables -/

section Selection

variable {c : Classification} {s : Selection} (h : template? c = some (.selection s))
include h

theorem table_mem_of_shape : ∀ col ∈ s.shape.shownColumns, col.table ∈ s.available := by
  have hlead : ∀ i, ∀ col ∈ (leadShape i).shownColumns, col.table = .contacts := by
    intro i
    cases i <;> decide
  have hcontact : ∀ i, ∀ col ∈ (contactShape i).shownColumns, col.table = .contacts := by
    intro i
    cases i <;> decide
  have hrevenue : ∀ col ∈ revenueShape.shownColumns, col.table = .bookings := by decide
  intro col hcol
  unfold Selection.available
  rcases selection_cases h with ⟨-, rfl⟩ | ⟨-, rfl⟩ | ⟨-, rfl⟩ | ⟨-, rfl⟩
  · rw [hlead _ col hcol]
    exact List.mem_cons_self
  · rw [hcontact _ col hcol]
    exact List.mem_cons_self
  · cases col.table <;> simp
  · rw [hrevenue col hcol]
    exact List.mem_cons_self

/-- Contacts are only joined to bookings. -/
theorem base_eq_of_joined (hjoined : s.joined = true) : s.base = .bookings := by
  rcases selection_cases h with ⟨-, rfl⟩ | ⟨-, rfl⟩ | ⟨-, rfl⟩ | ⟨-, rfl⟩
  · cases hjoined
  · cases hjoined
  · rfl
  · rfl

theorem table_mem_of_fixed : ∀ k ∈ s.fixed, ∀ col ∈ k.columns, col.table ∈ s.available := by
  rcases selection_cases h with ⟨-, rfl⟩ | ⟨-, rfl⟩ | ⟨-, rfl⟩ | ⟨-, rfl⟩ <;>
    simp [Conjunct.columns, Selection.available]

end Selection

/-- The condition of a filter is on a column of a table that is read. -/
theorem table_mem_of_conjunctsFrom {available : List Table} {keys : List (String × Operator)}
    (h : checkFields available (keys.map Prod.fst) = .ok ()) (number : Nat) :
    ∀ k ∈ conjunctsFrom number keys, ∀ col ∈ k.columns, col.table ∈ available := by
  rw [checkFields_eq_ok_iff] at h
  induction keys generalizing number with
  | nil => simp [conjunctsFrom]
  | cons key rest ih =>
    obtain ⟨field, operator⟩ := key
    obtain ⟨t, havailable, ht⟩ := h field (by simp)
    intro k hk
    rw [conjunctsFrom, columnFor_eq ht, List.mem_cons] at hk
    rcases hk with rfl | hk
    · have hcolumns : (conjunctOf ⟨t, field⟩ number operator).columns = [⟨t, field⟩] := by
        cases operator <;> rfl
      rw [hcolumns]
      exact List.forall_mem_singleton.2 havailable
    · exact ih (fun f hf => h f (List.mem_cons_of_mem _ hf)) _ k hk

/-- All columns of a statement belong to the tables that it reads. -/
theorem table_mem_of_mem_columns {c : Classification} {s : Selection}
    {keys : List (String × Operator)} (h : template? c = some (.selection s))
    (hfields : checkFields s.available (keys.map Prod.fst) = .ok ()) (limit : Int) (timed : Bool) :
    ∀ col ∈ (s.select limit keys timed).columns, col.table ∈ s.available := by
  have hbase : s.base ∈ s.available := List.mem_cons_self
  have hshape := table_mem_of_shape h
  have htimes : ∀ n, ∀ k ∈ timeConjuncts s.base n timed, ∀ col ∈ k.columns,
      col.table ∈ s.available := by
    cases timed <;> simp [timeConjuncts, Conjunct.columns, hbase]
  have hconditions : ∀ k ∈ s.conditions keys timed, ∀ col ∈ k.columns, col.table ∈ s.available := by
    unfold Selection.conditions
    rw [List.forall_mem_cons, List.forall_mem_append, List.forall_mem_append]
    exact ⟨List.forall_mem_singleton.2 hbase,
      ⟨table_mem_of_fixed h, table_mem_of_conjunctsFrom hfields 2⟩, htimes _⟩
  have hjoin : ∀ col ∈ if s.joined then joinColumns else [], col.table ∈ s.available := by
    intro col hcol
    split_ifs at hcol with hjoined
    · have hcontacts : Table.contacts ∈ s.available := by simp [Selection.available, hjoined]
      have hbookings : Table.bookings ∈ s.available := base_eq_of_joined h hjoined ▸ hbase
      cases col.table with
      | contacts => exact hcontacts
      | bookings => exact hbookings
    · cases hcol
  unfold Shape.shownColumns at hshape
  simp only [List.forall_mem_append] at hshape
  simp only [Select.columns, Selection.select, List.forall_mem_append]
  refine ⟨hshape.1, hjoin, fun col hcol => ?_, hshape.2⟩
  obtain ⟨k, hk, hcol⟩ := List.mem_flatMap.1 hcol
  exact hconditions k hk col hcol

/-! ### Sources -/

/-- The short name that a source introduces after its table. -/
def sourceName? (body : String) : Option (List Char) :=
  match words body.toList with
  | _ :: keyword :: name :: _ => if keyword = "AS".toList then some name else none
  | _ => none

/-- The short names that FROM and JOIN introduce. -/
def sourceNames (sql : String) : List (List Char) :=
  (clauseBodies "FROM" sql ++ clauseBodies "JOIN" sql).filterMap sourceName?

/-- The text introduces the short names of the tables that a selection reads. -/
theorem sourceNames_select {s : Select} (h : s.Plain) :
    sourceNames (Statement.select s).render = s.tables.map fun t => t.shortName.toList := by
  unfold sourceNames Select.tables
  rw [clauseBodies_from h, clauseBodies_join h]
  generalize s.base = t, s.joined = joined
  cases t <;> cases joined <;> decide

/-! ### Queries -/

/-- A query reports the tables that its text reads, and the columns in its text are theirs. -/
structure NamesTables (c : Classification) (q : Query) : Prop where
  nodup : q.tables.Nodup
  tables : (tableWords q.sql.toList).eraseDups = q.tables
  /-- A statement about rows reads each of its tables once. -/
  once : c.domain ≠ .analytics → tableWords q.sql.toList = q.tables
  qualified : c.domain ≠ .analytics → ∀ w ∈ qualifiers q.sql.toList, w ∈ sourceNames q.sql
  /-- Revenue has one JOIN where a filter is on a field of contacts, and none elsewhere. -/
  join : c.domain = .revenue → clauseBodies "JOIN" q.sql =
    if ∃ f ∈ c.filters, f.field ∈ contactFields then
      ["contacts AS c ON c.id = b.contact_id AND c.tenant_id = $1"]
    else []
  joined : c.domain = .revenue →
    ("contacts" ∈ q.tables ↔ ∃ f ∈ c.filters, f.field ∈ contactFields)

theorem eraseDups_of_nodup {l : List String} (h : l.Nodup) : l.eraseDups = l := by
  induction l with
  | nil => rfl
  | cons a l ih =>
    rw [List.nodup_cons] at h
    have hfilter : (l.filter fun b => !b == a) = l := by
      rw [List.filter_eq_self]
      intro b hb
      have hne : b ≠ a := fun e => h.1 (e ▸ hb)
      simpa using hne
    rw [List.eraseDups_cons, hfilter, ih h.2]

theorem nodup_available {c : Classification} {s : Selection}
    (h : template? c = some (.selection s)) : (s.available.map Table.name).Nodup := by
  rcases selection_cases h with ⟨-, rfl⟩ | ⟨-, rfl⟩ | ⟨-, rfl⟩ | ⟨-, rfl⟩
  · simp [Selection.available]
  · simp [Selection.available]
  · simp [Selection.available, Table.name]
  · unfold Selection.available
    generalize needsContacts c.filters = joined
    cases joined <;> decide

theorem namesTables_overview {c : Classification} {q : Query} (h : c.domain = .analytics)
    (hsql : q.sql = (Statement.overview overviewFigures).render)
    (htables : q.tables = (Statement.overview overviewFigures).tables.map Table.name) :
    NamesTables c q := by
  have hwords : (tableWords (Statement.overview overviewFigures).render.toList).eraseDups =
      (Statement.overview overviewFigures).tables.map Table.name := by
    rw [toList_overview]
    decide +kernel
  refine ⟨?_, ?_, fun hd => absurd h hd, fun hd => absurd h hd, fun hd => ?_, fun hd => ?_⟩
  · rw [htables]
    decide
  · rw [hsql, htables, hwords]
  · simp [h] at hd
  · simp [h] at hd

theorem namesTables_select {c : Classification} {s : Selection} {q : Query} {limit : Int}
    {timed : Bool} (h : template? c = some (.selection s))
    (hfields : checkFields s.available ((c.filters.map Filter.key).map Prod.fst) = .ok ())
    (hsql : q.sql = (Statement.select (s.select limit (c.filters.map Filter.key) timed)).render)
    (htables : q.tables = s.available.map Table.name) : NamesTables c q := by
  have hplain := select_plain h hfields limit timed
  have hwords : tableWords q.sql.toList = q.tables := by
    rw [hsql, htables]
    exact tableWords_render hplain
  have hnodup : q.tables.Nodup := htables ▸ nodup_available h
  -- Only revenue joins contacts on demand.
  have hjoined : c.domain = .revenue →
      (s.joined = true ↔ ∃ f ∈ c.filters, f.field ∈ contactFields) ∧ s.base = .bookings := by
    intro hd
    rw [← needsContacts_iff]
    rcases selection_cases h with ⟨h, -⟩ | ⟨h, -⟩ | ⟨h, -⟩ | ⟨-, rfl⟩
    · simp [h] at hd
    · simp [h] at hd
    · simp [h] at hd
    · exact ⟨Iff.rfl, rfl⟩
  refine ⟨hnodup, ?_, fun _ => hwords, fun _ w hw => ?_, fun hd => ?_, fun hd => ?_⟩
  · rw [hwords]
    exact eraseDups_of_nodup hnodup
  · rw [hsql, qualifiers_select hplain] at hw
    obtain ⟨col, hcol, rfl⟩ := List.mem_map.1 hw
    rw [hsql, sourceNames_select hplain]
    exact List.mem_map_of_mem (table_mem_of_mem_columns h hfields limit timed col hcol)
  · rw [hsql, clauseBodies_join hplain]
    exact if_congr (hjoined hd).1 rfl rfl
  · rw [← (hjoined hd).1, htables, Selection.available, (hjoined hd).2]
    cases s.joined <;> decide

theorem namesTables_of_compile {limit : Int} {c : Classification} {tenant : String} {q : Query}
    (h : compile limit c tenant = .ok q) : NamesTables c q := by
  obtain ⟨d, hd, hq⟩ := exists_draft_of_compile h
  obtain ⟨hsql, -, htables, -⟩ := query_eq_ok hq
  rcases draft_cases hd with ⟨hdomain, rfl⟩ | ⟨s, hs, hfields, rfl⟩
  · exact namesTables_overview hdomain hsql htables
  · rw [← map_fst_key] at hfields
    exact namesTables_select hs hfields hsql htables

/-- A query reports the tables that its text reads, whatever the settings. -/
theorem compileIn_names_tables {env : Environment} {c : Classification} {tenant : String}
    {q : Query} (h : compileIn env c tenant = .ok q) : NamesTables c q := by
  obtain ⟨limit, hlimit⟩ := exists_compile_of_compileIn h
  exact namesTables_of_compile hlimit

/-- Two filters on contacts join them to revenue once. -/
theorem compileIn_names_tables_twice :
    let c := Classification.ofFilters .revenue .sum [
      ⟨"country", .compare .eq (.text "Austria")⟩, ⟨"lead_score", .between (.int 4) (.int 6)⟩]
    ∃ q, compileIn Environment.empty c "acme" = .ok q ∧ NamesTables c q ∧
      clauseBodies "JOIN" q.sql = ["contacts AS c ON c.id = b.contact_id AND c.tenant_id = $1"] ∧
      "contacts" ∈ q.tables := by
  intro c
  have hfilter : ∃ f ∈ c.filters, f.field ∈ contactFields := by decide
  obtain ⟨q, hq⟩ : ∃ q, compileIn Environment.empty c "acme" = .ok q :=
    (exists_compileIn_of_admits (s := ⟨.bookings, true, [.notCancelled], revenueShape⟩) rfl
      (by decide) Environment.empty "acme").2
        ⟨(absurd · (by decide)), lt_pow_maxNumeralDigits (by decide)⟩
  have hnames := compileIn_names_tables hq
  refine ⟨q, hq, hnames, ?_, (hnames.joined rfl).2 hfilter⟩
  rw [hnames.join rfl, if_pos hfilter]

end CrmQuery.Sql
