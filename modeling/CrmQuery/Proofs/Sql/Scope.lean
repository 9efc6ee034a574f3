import CrmQuery.Proofs.Sql.Numbering

/-!
# Statements are about one tenant

Whatever is asked, the text of a query reads each table with the condition that the row belongs to
the tenant, who is parameter 1, and all other conditions are joined to it by AND (`ScopedRows`,
`ScopedFigures`).  The main statement is `compile_scoped`.
-/

namespace CrmQuery.Sql

open Text

/-! ### Questions about rows -/

/-- Texts of conditions besides the one on the tenant, in statements of a domain on the rows of a
table. -/
inductive Restricts (d : Domain) (base : Table) : String → Prop
  | notCancelled (hd : d = .revenue) : Restricts d base "b.status != 'cancelled'"
  | compare {field : String} {t : Table} (hfield : fieldTable? field = some t)
      (comparison : Comparison) (k : Nat) :
      Restricts d base
        (t.shortName ++ "." ++ field ++ " " ++ comparisonSign comparison ++ " $" ++ toString k)
  | between {field : String} {t : Table} (hfield : fieldTable? field = some t) (k : Nat) :
      Restricts d base
        (t.shortName ++ "." ++ field ++ " BETWEEN $" ++ toString k ++ " AND $" ++ toString (k + 1))
  | since (k : Nat) : Restricts d base (base.shortName ++ ".created_at >= $" ++ toString k)
  | until (k : Nat) : Restricts d base (base.shortName ++ ".created_at <= $" ++ toString k)

/-- A text that reads the rows of a table that belong to the tenant. -/
structure ScopedRows (d : Domain) (base : Table) (sql : String) : Prop where
  source : clauseBodies "FROM" sql = [base.name ++ " AS " ++ base.shortName]
  conditions : ∃ rest, whereConjuncts sql = [(base.shortName ++ ".tenant_id = $1") :: rest] ∧
    (∀ k ∈ rest, Restricts d base k) ∧ (d = .revenue → "b.status != 'cancelled'" ∈ rest)
  /-- Contacts are only joined if they belong to the tenant as well. -/
  joins : ∀ body ∈ clauseBodies "JOIN" sql,
    body = "contacts AS c ON c.id = b.contact_id AND c.tenant_id = $1"
  /-- No other table occurs. -/
  tables : tableWords sql.toList =
    base.name :: (clauseBodies "JOIN" sql).map fun _ => Table.contacts.name

theorem restricts_conjunctsFrom {d : Domain} {base : Table} {available : List Table}
    {keys : List (String × Operator)}
    (h : checkFields available (keys.map Prod.fst) = .ok ()) (number : Nat) :
    ∀ k ∈ conjunctsFrom number keys, Restricts d base k.render := by
  rw [checkFields_eq_ok_iff] at h
  induction keys generalizing number with
  | nil => simp [conjunctsFrom]
  | cons key rest ih =>
    obtain ⟨field, operator⟩ := key
    obtain ⟨t, -, ht⟩ := h field (by simp)
    intro k hk
    rw [conjunctsFrom, columnFor_eq ht, List.mem_cons] at hk
    rcases hk with rfl | hk
    · cases operator with
      | between => exact render_between t field number ▸ .between ht number
      | eq => exact render_compare t field .eq number ▸ .compare ht .eq number
      | gte => exact render_compare t field .gte number ▸ .compare ht .gte number
      | lte => exact render_compare t field .lte number ▸ .compare ht .lte number
      | like => exact render_compare t field .like number ▸ .compare ht .like number
    · exact ih (fun f hf => h f (List.mem_cons_of_mem _ hf)) _ k hk

theorem restricts_timeConjuncts (d : Domain) (base : Table) (number : Nat) (timed : Bool) :
    ∀ k ∈ (timeConjuncts base number timed).map Conjunct.render, Restricts d base k := by
  intro k hk
  rw [map_render_timeConjuncts] at hk
  split_ifs at hk
  · rcases List.mem_cons.1 hk with rfl | hk
    · exact .since number
    · rw [List.mem_singleton.1 hk]
      exact .until (number + 1)
  · cases hk

theorem scopedRows_select {c : Classification} {s : Selection} {keys : List (String × Operator)}
    (h : template? c = some (.selection s))
    (hfields : checkFields s.available (keys.map Prod.fst) = .ok ()) (limit : Int) (timed : Bool) :
    ScopedRows c.domain s.base (Statement.select (s.select limit keys timed)).render := by
  have hplain := select_plain h hfields limit timed
  have hjoin := clauseBodies_join hplain
  -- Only revenue has a condition of its own.
  have hfixed : (∀ k ∈ s.fixed, k = .notCancelled ∧ c.domain = .revenue) ∧
      (c.domain = .revenue → .notCancelled ∈ s.fixed) := by
    rcases selection_cases h with ⟨hd, rfl⟩ | ⟨hd, rfl⟩ | ⟨hd, rfl⟩ | ⟨hd, rfl⟩ <;> simp [hd]
  refine ⟨clauseBodies_from hplain, ⟨(s.fixed ++ conjunctsFrom 2 keys ++
    timeConjuncts s.base (2 + arities keys) timed).map Conjunct.render, ?_, ?_, ?_⟩, ?_, ?_⟩
  · rw [whereConjuncts_render hplain (List.cons_ne_nil _ _), Selection.select,
      Selection.conditions, List.map_cons, render_ofTenant]
  · rw [List.map_append, List.forall_mem_append, List.forall_mem_map, List.forall_mem_append]
    refine ⟨⟨fun k hk => ?_, restricts_conjunctsFrom hfields 2⟩, restricts_timeConjuncts _ _ _ _⟩
    obtain ⟨rfl, hd⟩ := hfixed.1 k hk
    rw [render_notCancelled]
    exact .notCancelled hd
  · intro hd
    rw [← render_notCancelled]
    exact List.mem_map_of_mem (List.mem_append_left _ (List.mem_append_left _ (hfixed.2 hd)))
  · rw [hjoin]
    intro body hbody
    split_ifs at hbody
    · exact List.mem_singleton.1 hbody
    · cases hbody
  · rw [hjoin, tableWords_render hplain]
    unfold Select.tables
    split_ifs <;> rfl

/-! ### The overview -/

/-- The texts after the openings of subselects. -/
def subselects (s : List Char) : List (List Char) := (pieces "(SELECT ".toList s).tail

/-- The conditions of a subselect, up to the bracket that closes it. -/
def ownConditions (s : List Char) : List String :=
  match pieces " WHERE ".toList s with
  | [_, body] => (pieces " AND ".toList (body.takeWhile (· != ')'))).map String.ofList
  | _ => []

/-- A text of four subselects, each of which reads the rows of one table that belong to the
tenant. -/
structure ScopedFigures (s : List Char) : Prop where
  count : (subselects s).length = 4
  conditions : ∀ f ∈ subselects s, (ownConditions f).head? = some "tenant_id = $1"
  table : ∀ f ∈ subselects s, (tableWords f).length = 1
  /-- No other table occurs. -/
  tables : tableWords s = (subselects s).flatMap tableWords
  /-- No condition is an alternative to others. -/
  avoids : Avoids ["or"] s

instance (s : List Char) : Decidable (ScopedFigures s) :=
  decidable_of_iff
    ((subselects s).length = 4 ∧
      (∀ f ∈ subselects s, (ownConditions f).head? = some "tenant_id = $1") ∧
      (∀ f ∈ subselects s, (tableWords f).length = 1) ∧
      tableWords s = (subselects s).flatMap tableWords ∧ Avoids ["or"] s)
    ⟨fun h => ⟨h.1, h.2.1, h.2.2.1, h.2.2.2.1, h.2.2.2.2⟩,
      fun h => ⟨h.count, h.conditions, h.table, h.tables, h.avoids⟩⟩

theorem scopedFigures_overview :
    ScopedFigures (Statement.overview overviewFigures).render.toList := by
  rw [toList_overview]
  decide +kernel

/-! ### Queries -/

theorem head?_params {limit : Int} {c : Classification} {tenant : String} {d : Draft}
    (h : draft limit c tenant = .ok d) : d.params.head? = some (.string tenant) := by
  rcases draft_cases h with ⟨-, rfl⟩ | ⟨s, -, -, rfl⟩ <;> rfl

/-- The text of a query only reads rows of the tenant, who is parameter 1. -/
theorem compile_scoped {limit : Int} {c : Classification} {tenant : String} {q : Query}
    (h : compile limit c tenant = .ok q) :
    q.params.head? = some (.string tenant) ∧
    (∀ base, baseOf? c.domain = some base → ScopedRows c.domain base q.sql) ∧
    (c.domain = .analytics → ScopedFigures q.sql.toList) := by
  obtain ⟨d, hd, hq⟩ := exists_draft_of_compile h
  obtain ⟨hsql, hparams, -⟩ := query_eq_ok hq
  rw [hsql, hparams]
  refine ⟨head?_params hd, ?_⟩
  rcases draft_cases hd with ⟨hdomain, rfl⟩ | ⟨s, hs, hfields, rfl⟩
  · refine ⟨fun base hbase => ?_, fun _ => scopedFigures_overview⟩
    rw [hdomain] at hbase
    cases hbase
  · rw [← map_fst_key] at hfields
    refine ⟨fun base hbase => ?_, fun hdomain => absurd hdomain (ne_analytics hs)⟩
    cases (baseOf?_eq hs).symm.trans hbase
    exact scopedRows_select hs hfields limit _

/-- The contacts that a filter on revenue needs are those of the tenant. -/
theorem compile_scoped_revenue :
    let c := Classification.ofFilters .revenue .sum [⟨"country", .compare .eq (.text "Austria")⟩]
    ∃ q, compile 50 c "acme" = .ok q ∧ q.params.head? = some (.string "acme") ∧
      ScopedRows .revenue .bookings q.sql := by
  intro c
  have hdraft : ∃ d, draft 50 c "acme" = .ok d ∧ d.params.length = 2 := ⟨_, rfl, rfl⟩
  obtain ⟨d, hd, hlength⟩ := hdraft
  obtain ⟨q, hcompile, -⟩ := exists_compile_eq hd (lt_pow_maxNumeralDigits (by omega))
  obtain ⟨hhead, hrows, -⟩ := compile_scoped hcompile
  exact ⟨q, hcompile, hhead, hrows .bookings rfl⟩

end CrmQuery.Sql
