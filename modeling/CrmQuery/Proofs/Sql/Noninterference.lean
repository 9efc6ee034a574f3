import CrmQuery.Proofs.Sql.Numbering

/-!
# Values do not reach the text

What is seen of a query without its parameters (`Query.visible`) depends on the domain and the
intent of a classification, on the fields and operators of its filters, and on whether there is a
timeframe, but neither on the values nor on the tenant; the same is true of the fault if there is no
query.  The main statement is `compile_hides_values`.
-/

namespace CrmQuery

/-! ### Outcomes -/

/-- Two runs fail with one fault, or both succeed, and their values are related. -/
def SameOutcome {ε α β : Type} (r : α → β → Prop) (x : Except ε α) (y : Except ε β) : Prop :=
  (∃ e, x = .error e ∧ y = .error e) ∨ ∃ a b, x = .ok a ∧ y = .ok b ∧ r a b

namespace SameOutcome

variable {ε α β γ δ : Type} {r : α → β → Prop} {s : γ → δ → Prop}

theorem ok {a : α} {b : β} (h : r a b) : SameOutcome (ε := ε) r (.ok a) (.ok b) :=
  Or.inr ⟨a, b, rfl, rfl, h⟩

theorem refl (x : Except ε α) : SameOutcome Eq x x := by
  cases x with
  | error e => exact Or.inl ⟨e, rfl, rfl⟩
  | ok a => exact ok rfl

theorem bind {x : Except ε α} {y : Except ε β} {f : α → Except ε γ} {g : β → Except ε δ}
    (h : SameOutcome r x y) (hf : ∀ a b, r a b → SameOutcome s (f a) (g b)) :
    SameOutcome s (x >>= f) (y >>= g) := by
  rcases h with ⟨e, rfl, rfl⟩ | ⟨a, b, rfl, rfl, hab⟩
  · exact Or.inl ⟨e, rfl, rfl⟩
  · exact hf a b hab

theorem mono {r' : α → β → Prop} {x : Except ε α} {y : Except ε β} (h : SameOutcome r x y)
    (hr : ∀ a b, x = .ok a → y = .ok b → r a b → r' a b) : SameOutcome r' x y := by
  rcases h with h | ⟨a, b, ha, hb, hab⟩
  · exact Or.inl h
  · exact Or.inr ⟨a, b, ha, hb, hr a b ha hb hab⟩

/-- Two runs that look the same have the same outcome. -/
theorem of_map_eq {f : α → γ} {g : β → γ} {x : Except ε α} {y : Except ε β}
    (h : x.map f = y.map g) : SameOutcome (fun a b => f a = g b) x y := by
  cases x with
  | error e =>
    cases y with
    | error e' => exact Or.inl ⟨e, rfl, congrArg Except.error (Except.error.inj h).symm⟩
    | ok b => cases h
  | ok a =>
    cases y with
    | error e' => cases h
    | ok b => exact ok (Except.ok.inj h)

end SameOutcome

/-! ### Classifications and queries -/

/-- Two classifications differ in values only.  The overview does not depend on filters and
timeframes, so these may differ there. -/
structure Classification.Alike (c c' : Classification) : Prop where
  domain : c.domain = c'.domain
  intent : c.intent = c'.intent
  keys : c.domain ≠ .analytics → c.filters.map Filter.key = c'.filters.map Filter.key
  timed : c.domain ≠ .analytics → c.timeframe.isSome = c'.timeframe.isSome

namespace Sql

/-- What is seen of a query without its parameters. -/
def Query.visible (q : Query) : String × List String × Visualization × List String :=
  (q.sql, q.tables, q.visualization, q.expectedColumns)

/-- A draft without its parameters, of which only the number is kept. -/
def Draft.visible (d : Draft) : Statement × Nat × Visualization × List String :=
  (d.statement, d.params.length, d.visualization, d.columns)

/-! ### From drafts to queries -/

theorem Query.of_visible (sql : String) (params : List Json) (tables : List String)
    (visualization : Visualization) (columns : List String) :
    (Query.of sql params tables visualization columns).map Query.visible =
      match parameterNumbers sql with
      | .error e => .error (.numeralTooLong e)
      | .ok numbers =>
        if numbers = List.range' 1 params.length then .ok (sql, tables, visualization, columns)
        else .error (.mismatch numbers params.length) := by
  unfold Query.of
  split
  · rename_i e he
    rw [he]
    rfl
  · rename_i numbers hnumbers
    by_cases h : numbers = List.range' 1 params.length
    · simp only [dif_pos h, hnumbers, if_pos h]
      rfl
    · simp only [dif_neg h, hnumbers, if_neg h]
      rfl

/-- Whether a draft becomes a query depends on the number of its parameters alone. -/
theorem query_visible_eq {d d' : Draft} (h : d.visible = d'.visible) :
    d.query.map Query.visible = d'.query.map Query.visible := by
  obtain ⟨statement, params, visualization, columns⟩ := d
  obtain ⟨statement', params', visualization', columns'⟩ := d'
  simp only [Draft.visible, Prod.mk.injEq] at h
  obtain ⟨rfl, hlength, rfl, rfl⟩ := h
  have hof := Query.of_visible statement.render params (statement.tables.map Table.name)
    visualization columns
  rw [hlength, ← Query.of_visible] at hof
  have hswap : ∀ (r : Except NumberingFault Query) (f : NumberingFault → BuildFault),
      (r.mapError f).map Query.visible = (r.map Query.visible).mapError f := by
    intro r f
    cases r <;> rfl
  unfold Draft.query
  rw [hswap, hswap, hof]

/-! ### Templates -/

theorem needsContacts_eq (filters : List Filter) :
    needsContacts filters =
      (filters.map Filter.key).any fun k => fieldTable? k.1 == some .contacts := by
  rw [List.any_map]
  rfl

theorem template?_eq {c c' : Classification} (h : c.Alike c') : template? c = template? c' := by
  unfold template?
  rw [← h.domain, ← h.intent]
  cases hd : c.domain with
  | revenue =>
    have hkeys := h.keys (by simp [hd])
    simp only [needsContacts_eq, hkeys]
  | _ => rfl

/-- Only the listings of rows have a limit. -/
theorem limited_eq_isLimited {c : Classification} {s : Selection}
    (h : template? c = some (.selection s)) : s.shape.limited = isLimited c := by
  rcases selection_cases h with ⟨hd, rfl⟩ | ⟨hd, rfl⟩ | ⟨hd, rfl⟩ | ⟨hd, rfl⟩ <;>
    cases hi : c.intent <;> simp [isLimited, hd, hi] <;> rfl

/-! ### Drafts -/

section Alike

variable {c c' : Classification} (h : c.Alike c') {limit limit' : Int}
  (hlimit : isLimited c = true → limit = limit') (tenant tenant' : String)
include h hlimit

theorem draftOf_visible_eq {s : Selection} (hs : template? c = some (.selection s)) :
    (s.draftOf limit c tenant).visible = (s.draftOf limit' c' tenant').visible := by
  have hd := ne_analytics hs
  have hselect : s.select limit (c.filters.map Filter.key) c.timeframe.isSome =
      s.select limit' (c'.filters.map Filter.key) c'.timeframe.isSome := by
    unfold Selection.select
    rw [h.keys hd, h.timed hd]
    by_cases hl : s.shape.limited = true
    · rw [hlimit (limited_eq_isLimited hs ▸ hl)]
    · rw [if_neg hl, if_neg hl]
  have hlength : (paramsOf c tenant).length = (paramsOf c' tenant').length := by
    rw [length_paramsOf, length_paramsOf, h.keys hd, h.timed hd]
  unfold Draft.visible Selection.draftOf
  rw [hselect, hlength]

theorem draft_visible_eq :
    (draft limit c tenant).map Draft.visible = (draft limit' c' tenant').map Draft.visible := by
  unfold draft
  rw [← template?_eq h]
  cases ht : template? c with
  | none =>
    simp only
    rw [h.domain]
  | some template =>
    cases template with
    | overview => rfl
    | selection s =>
      have hfields : c.filters.map Filter.field = c'.filters.map Filter.field := by
        rw [← map_fst_key, ← map_fst_key, h.keys (ne_analytics ht)]
      have hdraft := draftOf_visible_eq h hlimit tenant tenant' ht
      simp only [Selection.draft_eq, hfields]
      cases checkFields s.available (c'.filters.map Filter.field) with
      | error e => rfl
      | ok u => exact congrArg Except.ok hdraft

theorem compile_visible_eq :
    (compile limit c tenant).map Query.visible = (compile limit' c' tenant').map Query.visible := by
  unfold compile
  rcases SameOutcome.of_map_eq (draft_visible_eq h hlimit tenant tenant') with
    ⟨e, hc, hc'⟩ | ⟨d, d', hc, hc', hvisible⟩
  · rw [hc, hc']
  · rw [hc, hc']
    exact query_visible_eq hvisible

end Alike

theorem isLimited_eq {c c' : Classification} (h : c.Alike c') :
    isLimited c = isLimited c' := by
  unfold isLimited
  rw [h.domain, h.intent]

theorem compileIn_visible_eq {c c' : Classification} (h : c.Alike c') {env env' : Environment}
    (henv : isLimited c = true → env = env') (tenant tenant' : String) :
    (compileIn env c tenant).map Query.visible = (compileIn env' c' tenant').map Query.visible := by
  have hcompile : ∀ limit,
      (compile limit c tenant).map Query.visible = (compile limit c' tenant').map Query.visible :=
    fun limit => compile_visible_eq h (fun _ => rfl) tenant tenant'
  unfold compileIn
  rcases SameOutcome.of_map_eq (hcompile Settings.default.resultLimit) with
    ⟨e, hc, hc'⟩ | ⟨q, q', hc, hc', hvisible⟩
  · rw [hc, hc']
    rfl
  · rw [hc, hc', ← isLimited_eq h]
    simp only [bind, Except.bind]
    by_cases hl : isLimited c = true
    · rw [if_pos hl, if_pos hl, ← henv hl]
      cases (Settings.read env).mapError BuildFault.invalidSettings with
      | error e => rfl
      | ok settings => exact hcompile settings.resultLimit
    · rw [if_neg hl, if_neg hl]
      exact congrArg Except.ok hvisible

/-- The text of a query, and the fault if there is none, are the same for all values and tenants.
The greatest number of rows only matters for listings. -/
theorem compile_hides_values {c c' : Classification} (h : c.Alike c') (tenant tenant' : String) :
    (∀ limit limit', (isLimited c = true → limit = limit') →
      (compile limit c tenant).map Query.visible =
        (compile limit' c' tenant').map Query.visible) ∧
    ∀ env env', (isLimited c = true → env = env') →
      (compileIn env c tenant).map Query.visible =
        (compileIn env' c' tenant').map Query.visible :=
  ⟨fun _ _ hlimit => compile_visible_eq h hlimit tenant tenant',
    fun _ _ henv => compileIn_visible_eq h henv tenant tenant'⟩

/-- A value that looks like SQL leads to the same text as any other one. -/
theorem compile_hides_values_like :
    let c := fun value => Classification.ofFilters .contacts .list [
      ⟨"city", .compare .like (.text value)⟩]
    (compile 50 (c "' OR 1=1; DROP TABLE contacts --") "acme").map Query.visible =
      (compile 50 (c "Wien") "' OR ''='").map Query.visible := by
  intro c
  have halike : ∀ value value', (c value).Alike (c value') :=
    fun _ _ => ⟨rfl, rfl, fun _ => rfl, fun _ => rfl⟩
  exact (compile_hides_values (halike _ _) _ _).1 50 50 fun _ => rfl

end Sql

end CrmQuery
