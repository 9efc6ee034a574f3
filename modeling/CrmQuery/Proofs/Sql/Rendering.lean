import CrmQuery.Proofs.Sql.Drafts
import CrmQuery.Proofs.Text.Pieces
import CrmQuery.Proofs.Text.Quiet
import CrmQuery.Sql.Safety

/-!
# The text of statements

The parts of a statement whose names are plain (`IsName`) have texts of harmless words: items
(`Item.quiet`), conditions (`Conjunct.quiet`), orders and limits.  The names that drafts use are
plain (`shape_plain`, `conditions_plain`).
-/

namespace CrmQuery.Sql

open Text

/-- Words that no statement may have. -/
def denied : List String := "union" :: dangerousWords

/-- Words that only the lines that name tables may have besides. -/
def reserved : List String := "from" :: "join" :: denied

theorem all_isDigit_reserved : ∀ v ∈ reserved, v.toList.all Char.isDigit = false := by
  decide

/-- The signs in what is shown of rows. -/
def itemSigns : List Char := [' ', '.', ',', '(', ')', '*']

/-- The signs in conditions. -/
def conjunctSigns : List Char := [' ', '.', '=', '<', '>', '!', '\'', '$']

/-- A name consists of word characters and is not reserved. -/
def IsName (s : String) : Prop :=
  (∀ c ∈ s.toList, isWord c = true) ∧ s.toList.map caseKey ∉ reserved.map String.toList

instance (s : String) : Decidable (IsName s) := inferInstanceAs (Decidable (_ ∧ _))

theorem IsName.quiet {s : String} (h : IsName s) (signs : List Char) : Quiet reserved signs s :=
  .of_word h.1 h.2

theorem quiet_toString (n : Nat) (signs : List Char) : Quiet reserved signs (toString n) :=
  .toString_nat all_isDigit_reserved n

theorem quiet_placeholder (n : Nat) : Quiet reserved conjunctSigns (placeholder n) :=
  (quiet_toString n _).after (by decide)

theorem Column.quiet {c : Column} (h : IsName c.name) {signs : List Char} (hdot : '.' ∈ signs) :
    Quiet reserved signs c.render := by
  have key : Quiet reserved ['.'] c.render := by
    refine (h.quiet _).after ?_
    cases c.table <;> decide
  exact key.mono (List.Subset.refl _) (by simpa using hdot)

/-! ### Items -/

/-- The names in an expression are plain, and a band has no negative ends. -/
def Expression.Plain : Expression → Prop
  | column c | countDistinct c | sum c | average c _ => IsName c.name
  | countRows => True
  | countWithin c band => IsName c.name ∧ 0 ≤ band.low ∧ 0 ≤ band.high
  | firstPresent c d => IsName c.name ∧ IsName d.name

instance : (e : Expression) → Decidable e.Plain
  | .column _ | .countDistinct _ | .sum _ | .average _ _ => inferInstanceAs (Decidable (IsName _))
  | .countRows => inferInstanceAs (Decidable True)
  | .countWithin _ _ => inferInstanceAs (Decidable (_ ∧ _))
  | .firstPresent _ _ => inferInstanceAs (Decidable (_ ∧ _))

/-- The expression and the label of an item are plain. -/
def Item.Plain (i : Item) : Prop := i.expression.Plain ∧ ∀ l ∈ i.label, IsName l

instance (i : Item) : Decidable i.Plain := inferInstanceAs (Decidable (_ ∧ _))

theorem quiet_renderBand {band : ScoreBand} (hlow : 0 ≤ band.low) (hhigh : 0 ≤ band.high) :
    Quiet reserved itemSigns (renderBand band) := by
  obtain ⟨low, hl⟩ := Int.eq_ofNat_of_zero_le hlow
  obtain ⟨high, hh⟩ := Int.eq_ofNat_of_zero_le hhigh
  unfold renderBand
  rw [hl, hh]
  exact ((quiet_toString low _).after (by decide)).join (by decide)
    (quiet_toString high _)

theorem Expression.quiet {e : Expression} (h : e.Plain) : Quiet reserved itemSigns e.render := by
  have hdot : '.' ∈ itemSigns := by decide
  cases e with
  | column c => exact c.quiet h hdot
  | countRows => decide
  | countDistinct c =>
    exact ((c.quiet h hdot).after (by decide)).before (by decide)
  | countWithin c band =>
    exact (((c.quiet h.1 hdot).after (by decide)).join (by decide)
      (quiet_renderBand h.2.1 h.2.2)).before (by decide)
  | sum c => exact ((c.quiet h hdot).after (by decide)).before (by decide)
  | average c places =>
    exact (((c.quiet h hdot).after (by decide)).join (by decide)
      (quiet_toString places _)).before (by decide)
  | firstPresent c d =>
    exact (((c.quiet h.1 hdot).after (by decide)).join (by decide)
      (d.quiet h.2 hdot)).before (by decide)

theorem Item.quiet {i : Item} (h : i.Plain) : Quiet reserved itemSigns i.render := by
  unfold Item.render
  cases hl : i.label with
  | none => simpa using Expression.quiet h.1
  | some l =>
    simp only
    rw [← String.append_assoc]
    exact (Expression.quiet h.1).join (by decide) ((h.2 l hl).quiet _)

/-! ### Conditions and orders -/

/-- The column of a condition has a plain name. -/
def Conjunct.Plain : Conjunct → Prop
  | ofTenant _ | notCancelled => True
  | compare c _ _ | between c _ => IsName c.name

theorem Conjunct.quiet {k : Conjunct} (h : k.Plain) : Quiet reserved conjunctSigns k.render := by
  have hdot : '.' ∈ conjunctSigns := by decide
  cases k with
  | ofTenant t =>
    exact (Column.quiet (by decide : IsName "tenant_id") hdot).join (by decide)
      (quiet_placeholder _)
  | notCancelled => decide
  | compare c comparison number =>
    refine ((Column.quiet h hdot).join (by decide) ?_).join (by decide)
      (quiet_placeholder number)
    cases comparison <;> decide
  | between c number =>
    exact ((Column.quiet h hdot).join (by decide) (quiet_placeholder number)).join
      (by decide) (quiet_placeholder (number + 1))

theorem render_ofTenant (t : Table) :
    (Conjunct.ofTenant t).render = t.shortName ++ ".tenant_id = $1" := by
  cases t <;> decide

theorem render_notCancelled : Conjunct.notCancelled.render = "b.status != 'cancelled'" := by
  decide

theorem render_compare (t : Table) (field : String) (comparison : Comparison) (k : Nat) :
    (Conjunct.compare ⟨t, field⟩ comparison k).render =
      t.shortName ++ "." ++ field ++ " " ++ comparisonSign comparison ++ " $" ++ toString k := by
  rw [← String.toList_inj]
  simp [Conjunct.render, Column.render, placeholder]

theorem render_between (t : Table) (field : String) (k : Nat) :
    (Conjunct.between ⟨t, field⟩ k).render =
      t.shortName ++ "." ++ field ++ " BETWEEN $" ++ toString k ++ " AND $" ++
        toString (k + 1) := by
  rw [← String.toList_inj]
  simp [Conjunct.render, Column.render, placeholder]

theorem map_render_timeConjuncts (t : Table) (k : Nat) (timed : Bool) :
    (timeConjuncts t k timed).map Conjunct.render =
      if timed then [t.shortName ++ ".created_at >= $" ++ toString k,
        t.shortName ++ ".created_at <= $" ++ toString (k + 1)] else [] := by
  have hcreated : ∀ (comparison : Comparison) (k : Nat),
      (Conjunct.compare ⟨t, "created_at"⟩ comparison k).render =
        t.shortName ++ (".created_at " ++ comparisonSign comparison ++ " $") ++ toString k := by
    intro comparison k
    rw [render_compare, ← String.toList_inj]
    simp
  have hsince : ".created_at " ++ comparisonSign .gte ++ " $" = ".created_at >= $" := by decide
  have huntil : ".created_at " ++ comparisonSign .lte ++ " $" = ".created_at <= $" := by decide
  cases timed with
  | false => rfl
  | true =>
    simp only [timeConjuncts, if_true, List.map_cons, List.map_nil, hcreated, hsince, huntil]

/-- The name in an order is plain. -/
def OrderKey.Plain : OrderKey → Prop
  | column c => IsName c.name
  | label name => IsName name

instance : (k : OrderKey) → Decidable k.Plain
  | .column _ | .label _ => inferInstanceAs (Decidable (IsName _))

theorem OrderKey.quiet {k : OrderKey} (h : k.Plain) : Quiet reserved itemSigns k.render := by
  cases k with
  | column c => exact (Column.quiet h (by decide)).before (by decide)
  | label name => exact (IsName.quiet h _).before (by decide)

/-! ### Names in drafts -/

/-- All names in what is shown of rows are plain. -/
def Shape.Plain (s : Shape) : Prop :=
  (∀ i ∈ s.items, i.Plain) ∧ (∀ c ∈ s.groupBy, IsName c.name) ∧ ∀ k ∈ s.orderBy, k.Plain

instance (s : Shape) : Decidable s.Plain := inferInstanceAs (Decidable (_ ∧ _ ∧ _))

theorem shape_plain {c : Classification} {s : Selection}
    (h : template? c = some (.selection s)) : s.shape.Plain := by
  have hlead : ∀ i, (leadShape i).Plain := by intro i; cases i <;> decide
  have hcontact : ∀ i, (contactShape i).Plain := by intro i; cases i <;> decide
  have hbooking : ∀ i, (bookingShape i).Plain := by intro i; cases i <;> decide
  have hrevenue : revenueShape.Plain := by decide
  rcases selection_cases h with ⟨-, rfl⟩ | ⟨-, rfl⟩ | ⟨-, rfl⟩ | ⟨-, rfl⟩
  · exact hlead c.intent
  · exact hcontact c.intent
  · exact hbooking c.intent
  · exact hrevenue

theorem isName_of_fieldTable? {field : String} {t : Table} (h : fieldTable? field = some t) :
    IsName field := by
  have key : ∀ field ∈ contactFields ++ bookingFields, IsName field := by decide
  refine key field ?_
  unfold fieldTable? at h
  rw [List.mem_append]
  split_ifs at h with h₁ h₂
  · exact Or.inl (by simpa using h₁)
  · exact Or.inr (by simpa using h₂)

theorem conjunctsFrom_plain {available : List Table} {keys : List (String × Operator)}
    (h : checkFields available (keys.map Prod.fst) = .ok ()) (number : Nat) :
    ∀ k ∈ conjunctsFrom number keys, k.Plain := by
  rw [checkFields_eq_ok_iff] at h
  induction keys generalizing number with
  | nil => simp [conjunctsFrom]
  | cons key rest ih =>
    obtain ⟨field, operator⟩ := key
    obtain ⟨t, -, ht⟩ := h field (by simp)
    have hname : IsName (columnFor field).name := isName_of_fieldTable? ht
    intro k hk
    rcases List.mem_cons.1 hk with rfl | hk
    · cases operator <;> exact hname
    · exact ih (fun f hf => h f (List.mem_cons_of_mem _ hf)) _ k hk

/-- All names in a selection are plain. -/
structure Select.Plain (s : Select) : Prop where
  items : ∀ i ∈ s.items, i.Plain
  conditions : ∀ k ∈ s.conditions, k.Plain
  groupBy : ∀ c ∈ s.groupBy, IsName c.name
  orderBy : ∀ k ∈ s.orderBy, k.Plain

theorem conditions_plain {c : Classification} {s : Selection} {keys : List (String × Operator)}
    (h : template? c = some (.selection s))
    (hfields : checkFields s.available (keys.map Prod.fst) = .ok ()) (timed : Bool) :
    ∀ k ∈ s.conditions keys timed, k.Plain := by
  have hfixed : ∀ k ∈ s.fixed, k.Plain := by
    rcases selection_cases h with ⟨-, rfl⟩ | ⟨-, rfl⟩ | ⟨-, rfl⟩ | ⟨-, rfl⟩ <;>
      simp [Conjunct.Plain]
  have htimes : ∀ n, ∀ k ∈ timeConjuncts s.base n timed, k.Plain := by
    have hname : IsName "created_at" := by decide
    cases timed <;> simp [timeConjuncts, Conjunct.Plain, hname]
  intro k hk
  simp only [Selection.conditions, List.mem_cons, List.mem_append] at hk
  rcases hk with rfl | (hk | hk) | hk
  · trivial
  · exact hfixed k hk
  · exact conjunctsFrom_plain hfields 2 k hk
  · exact htimes _ k hk

theorem select_plain {c : Classification} {s : Selection} {keys : List (String × Operator)}
    (h : template? c = some (.selection s))
    (hfields : checkFields s.available (keys.map Prod.fst) = .ok ()) (limit : Int) (timed : Bool) :
    (s.select limit keys timed).Plain :=
  ⟨(shape_plain h).1, conditions_plain h hfields timed, (shape_plain h).2.1, (shape_plain h).2.2⟩

end CrmQuery.Sql
