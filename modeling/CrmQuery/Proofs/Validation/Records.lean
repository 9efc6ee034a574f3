import CrmQuery.Proofs.Question.Failure
import CrmQuery.Proofs.Sql.Refusals
import CrmQuery.Proofs.Validation.NormalForms

/-!
# Records in normal form

Filters, timeframes, classifications and queries are checked, written as JSON and checked again
without a change.  The main statement is `records_faithful`.
-/

namespace CrmQuery

open Json (Everywhere Writable FieldsWritable)

/-! ### Filters -/

theorem Scalar.writable_of_ofJson {j : Json} (hj : j.Writable) {a : Scalar}
    (h : Scalar.ofJson j = .ok a) : a.toJson.Everywhere Writable := by
  unfold Scalar.ofJson at h
  split at h
  · cases h
    exact .of_parts_eq_nil hj rfl
  · cases h
    exact .of_parts_eq_nil True.intro rfl
  · cases h
    exact .of_parts_eq_nil True.intro rfl
  · rename_i b
    cases h
    exact .of_parts_eq_nil (Lenient.natAbs_lt_of_int hj rfl) rfl
  · cases h

theorem OneOrMany.writable_of_ofJson {j : Json} (hj : j.Everywhere Writable) {value : OneOrMany}
    (h : OneOrMany.ofJson j = .ok value) : ∀ a ∈ value.scalars, a.toJson.Everywhere Writable := by
  unfold OneOrMany.ofJson at h
  split at h
  · rename_i a ha
    cases h
    exact List.forall_mem_singleton.2 (Scalar.writable_of_ofJson hj.here ha)
  · split at h
    · rename_i as has
      cases h
      rw [Checked.under_eq_ok_iff] at has
      intro a ha
      unfold Lenient.list at has
      split at has
      · obtain ⟨item, hin, hitem⟩ := Checked.exists_of_each_eq_ok has a ha
        exact Scalar.writable_of_ofJson (hj.inside item hin).here hitem
      · cases has
    · cases h

theorem Filter.exists_of_ofJson {j : Json} {f : Filter} (h : Filter.ofJson j = .ok f) :
    ∃ w value, j.field? "value" = some w ∧ OneOrMany.ofJson w = .ok value ∧
      f.condition.values = value.scalars := by
  unfold Filter.ofJson record at h
  split at h
  · obtain ⟨⟨field, operator, value⟩, hfields, h⟩ := exists_of_bind_eq_ok h
    obtain ⟨condition, hcondition, h⟩ := exists_of_bind_eq_ok h
    cases h
    simp only [Checked.both_eq_ok_iff, Checked.required_eq_ok_iff] at hfields
    obtain ⟨-, -, w, hw, hvalue⟩ := hfields
    exact ⟨w, value, hw, hvalue, (Condition.eq_of_of_eq_ok hcondition).2⟩
  · cases h

theorem normalForm_filter : NormalForm Filter.ofJson Filter.toJson where
  again := fun {_} f _ => f.ofJson_toJson
  writable := fun {j} f hw h => by
    obtain ⟨w, value, hfield, hvalue, hvalues⟩ := Filter.exists_of_ofJson h
    have hall := OneOrMany.writable_of_ofJson (everywhere_of_field? hw hfield) hvalue
    rw [← hvalues] at hall
    refine FieldsWritable.object ⟨by simp, ?_⟩
    obtain ⟨field, condition⟩ := f
    cases condition with
    | compare c v => simpa [Condition.values] using hall
    | between low high =>
      have hpair : (Json.array [low.toJson, high.toJson]).Everywhere Writable :=
        .of True.intro (by simpa [Json.parts, Condition.values] using hall)
      simpa using hpair

/-! ### Timeframes -/

theorem RelativeWindow.ofJson_eq_ok_iff {j : Json} {w : RelativeWindow} :
    RelativeWindow.ofJson j = .ok w ↔
      (Checked.required "period" (Lenient.literal Period.all Period.name) j = .ok w.period ∧
        Checked.required "count" positiveCount j = .ok ⟨w.count, w.count_pos⟩) ∧
      Checked.required "start" Lenient.moment j = .ok w.start ∧
      Checked.required "end" Lenient.moment j = .ok w.stop := by
  unfold RelativeWindow.ofJson
  constructor
  · intro h
    obtain ⟨⟨⟨period, count⟩, start, stop⟩, hfields, h⟩ := exists_of_bind_eq_ok h
    cases h
    simpa only [Checked.both_eq_ok_iff] using hfields
  · intro h
    simp only [← Checked.both_eq_ok_iff] at h
    rw [h]
    rfl

theorem Timeframe.absoluteOfJson_eq_ok_iff {j : Json} {t : Timeframe} :
    Timeframe.absoluteOfJson j = .ok t ↔ ∃ start stop, t = .absolute start stop ∧
      Checked.required "start" Lenient.moment j = .ok start ∧
      Checked.required "end" Lenient.moment j = .ok stop := by
  unfold Timeframe.absoluteOfJson
  constructor
  · intro h
    obtain ⟨⟨start, stop⟩, hfields, h⟩ := exists_of_bind_eq_ok h
    cases h
    exact ⟨start, stop, rfl, Checked.both_eq_ok_iff.1 hfields⟩
  · rintro ⟨start, stop, rfl, hfields⟩
    rw [Checked.both_eq_ok_iff.2 hfields]
    rfl

/-- The variant of a timeframe is the one that its field `type` tells. -/
theorem Timeframe.of_ofJson_eq_ok {j : Json} {t : Timeframe} (h : Timeframe.ofJson j = .ok t) :
    (∃ w, t = .relative w ∧ RelativeWindow.ofJson j = .ok w) ∨
      Timeframe.absoluteOfJson j = .ok t := by
  unfold Timeframe.ofJson at h
  obtain ⟨fields, -, h⟩ := exists_of_bind_eq_ok h
  split at h
  · cases h
  · rw [Checked.under_eq_ok_iff, map_eq_ok_iff] at h
    obtain ⟨w, hw, rfl⟩ := h
    exact Or.inl ⟨w, rfl, hw⟩
  · exact Or.inr (Checked.under_eq_ok_iff.1 h)
  · cases h

theorem Timeframe.ofJson_relative {j : Json} (h : j.field? "type" = some (.string "relative")) :
    Timeframe.ofJson j =
      Checked.under (.key "relative") ((RelativeWindow.ofJson j).map relative) := by
  cases j with
  | object fields =>
    have htype : fields.lookup "type" = some (.string "relative") := h
    simp only [Timeframe.ofJson, Lenient.fields, bind, Except.bind, htype]
  | _ => cases h

theorem Timeframe.ofJson_absolute {j : Json} (h : j.field? "type" = some (.string "absolute")) :
    Timeframe.ofJson j = Checked.under (.key "absolute") (Timeframe.absoluteOfJson j) := by
  cases j with
  | object fields =>
    have htype : fields.lookup "type" = some (.string "absolute") := h
    simp only [Timeframe.ofJson, Lenient.fields, bind, Except.bind, htype]
  | _ => cases h

theorem isNormalField_period : IsNormalField
    (Checked.required "period" (Lenient.literal Period.all Period.name)) "period"
    fun p => .string p.name :=
  (Lenient.normalForm_literal Period.all Period.name).required "period"

theorem isNormalField_count :
    IsNormalField (Checked.required "count" positiveCount) "count" fun n => .int n.1 :=
  normalForm_positiveCount.required "count"

theorem normalForm_relativeWindow :
    NormalForm RelativeWindow.ofJson fun w => Timeframe.toJson (.relative w) where
  again := fun {_} w h => by
    obtain ⟨⟨hperiod, hcount⟩, hstart, hstop⟩ := RelativeWindow.ofJson_eq_ok_iff.1 h
    have hmoment := Lenient.normalForm_moment
    exact RelativeWindow.ofJson_eq_ok_iff.2
      ⟨⟨isNormalField_period.again hperiod rfl, isNormalField_count.again hcount rfl⟩,
        (hmoment.required "start").again hstart rfl, (hmoment.required "end").again hstop rfl⟩
  writable := fun {_} w hw h => by
    obtain ⟨⟨-, hcount⟩, -⟩ := RelativeWindow.ofJson_eq_ok_iff.1 h
    have hint : (Json.int w.count).Everywhere Writable := isNormalField_count.writable hw hcount
    refine FieldsWritable.object ⟨by simp, ?_⟩
    simpa using hint

theorem normalForm_timeframe : NormalForm Timeframe.ofJson Timeframe.toJson where
  again := fun {_} t h => by
    rcases Timeframe.of_ofJson_eq_ok h with ⟨w, rfl, hw⟩ | habsolute
    · have hagain := normalForm_relativeWindow.again hw
      rw [Timeframe.ofJson_relative rfl, hagain]
      rfl
    · obtain ⟨start, stop, rfl, hstart, hstop⟩ := Timeframe.absoluteOfJson_eq_ok_iff.1 habsolute
      have hmoment := Lenient.normalForm_moment
      rw [Timeframe.ofJson_absolute rfl, Checked.under_eq_ok_iff,
        Timeframe.absoluteOfJson_eq_ok_iff]
      exact ⟨start, stop, rfl, (hmoment.required "start").again hstart rfl,
        (hmoment.required "end").again hstop rfl⟩
  writable := fun {_} t hw h => by
    rcases Timeframe.of_ofJson_eq_ok h with ⟨w, rfl, hrelative⟩ | habsolute
    · exact normalForm_relativeWindow.writable hw hrelative
    · obtain ⟨start, stop, rfl, -⟩ := Timeframe.absoluteOfJson_eq_ok_iff.1 habsolute
      refine FieldsWritable.object ⟨by simp, ?_⟩
      simp

/-! ### Classifications -/

theorem record_eq_ok_iff {α : Type} {check : Json → Checked α} {j : Json} {a : α} :
    record check j = .ok a ↔ (∃ fields, j = .object fields) ∧ check j = .ok a := by
  unfold record
  cases j with
  | object fields => simp
  | _ => simp [Checked.fault]

theorem Classification.ofJson_eq_ok_iff {j : Json} {c : Classification} :
    Classification.ofJson j = .ok c ↔ (∃ fields, j = .object fields) ∧
      ((Checked.required "domain" (Lenient.named Domain.all Domain.name) j = .ok c.domain ∧
        Checked.optional "intent" .list (Lenient.named Intent.all Intent.name) j = .ok c.intent) ∧
      (Checked.optional "entities" [] Lenient.fields j = .ok c.entities ∧
        Checked.optional "filters" [] (Lenient.list .notArray Filter.ofJson) j = .ok c.filters)) ∧
      (Checked.optional "timeframe" none (Lenient.nullable Timeframe.ofJson) j = .ok c.timeframe ∧
        Checked.optional "aggregation" none
          (Lenient.nullable (Lenient.named Aggregation.all Aggregation.name)) j =
            .ok c.aggregation) ∧
      (Checked.required "confidence" share j = .ok c.confidence ∧
        Checked.optional "language" .de (Lenient.literal Language.all Language.name) j =
          .ok c.language) := by
  unfold Classification.ofJson
  rw [record_eq_ok_iff]
  refine and_congr_right fun _ => ?_
  constructor
  · intro h
    obtain ⟨⟨⟨⟨domain, intent⟩, entities, filters⟩, ⟨timeframe, aggregation⟩, confidence, language⟩,
      hfields, h⟩ := exists_of_bind_eq_ok h
    cases h
    simpa only [Checked.both_eq_ok_iff] using hfields
  · intro h
    simp only [← Checked.both_eq_ok_iff] at h
    rw [h]
    rfl

theorem isNormalField_domain : IsNormalField
    (Checked.required "domain" (Lenient.named Domain.all Domain.name)) "domain"
    fun d => .string d.name :=
  (Lenient.normalForm_named _ _).required _

theorem isNormalField_intent : IsNormalField
    (Checked.optional "intent" .list (Lenient.named Intent.all Intent.name)) "intent"
    fun i => .string i.name :=
  (Lenient.normalForm_named _ _).optional _ rfl (by simp)

theorem isNormalField_entities :
    IsNormalField (Checked.optional "entities" [] Lenient.fields) "entities" .object :=
  Lenient.normalForm_fields.optional _ rfl (.of_parts_eq_nil List.nodup_nil rfl)

theorem isNormalField_filters : IsNormalField
    (Checked.optional "filters" [] (Lenient.list .notArray Filter.ofJson)) "filters"
    fun fs => .array (fs.map Filter.toJson) :=
  (Lenient.normalForm_list normalForm_filter _).optional _ rfl (.of_parts_eq_nil True.intro rfl)

theorem Timeframe.toJson_ne_null (t : Timeframe) : t.toJson ≠ .null := by
  cases t <;> simp [Timeframe.toJson]

theorem isNormalField_timeframe : IsNormalField
    (Checked.optional "timeframe" none (Lenient.nullable Timeframe.ofJson)) "timeframe"
    (Json.ofOption Timeframe.toJson) :=
  (Lenient.normalForm_nullable normalForm_timeframe Timeframe.toJson_ne_null).optional
    _ rfl Json.everywhere_null

theorem isNormalField_aggregation : IsNormalField
    (Checked.optional "aggregation" none
      (Lenient.nullable (Lenient.named Aggregation.all Aggregation.name))) "aggregation"
    (Json.ofOption fun a => .string a.name) :=
  (Lenient.normalForm_nullable (Lenient.normalForm_named _ _) (by simp)).optional
    _ rfl Json.everywhere_null

theorem isNormalField_confidence :
    IsNormalField (Checked.required "confidence" share) "confidence" .float :=
  normalForm_share.required _

theorem isNormalField_language : IsNormalField
    (Checked.optional "language" .de (Lenient.literal Language.all Language.name)) "language"
    fun l => .string l.name :=
  (Lenient.normalForm_literal _ _).optional _ rfl (by simp)

theorem normalForm_classification : NormalForm Classification.ofJson Classification.toJson where
  again := fun {_} c h => by
    obtain ⟨-, ⟨⟨hdomain, hintent⟩, hentities, hfilters⟩, ⟨htimeframe, haggregation⟩, hconfidence,
      hlanguage⟩ := Classification.ofJson_eq_ok_iff.1 h
    refine Classification.ofJson_eq_ok_iff.2 ⟨⟨_, rfl⟩, ⟨⟨?_, ?_⟩, ?_, ?_⟩, ⟨?_, ?_⟩, ?_, ?_⟩
    case refine_1 => exact isNormalField_domain.again hdomain rfl
    case refine_2 => exact isNormalField_intent.again hintent rfl
    case refine_3 => exact isNormalField_entities.again hentities rfl
    case refine_4 => exact isNormalField_filters.again hfilters rfl
    case refine_5 => exact isNormalField_timeframe.again htimeframe rfl
    case refine_6 => exact isNormalField_aggregation.again haggregation rfl
    case refine_7 => exact isNormalField_confidence.again hconfidence rfl
    case refine_8 => exact isNormalField_language.again hlanguage rfl
  writable := fun {_} c hw h => by
    obtain ⟨-, ⟨-, hentities, hfilters⟩, ⟨htimeframe, haggregation⟩, -⟩ :=
      Classification.ofJson_eq_ok_iff.1 h
    refine FieldsWritable.object ⟨by simp [Classification.fields], ?_⟩
    have hentities' := isNormalField_entities.writable hw hentities
    have hfilters' := isNormalField_filters.writable hw hfilters
    have htimeframe' := isNormalField_timeframe.writable hw htimeframe
    have haggregation' := isNormalField_aggregation.writable hw haggregation
    simp [Classification.fields, hentities', hfilters', htimeframe', haggregation']

/-! ### Queries -/

namespace Sql

open Text

theorem lt_of_readNumeral {ds : List Char} {n : Nat} (h : readNumeral ds = .ok n) :
    n < 10 ^ maxNumeralDigits := by
  unfold readNumeral at h
  split at h
  · cases h
  · rename_i hlength
    cases h
    exact (Json.numeral_lt ds).trans_le (Nat.pow_le_pow_right (by decide) (Nat.not_lt.1 hlength))

theorem lt_of_mapM_readNumeral {runs : List (List Char)} {ns : List Nat}
    (h : runs.mapM readNumeral = .ok ns) : ∀ n ∈ ns, n < 10 ^ maxNumeralDigits := by
  induction runs generalizing ns with
  | nil =>
    cases h
    simp
  | cons run runs ih =>
    rw [List.mapM_cons] at h
    obtain ⟨n, hn, h⟩ := exists_of_bind_eq_ok h
    obtain ⟨rest, hrest, h⟩ := exists_of_bind_eq_ok h
    cases h
    exact List.forall_mem_cons.2 ⟨lt_of_readNumeral hn, ih hrest⟩

theorem mem_insertNumber {m n : Nat} {ns : List Nat} (h : m ∈ insertNumber n ns) :
    m = n ∨ m ∈ ns := by
  induction ns with
  | nil => exact Or.inl (List.mem_singleton.1 h)
  | cons k ns ih =>
    unfold insertNumber at h
    split_ifs at h with hlt heq
    · exact List.mem_cons.1 h
    · exact Or.inr h
    · rcases List.mem_cons.1 h with rfl | h
      · exact Or.inr List.mem_cons_self
      · exact (ih h).imp_right (List.mem_cons_of_mem k)

theorem mem_of_mem_foldr_insertNumber {m : Nat} {ns : List Nat} (h : m ∈ ns.foldr insertNumber []) :
    m ∈ ns := by
  induction ns with
  | nil => exact h
  | cons n ns ih =>
    rcases mem_insertNumber h with rfl | h
    · exact List.mem_cons_self
    · exact List.mem_cons_of_mem n (ih h)

/-- A query has no more parameters than a number in its text can count. -/
theorem Query.length_params_lt (q : Query) : q.params.length < 10 ^ maxNumeralDigits := by
  by_cases hnone : q.params.length = 0
  · rw [hnone]
    exact Nat.pow_pos (by decide)
  · have hnumbered := q.numbered
    unfold parameterNumbers at hnumbered
    obtain ⟨ns, hns, hsorted⟩ := map_eq_ok_iff.1 hnumbered
    have hmem : q.params.length ∈ List.range' 1 q.params.length := by
      rw [List.mem_range'_1]
      omega
    rw [← hsorted] at hmem
    exact lt_of_mapM_readNumeral hns _ (mem_of_mem_foldr_insertNumber hmem)

theorem Query.of_eq_ok_iff {sql : String} {params : List Json} {tables : List String}
    {visualization : Visualization} {columns : List String} {q : Query} :
    Query.of sql params tables visualization columns = .ok q ↔ q.sql = sql ∧ q.params = params ∧
      q.tables = tables ∧ q.visualization = visualization ∧ q.expectedColumns = columns := by
  unfold Query.of
  constructor
  · intro h
    split at h
    · cases h
    · split at h
      · cases h
        exact ⟨rfl, rfl, rfl, rfl, rfl⟩
      · cases h
  · rintro ⟨rfl, rfl, rfl, rfl, rfl⟩
    split
    · rename_i e he
      cases he.symm.trans q.numbered
    · rename_i numbers hnumbers
      rw [dif_pos (Except.ok.inj (hnumbers.symm.trans q.numbered))]

theorem Query.ofJson_eq_ok_iff {j : Json} {q : Query} :
    Query.ofJson j = .ok q ↔ (∃ fields, j = .object fields) ∧
      (Checked.required "sql" Lenient.string j = .ok q.sql ∧
        Checked.optional "params" [] (Lenient.list .notArray Lenient.any) j = .ok q.params) ∧
      Checked.optional "tables" [] (Lenient.list .notArray Lenient.string) j = .ok q.tables ∧
      Checked.required "visualization_type" (Lenient.named Visualization.all Visualization.name) j =
        .ok q.visualization ∧
      Checked.optional "expected_columns" [] (Lenient.list .notArray Lenient.string) j =
        .ok q.expectedColumns := by
  unfold Query.ofJson Query.ofFields
  rw [record_eq_ok_iff]
  refine and_congr_right fun _ => ?_
  constructor
  · intro h
    obtain ⟨⟨⟨sql, params⟩, tables, visualization, columns⟩, hfields, h⟩ := exists_of_bind_eq_ok h
    obtain ⟨rfl, rfl, rfl, rfl, rfl⟩ := Query.of_eq_ok_iff.1 (eq_ok_of_mapError h)
    simpa only [Checked.both_eq_ok_iff] using hfields
  · intro h
    simp only [← Checked.both_eq_ok_iff] at h
    rw [h]
    show (Query.of q.sql q.params q.tables q.visualization q.expectedColumns).mapError _ = .ok q
    rw [Query.of_eq_ok_iff.2 ⟨rfl, rfl, rfl, rfl, rfl⟩]
    rfl

theorem isNormalField_sql : IsNormalField (Checked.required "sql" Lenient.string) "sql" .string :=
  Lenient.normalForm_string.required _

theorem isNormalField_params : IsNormalField
    (Checked.optional "params" [] (Lenient.list .notArray Lenient.any)) "params"
    fun vs => .array (vs.map id) :=
  (Lenient.normalForm_list Lenient.normalForm_any _).optional _ rfl
    (.of_parts_eq_nil True.intro rfl)

theorem isNormalField_strings (key : String) : IsNormalField
    (Checked.optional key [] (Lenient.list .notArray Lenient.string)) key Json.strings :=
  (Lenient.normalForm_list Lenient.normalForm_string _).optional _ rfl
    (.of_parts_eq_nil True.intro rfl)

theorem isNormalField_visualization : IsNormalField
    (Checked.required "visualization_type" (Lenient.named Visualization.all Visualization.name))
    "visualization_type" fun v => .string v.name :=
  (Lenient.normalForm_named _ _).required _

theorem normalForm_query : NormalForm Query.ofJson Query.toJson where
  again := fun {_} q h => by
    obtain ⟨-, ⟨hsql, hparams⟩, htables, hvisualization, hcolumns⟩ := Query.ofJson_eq_ok_iff.1 h
    refine Query.ofJson_eq_ok_iff.2 ⟨⟨_, rfl⟩, ⟨?_, ?_⟩, ?_, ?_, ?_⟩
    case refine_1 => exact isNormalField_sql.again hsql rfl
    case refine_2 =>
      refine isNormalField_params.again hparams ?_
      rw [List.map_id]
      rfl
    case refine_3 => exact (isNormalField_strings "tables").again htables rfl
    case refine_4 => exact isNormalField_visualization.again hvisualization rfl
    case refine_5 => exact (isNormalField_strings "expected_columns").again hcolumns rfl
  writable := fun {_} q hw h => by
    obtain ⟨-, ⟨-, hparams⟩, htables, -, hcolumns⟩ := Query.ofJson_eq_ok_iff.1 h
    have hparams' := isNormalField_params.writable hw hparams
    rw [List.map_id] at hparams'
    have htables' := (isNormalField_strings "tables").writable hw htables
    have hcolumns' := (isNormalField_strings "expected_columns").writable hw hcolumns
    have hcount : (Json.int q.params.length).Everywhere Writable :=
      .of_parts_eq_nil q.length_params_lt rfl
    refine FieldsWritable.object ⟨by simp [Query.fields], ?_⟩
    simp [Query.fields, hparams', htables', hcolumns', hcount]

end Sql

/-! ### Faithful JSON -/

/-- Writing the values of a check as JSON loses nothing. -/
structure Faithful {α : Type} (check : Json → Checked α) (toJson : α → Json) : Prop where
  /-- The JSON of a value that was accepted is accepted as the same value. -/
  again : ∀ (j : Json) (a : α), check j = .ok a → check (toJson a) = .ok a
  /-- The JSON of a value that came from a text is read from its own text. -/
  read_write : ∀ (text : String) (j : Json) (a : α), Json.read text = .ok j → check j = .ok a →
    Json.read (Json.write (toJson a)) = .ok (toJson a)

theorem NormalForm.faithful {α : Type} {check : Json → Checked α} {toJson : α → Json}
    (h : NormalForm check toJson) : Faithful check toJson where
  again _ _ := h.again
  read_write _ _ _ htext hj := Json.read_write (h.writable (Json.writable_of_read htext) hj)

/-- Filters, timeframes, classifications and queries are checked, written as JSON, read and checked
again without a change. -/
theorem records_faithful :
    Faithful Filter.ofJson Filter.toJson ∧ Faithful Timeframe.ofJson Timeframe.toJson ∧
      Faithful Classification.ofJson Classification.toJson ∧
      Faithful Sql.Query.ofJson Sql.Query.toJson :=
  ⟨normalForm_filter.faithful, normalForm_timeframe.faithful, normalForm_classification.faithful,
    Sql.normalForm_query.faithful⟩

/-- A truth value is kept as the integer that it counts for and a double as a double, and a moment
keeps the fraction and the offset that it was written with. -/
theorem records_faithful_between :
    let pair := Json.object [("field", .string "budget"), ("operator", .string "between"),
      ("value", .array [.bool true, .float 2.5])]
    let f : Filter := ⟨"budget", .between (.int 1) (.float 2.5)⟩
    let morning := Json.object [("type", .string "absolute"),
      ("start", .string "2024-06-15 08:30:00.25+0200"), ("end", .string "2024-06-15T12:00Z")]
    (Json.read "\x7b\"field\":\"budget\",\"operator\":\"between\",\"value\":[true,2.5]\x7d" =
        .ok pair ∧ Filter.ofJson pair = .ok f ∧ Filter.ofJson f.toJson = .ok f ∧
      Json.read (Json.write f.toJson) = .ok f.toJson) ∧
    ∃ t, Timeframe.ofJson morning = .ok t ∧
      t.start.jsonText = "2024-06-15T08:30:00.250000+02:00" ∧
      Timeframe.ofJson t.toJson = .ok t := by
  intro pair f morning
  obtain ⟨hfilter, htimeframe, -⟩ := records_faithful
  have hread : Json.read
      "\x7b\"field\":\"budget\",\"operator\":\"between\",\"value\":[true,2.5]\x7d" = .ok pair := rfl
  have hmorning : ∃ t, Timeframe.ofJson morning = .ok t ∧
      t.start.jsonText = "2024-06-15T08:30:00.250000+02:00" := ⟨_, rfl, rfl⟩
  obtain ⟨t, ht, hstart⟩ := hmorning
  exact ⟨⟨hread, rfl, hfilter.again pair f rfl, hfilter.read_write _ pair f hread rfl⟩,
    t, ht, hstart, htimeframe.again morning t ht⟩

end CrmQuery
