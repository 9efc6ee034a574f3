import CrmQuery.Proofs.Question.Timeframe
import CrmQuery.Proofs.Sql.Noninterference
import Mathlib.Data.Option.Basic

/-!
# One question asked at two moments

From the year 12 on, the moment at which a question is asked only decides about the ends of its
timeframe (`Classification.ofQuestion_agrees`): the classifications agree otherwise, and so do the
queries, except for the two values that stand for these ends.
-/

namespace CrmQuery

open Text

/-! ### Timeframes -/

/-- Two timeframes are windows of one kind; if they count units, they count the same ones. -/
inductive Timeframe.SameKind : Timeframe → Timeframe → Prop
  | relative {w w' : RelativeWindow} (period : w.period = w'.period) (count : w.count = w'.count) :
      SameKind (.relative w) (.relative w')
  | absolute (start stop start' stop' : Moment) :
      SameKind (.absolute start stop) (.absolute start' stop')

section Years

variable {now now' : Moment} (hyear : 12 ≤ now.wall.date.year) (hyear' : 12 ≤ now'.wall.date.year)

include hyear in
/-- From the year 12 on, there is a day before. -/
theorem Moment.exists_subtractDays?_one : ∃ day, now.subtractDays? 1 = some day := by
  have hday := Date.lt_ordinal_of_year hyear
  exact Option.isSome_iff_exists.1 (isSome_subtractDays?_iff.2 (by omega))

include hyear hyear'

/-- The last so many units are accepted at both moments, or at neither. -/
theorem RelativeWindow.upTo?_sameKind (p : Period) (count : Nat) :
    Option.Rel Timeframe.SameKind ((upTo? now p count).map .relative)
      ((upTo? now' p count).map .relative) := by
  by_cases hlimit : 1 ≤ count ∧ count ≤ p.maxCount
  · obtain ⟨w, hw⟩ := Option.isSome_iff_exists.1 ((isSome_upTo?_iff hyear).2 hlimit)
    obtain ⟨w', hw'⟩ := Option.isSome_iff_exists.1 ((isSome_upTo?_iff hyear').2 hlimit)
    obtain ⟨hperiod, hcount, -⟩ := looksBack_of_upTo? hw
    obtain ⟨hperiod', hcount', -⟩ := looksBack_of_upTo? hw'
    rw [hw, hw']
    exact .some (.relative (hperiod.trans hperiod'.symm) (hcount.trans hcount'.symm))
  · have hnone := mt (isSome_upTo?_iff hyear).1 hlimit
    have hnone' := mt (isSome_upTo?_iff hyear').1 hlimit
    rw [Option.not_isSome_iff_eq_none.1 hnone, Option.not_isSome_iff_eq_none.1 hnone']
    exact .none

/-- What is referred to is of one kind at both moments. -/
theorem TimeReference.timeframe?_sameKind (r : TimeReference) :
    SameOutcome (Option.Rel Timeframe.SameKind) (r.timeframe? now) (r.timeframe? now') := by
  cases r with
  | today => exact .ok (.some (.absolute ..))
  | yesterday =>
    obtain ⟨day, hday⟩ := Moment.exists_subtractDays?_one hyear
    obtain ⟨day', hday'⟩ := Moment.exists_subtractDays?_one hyear'
    simp only [timeframe?, hday, hday']
    exact .ok (.some (.absolute ..))
  | thisMonth => exact .ok (.some (.absolute ..))
  | past p count => exact .ok (RelativeWindow.upTo?_sameKind hyear hyear' p count)

theorem Timeframe.ofText?_sameKind (s : List Char) :
    SameOutcome (Option.Rel SameKind) (ofText? s now) (ofText? s now') := by
  rw [ofText?_eq, ofText?_eq]
  rcases TimeReference.ofText? s with e | _ | r
  · exact Or.inl ⟨_, rfl, rfl⟩
  · exact .ok .none
  · exact r.timeframe?_sameKind hyear hyear'

end Years

namespace Timeframe.SameKind

variable {t t' : Option Timeframe}

theorem isSome_eq (h : Option.Rel SameKind t t') : t.isSome = t'.isSome := by
  cases h <;> rfl

theorem length_params_eq (h : Option.Rel SameKind t t') :
    (t.toList.flatMap params).length = (t'.toList.flatMap params).length := by
  cases h <;> simp [params]

end Timeframe.SameKind

theorem Timeframe.length_params_le (t : Option Timeframe) :
    (t.toList.flatMap params).length ≤ 2 := by
  cases t <;> simp [params]

/-! ### Classifications -/

/-- Two classifications agree except for the ends of their timeframes. -/
structure Classification.AgreesButEnds (c c' : Classification) : Prop where
  domain : c.domain = c'.domain
  intent : c.intent = c'.intent
  entities : c.entities = c'.entities
  filters : c.filters = c'.filters
  timeframe : Option.Rel Timeframe.SameKind c.timeframe c'.timeframe
  aggregation : c.aggregation = c'.aggregation
  confidence : c.confidence = c'.confidence
  language : c.language = c'.language

/-! ### Queries -/

namespace Sql

/-- Two queries agree except for at most two values at the end. -/
structure Query.AgreesButEnds (q q' : Query) : Prop where
  visible : q.visible = q'.visible
  params : ∃ front ends ends' : List Json, q.params = front ++ ends ∧ q'.params = front ++ ends' ∧
    ends.length = ends'.length ∧ ends.length ≤ 2

section Queries

variable {c c' : Classification} (h : c.AgreesButEnds c')
include h

theorem alike_of_agreesButEnds : c.Alike c' where
  domain := h.domain
  intent := h.intent
  keys := fun _ => by rw [h.filters]
  timed := fun _ => Timeframe.SameKind.isSome_eq h.timeframe

theorem params_of_agreesButEnds {limit limit' : Int} {tenant : String} {q q' : Query}
    (hq : compile limit c tenant = .ok q) (hq' : compile limit' c' tenant = .ok q') :
    ∃ front ends ends' : List Json, q.params = front ++ ends ∧ q'.params = front ++ ends' ∧
      ends.length = ends'.length ∧ ends.length ≤ 2 := by
  rw [params_of_compile hq, params_of_compile hq', ← h.domain]
  split_ifs with hd
  · exact ⟨[.string tenant], [], [], rfl, rfl, rfl, Nat.zero_le 2⟩
  · refine ⟨.string tenant :: c.filters.flatMap Filter.params, _,
      c'.timeframe.toList.flatMap Timeframe.params, rfl, ?_,
      Timeframe.SameKind.length_params_eq h.timeframe, Timeframe.length_params_le _⟩
    unfold paramsOf
    rw [h.filters]
    rfl

theorem compile_agrees (limit : Int) (tenant : String) :
    SameOutcome Query.AgreesButEnds (compile limit c tenant) (compile limit c' tenant) := by
  have hvisible : (compile limit c tenant).map Query.visible =
      (compile limit c' tenant).map Query.visible :=
    compile_visible_eq (alike_of_agreesButEnds h) (fun _ => rfl) tenant tenant
  exact (SameOutcome.of_map_eq hvisible).mono fun q q' hq hq' hsame =>
    ⟨hsame, params_of_agreesButEnds h hq hq'⟩

theorem compileIn_agrees (env : Environment) (tenant : String) :
    SameOutcome Query.AgreesButEnds (compileIn env c tenant) (compileIn env c' tenant) := by
  have hvisible : (compileIn env c tenant).map Query.visible =
      (compileIn env c' tenant).map Query.visible :=
    compileIn_visible_eq (alike_of_agreesButEnds h) (fun _ => rfl) tenant tenant
  refine (SameOutcome.of_map_eq hvisible).mono fun q q' hq hq' hsame => ⟨hsame, ?_⟩
  obtain ⟨limit, hlimit⟩ := exists_compile_of_compileIn hq
  obtain ⟨limit', hlimit'⟩ := exists_compile_of_compileIn hq'
  exact params_of_agreesButEnds h hlimit hlimit'

end Queries

end Sql

/-! ### Questions -/

namespace Classification

/-- Two moments from the year 12 on lead to one classification, except for the ends of its
timeframe, and to one query, except for the values at its end that stand for them. -/
theorem ofQuestion_agrees (question : String) (hint : Option Domain) {now now' : Moment}
    (hyear : 12 ≤ now.wall.date.year) (hyear' : 12 ≤ now'.wall.date.year) :
    SameOutcome
      (fun c c' => c.AgreesButEnds c' ∧ ∀ tenant,
        (∀ limit, SameOutcome Sql.Query.AgreesButEnds (Sql.compile limit c tenant)
          (Sql.compile limit c' tenant)) ∧
        ∀ env, SameOutcome Sql.Query.AgreesButEnds (Sql.compileIn env c tenant)
          (Sql.compileIn env c' tenant))
      (ofQuestion question hint now) (ofQuestion question hint now') := by
  have hagrees : SameOutcome AgreesButEnds (ofQuestion question hint now)
      (ofQuestion question hint now') := by
    refine (SameOutcome.refl _).bind ?_
    rintro entities _ rfl
    refine (Timeframe.ofText?_sameKind hyear hyear' _).bind ?_
    intro timeframe timeframe' hkind
    have htimed := Timeframe.SameKind.isSome_eq hkind
    exact .ok ⟨rfl, rfl, rfl, rfl, hkind, rfl, by rw [htimed], rfl⟩
  exact hagrees.mono fun c c' _ _ h => ⟨h, fun tenant =>
    ⟨fun limit => Sql.compile_agrees h limit tenant, fun env => Sql.compileIn_agrees h env tenant⟩⟩

/-- The bookings of the last ten years, on the first day of the year 12 and in the hour that the
clocks of Berlin show twice. -/
theorem ofQuestion_agrees_months :
    let january : Date :=
      ⟨12, 1, 1, by decide, by decide, by decide, by decide, by decide, by decide⟩
    let october : Date :=
      ⟨2025, 10, 26, by decide, by decide, by decide, by decide, by decide, by decide⟩
    let now : Moment := ⟨.startOfDay january, .floating, false⟩
    let now' : Moment :=
      ⟨⟨october, 2 * microsPerHour + 30 * microsPerMinute, by decide⟩, .berlin, true⟩
    ∃ c c', ofQuestion "Alle Buchungen der letzten 120 Monate" none now = .ok c ∧
      ofQuestion "Alle Buchungen der letzten 120 Monate" none now' = .ok c' ∧
      c.AgreesButEnds c' ∧
      (∀ env, SameOutcome Sql.Query.AgreesButEnds (Sql.compileIn env c "acme")
        (Sql.compileIn env c' "acme")) ∧
      c.timeframe.map (·.start.wall.date.year) = some 2 ∧
      c'.timeframe.map (·.start.wall.date.year) = some 2015 := by
  intro january october now now'
  have hyear : 12 ≤ now.wall.date.year := by decide
  have hyear' : 12 ≤ now'.wall.date.year := by decide
  have hstart : ((ofQuestion "Alle Buchungen der letzten 120 Monate" none now).toOption.bind
      (·.timeframe)).map (·.start.wall.date.year) = some 2 := by decide +kernel
  have hstart' : ((ofQuestion "Alle Buchungen der letzten 120 Monate" none now').toOption.bind
      (·.timeframe)).map (·.start.wall.date.year) = some 2015 := by decide +kernel
  rcases ofQuestion_agrees "Alle Buchungen der letzten 120 Monate" none hyear hyear' with
    ⟨e, he, -⟩ | ⟨c, c', hc, hc', hagrees, hqueries⟩
  · rw [he] at hstart
    cases hstart
  · rw [hc] at hstart
    rw [hc'] at hstart'
    exact ⟨c, c', hc, hc', hagrees, (hqueries "acme").2, hstart, hstart'⟩

end Classification

end CrmQuery
