import CrmQuery.Proofs.Question.Budget
import CrmQuery.Proofs.Question.Timeframe
import CrmQuery.Proofs.Sql.Drafts
import CrmQuery.Proofs.Text.Numerals
import CrmQuery.Validation.Records

/-!
# Questions that cannot be read

The normal form of a question is at most twice as long as the question (`length_normalize_le`), so
all numbers in a question of 500 characters are short enough to be read.  What remains is the day
before the first one of the calendar: `ofQuestion_fails_only_before_calendar` says exactly which
questions cannot be read, and that the classification of any other one is `Sound`.
-/

namespace CrmQuery

open Text Pattern

/-! ### Lengths -/

theorem length_lower_le (s : List Char) : (lower s).length ≤ 2 * s.length := by
  have hchar : ∀ c, (lowerChar c).length ≤ 2 := by
    intro c
    unfold lowerChar
    split_ifs
    · exact le_rfl
    · split <;> simp
  induction s with
  | nil => exact le_rfl
  | cons c s ih =>
    have hlower : lower (c :: s) = lowerChar c ++ lower s := rfl
    have hc := hchar c
    rw [hlower, List.length_append, List.length_cons]
    omega

/-- Blanks around a text are not left by stripping. -/
theorem length_strip_le {a u b : List Char} (ha : ∀ c ∈ a, isBlank c = true)
    (hb : ∀ c ∈ b, isBlank c = true) : (strip (a ++ (u ++ b))).length ≤ u.length := by
  unfold strip stripBy
  rw [List.dropWhile_append_of_pos ha, List.dropWhile_append]
  split_ifs with hu
  · have hnil : b.dropWhile isBlank = [] := by simpa using hb
    simp [hnil]
  · have hb' : ∀ c ∈ b.reverse, isBlank c = true := fun c hc => hb c (List.mem_reverse.1 hc)
    rw [List.reverse_append, List.dropWhile_append_of_pos hb', List.length_reverse]
    calc ((u.dropWhile isBlank).reverse.dropWhile isBlank).length
        ≤ (u.dropWhile isBlank).reverse.length := (List.dropWhile_sublist _).length_le
      _ = (u.dropWhile isBlank).length := List.length_reverse
      _ ≤ u.length := (List.dropWhile_sublist _).length_le

theorem length_normalize_le (question : String) :
    (normalize question).length ≤ 2 * (strip question.toList).length := by
  obtain ⟨a, b, hab, ha, hb⟩ := exists_eq_strip question.toList
  have hlower : lower question.toList = a ++ (lower (strip question.toList) ++ b) := by
    conv_lhs => rw [hab]
    rw [lower_append, lower_append, lower_of_blank ha, lower_of_blank hb, List.append_assoc]
  unfold normalize
  rw [hlower]
  exact (length_strip_le ha hb).trans (length_lower_le _)

/-! ### Numbers -/

section Short

variable {s : List Char} (hs : s.length ≤ maxNumeralDigits)
include hs

/-- The number of a short text is read, whatever its digits are. -/
theorem Budget.exists_ofText?_eq_ok : ∃ b, Budget.ofText? s = .ok b := by
  unfold Budget.ofText?
  cases hfirst : firstMentions s with
  | nil => exact ⟨none, rfl⟩
  | cons m ms =>
    have hm : m ∈ mentions s := List.mem_of_mem_filter (hfirst ▸ List.mem_cons_self)
    obtain ⟨p, -, hp⟩ := List.mem_filterMap.1 hm
    have hnumber : (number m).text.length ≤ s.length := by
      unfold number
      cases hpiece : m.piece? .amount with
      | none => exact Nat.zero_le _
      | some x => exact length_text_le_of_search hp hpiece
    have hfilter : ∀ separators : Char → Bool,
        ((number m).text.filter separators).length ≤ maxNumeralDigits :=
      fun separators => (List.length_filter_le ..).trans (hnumber.trans hs)
    simp only [readAmount, readNumeral_eq_ok (hfilter _)]
    exact ⟨_, rfl⟩

theorem Entities.exists_ofText_eq_ok : ∃ e, Entities.ofText s = .ok e := by
  obtain ⟨b, hb⟩ := Budget.exists_ofText?_eq_ok hs
  unfold Entities.ofText
  rw [hb]
  exact ⟨_, rfl⟩

theorem RelativeWindow.exists_ofMatch?_eq_ok {m : Match}
    (hm : TimePhrase.relative.search s = some m) (now : Moment) :
    ∃ w, RelativeWindow.ofMatch? now m = .ok w := by
  have hcount : ∃ n, relativeCount m = .ok n := by
    unfold relativeCount
    cases hpiece : m.piece? .count with
    | none => exact ⟨1, rfl⟩
    | some x =>
      exact ⟨_, readNumeral_eq_ok ((length_text_le_of_search hm hpiece).trans hs)⟩
  obtain ⟨n, hn⟩ := hcount
  unfold RelativeWindow.ofMatch?
  rw [hn]
  exact ⟨_, rfl⟩

end Short

/-! ### The day before the calendar -/

theorem Moment.subtractDays?_one_eq_none_iff (now : Moment) :
    now.subtractDays? 1 = none ↔ now.wall.date = Date.first := by
  have hstep : now.wall.date.subtractDays 1 = now.wall.date.pred? := by
    unfold Date.subtractDays
    cases now.wall.date.pred? <;> rfl
  unfold Moment.subtractDays?
  rw [hstep, Option.map_eq_none_iff]
  exact now.wall.date.pred?_eq_none_iff

/-- The text asks for yesterday, and there is no such day: today is the first one of the calendar.
A text that names today as well is about today. -/
def AsksBeforeCalendar (s : List Char) (now : Moment) : Prop :=
  TimePhrase.yesterday.occursIn s = true ∧ TimePhrase.today.occursIn s = false ∧
    now.wall.date = Date.first

theorem Timeframe.ofText?_eq_error {s : List Char} {now : Moment} (h : AsksBeforeCalendar s now) :
    Timeframe.ofText? s now = .error .dateOutOfRange := by
  obtain ⟨hyesterday, htoday, hdate⟩ := h
  have hday := now.subtractDays?_one_eq_none_iff.2 hdate
  unfold Timeframe.ofText?
  simp [htoday, hyesterday, hday]

theorem Timeframe.exists_ofText?_eq_ok {s : List Char} (hs : s.length ≤ maxNumeralDigits)
    {now : Moment} (h : ¬ AsksBeforeCalendar s now) : ∃ w, Timeframe.ofText? s now = .ok w := by
  unfold Timeframe.ofText?
  split_ifs with htoday hyesterday hmonth
  · exact ⟨_, rfl⟩
  · cases hday : now.subtractDays? 1 with
    | none =>
      have hdate := now.subtractDays?_one_eq_none_iff.1 hday
      exact absurd ⟨hyesterday, by simpa using htoday, hdate⟩ h
    | some day => exact ⟨_, rfl⟩
  · exact ⟨_, rfl⟩
  · cases hm : TimePhrase.relative.search s with
    | none => exact ⟨_, rfl⟩
    | some m =>
      obtain ⟨w, hw⟩ := RelativeWindow.exists_ofMatch?_eq_ok hs hm now
      exact ⟨w.map .relative, by simp only [hw]; rfl⟩

/-! ### What is read -/

/-- A classification keeps the bounds of its record: its confidence is a share, its filters hold as
many values as their operators take and are read back from what is written of them, and the units
that its timeframe counts are neither too few nor too many. -/
structure Classification.Sound (c : Classification) : Prop where
  confidence_nonneg : 0 ≤ c.confidence
  confidence_le_one : c.confidence ≤ 1
  arity : ∀ f ∈ c.filters, f.condition.values.length = f.condition.operator.arity
  readable : ∀ f ∈ c.filters, Filter.ofJson f.toJson = .ok f
  counted : ∀ w, c.timeframe = some (.relative w) → 1 ≤ w.count ∧ w.count ≤ w.period.maxCount

theorem Evidence.confidence_mem_share {e : Evidence} {n : Nat} (hn : n ≤ 4) (i t : Bool) :
    0 ≤ e.confidence i n t ∧ e.confidence i n t ≤ 1 := by
  have key : ∀ e ∈ [Evidence.words, .hint, .nothing, .other], ∀ n : Fin 5, ∀ i t : Bool,
      0 ≤ e.confidence i n.val t ∧ e.confidence i n.val t ≤ 1 := by
    decide +kernel
  have hmem : e ∈ [Evidence.words, .hint, .nothing, .other] := by cases e <;> decide
  exact key e hmem ⟨n, by omega⟩ i t

theorem Filter.ofJson_toJson (f : Filter) : Filter.ofJson f.toJson = .ok f := by
  obtain ⟨field, condition⟩ := f
  cases condition with
  | compare comparison value => cases comparison <;> cases value <;> rfl
  | between low high => cases low <;> cases high <;> rfl

theorem Classification.sound_of_ofQuestion {question : String} {hint : Option Domain} {now : Moment}
    {c : Classification} (h : ofQuestion question hint now = .ok c) : c.Sound := by
  obtain ⟨e, timeframe, -, htimeframe, rfl⟩ := of_ofQuestion_eq_ok h
  obtain ⟨hnonneg, hle⟩ := Evidence.confidence_mem_share
    (e := (Topic.ofText (normalize question) hint).evidence) e.length_fields_le
    (Intent.ofText? (normalize question)).isSome timeframe.isSome
  refine ⟨hnonneg, hle, fun f _ => f.condition.length_values, fun f _ => f.ofJson_toJson, ?_⟩
  rintro w rfl
  obtain ⟨r, -, hr⟩ := Timeframe.exists_reference htimeframe
  have hback := TimeReference.looksBack_of_timeframe? hr
  exact ⟨hback.count_pos, hback.count_le⟩

/-! ### Questions -/

section Question

variable {question : String} (h : (strip question.toList).length ≤ 500)
include h

theorem length_normalize_le_maxNumeralDigits :
    (normalize question).length ≤ maxNumeralDigits := by
  have hlength := length_normalize_le question
  have hmax : maxNumeralDigits = 4300 := rfl
  omega

/-- A question of at most 500 characters cannot be read only if it asks for the day before the
first one of the calendar.  Every other one has a classification, and that is sound. -/
theorem Classification.ofQuestion_fails_only_before_calendar (hint : Option Domain) (now : Moment) :
    (AsksBeforeCalendar (normalize question) now →
      ofQuestion question hint now = .error .dateOutOfRange) ∧
    (¬ AsksBeforeCalendar (normalize question) now →
      ∃ c, ofQuestion question hint now = .ok c ∧ c.Sound) := by
  have hlength := length_normalize_le_maxNumeralDigits h
  obtain ⟨e, he⟩ := Entities.exists_ofText_eq_ok hlength
  constructor
  · intro hasks
    have htimeframe := Timeframe.ofText?_eq_error hasks
    unfold ofQuestion
    simp only [he, htimeframe]
    rfl
  · intro hasks
    obtain ⟨w, hw⟩ := Timeframe.exists_ofText?_eq_ok hlength hasks
    have hok : ∃ c, ofQuestion question hint now = .ok c := by
      unfold ofQuestion
      simp only [he, hw]
      exact ⟨_, rfl⟩
    obtain ⟨c, hc⟩ := hok
    exact ⟨c, hc, sound_of_ofQuestion hc⟩

end Question

/-- On the first day of the calendar there is no yesterday to be asked about. -/
theorem Classification.ofQuestion_fails_only_before_calendar_yesterday :
    let now : Moment := ⟨.startOfDay Date.first, .floating, false⟩
    ofQuestion "Umsatz gestern" none now = .error .dateOutOfRange ∧
      ∃ c, ofQuestion "Umsatz gestern, heute" none now = .ok c ∧ c.Sound := by
  intro now
  have hasks : AsksBeforeCalendar (normalize "Umsatz gestern") now := by
    refine ⟨?_, ?_, rfl⟩ <;> decide +kernel
  have hshort : (strip "Umsatz gestern".toList).length ≤ 500 := by decide
  have htoday : ¬ AsksBeforeCalendar (normalize "Umsatz gestern, heute") now := by
    intro h
    have hoccurs : TimePhrase.today.occursIn (normalize "Umsatz gestern, heute") = true := by
      decide +kernel
    rw [h.2.1] at hoccurs
    cases hoccurs
  have hshort' : (strip "Umsatz gestern, heute".toList).length ≤ 500 := by decide
  exact ⟨(ofQuestion_fails_only_before_calendar hshort none now).1 hasks,
    (ofQuestion_fails_only_before_calendar hshort' none now).2 htoday⟩

end CrmQuery
