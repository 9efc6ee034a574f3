import CrmQuery.Proofs.Question.Past

/-!
# The units of phrases for the past

The unit that a search for `TimePhrase.relative` remembers comes from all units at once; its period
is looked up afterwards, period by period.  Both know the same words
(`TimePhrase.exists_unit_of_search`) and no word is a unit of two periods (`Period.isOnlyUnit`), so
whatever phrase is found counts the units of one period, up to the limit of this period
(`TimePhrase.counts_of_search`).
-/

namespace CrmQuery

open Text Pattern

/-! ### Words -/

/-- The word is a unit of the period `p` and of no other, in whatever order the periods are
tried. -/
structure Period.IsOnlyUnit (p : Period) (word : List Char) : Prop where
  fitsAll_iff : ∀ q : Period, (∃ r ∈ q.patterns, r.fitsAll word = true) ↔ q = p
  find : ∀ ps : List Period, ps.Perm all →
    ps.find? (fun q => q.patterns.any (·.fitsAll word)) = some p

theorem Period.isOnlyUnit {p : Period} {word : List Char} (h : IsOneOf p.unitWords word) :
    p.IsOnlyUnit word where
  fitsAll_iff := by
    intro q
    rw [← List.any_eq_true, any_fitsAll_iff]
    constructor
    · exact fun hq => unique_of_isOneOf hq h
    · rintro rfl
      exact h
  find := by
    intro ps hps
    exact (find?_eq_some_iff (hps.mem_iff.2 p.mem_all)).2 h

/-- What the search for a phrase for the past remembers as its unit is one of the words for
units. -/
theorem TimePhrase.exists_unit_of_search {s : List Char} {m : Match}
    (h : relative.search s = some m) :
    ∃ u, m.piece? .unit = some u ∧ IsOneOf Period.allUnitWords u.text := by
  obtain ⟨i, -, hfit, -⟩ := search_eq_some_iff.1 h
  obtain ⟨e, he, rfl⟩ := fitAt_eq_some_iff.1 hfit
  obtain ⟨n, w, x, hspells, -, -, -, hunit⟩ :=
    spellsPast_of_fits_relative (fits_of_mem_ends (List.mem_of_head? he))
  obtain ⟨u, hu, rfl⟩ := Option.map_eq_some_iff.1 hunit
  cases hspells with
  | mk _ _ _ hword => exact ⟨u, hu, hword⟩

/-! ### Windows -/

section Windows

variable {now : Moment} {m : Match} {p : Period}

theorem RelativeWindow.ofMatch?_eq (h : relativePeriod? m = some p) :
    ofMatch? now m = (relativeCount m).map (upTo? now p) := by
  unfold ofMatch?
  rw [h]
  cases relativeCount m <;> rfl

/-- A phrase whose period is known has no window only because of the number of its units. -/
theorem RelativeWindow.ofMatch?_eq_none_iff (h : relativePeriod? m = some p) :
    ofMatch? now m = .ok none ↔
      ∃ count, relativeCount m = .ok count ∧ p.Refuses p.maxCount count now := by
  rw [ofMatch?_eq h]
  cases relativeCount m with
  | error e => simp [Except.map]
  | ok count => simp [Except.map, upTo?_eq_none_iff]

/-- Where a phrase for the past is found, there is no timeframe only if this phrase has no
window. -/
theorem Timeframe.ofMatch?_of_ofText? {s : List Char} (h : TimePhrase.relative.search s = some m)
    (hs : ofText? s now = .ok none) : RelativeWindow.ofMatch? now m = .ok none := by
  unfold ofText? at hs
  simp only [h] at hs
  split_ifs at hs with htoday hyesterday hmonth
  · cases hs
  · split at hs <;> cases hs
  · cases hs
  · cases hm : RelativeWindow.ofMatch? now m with
    | error e =>
      rw [hm] at hs
      cases hs
    | ok w =>
      rw [hm] at hs
      obtain rfl := Option.map_eq_none_iff.1 (Except.ok.inj hs)
      rfl

end Windows

/-- The phrase for the past that is found in `s` counts units of the period `p`, and of these there
may be `limit`. -/
structure TimePhrase.CountsUpTo (s : List Char) (m : Match) (p : Period) (limit : Nat) : Prop where
  period : relativePeriod? m = some p
  limited : p.limit? = some limit
  window : ∀ now, RelativeWindow.ofMatch? now m = (relativeCount m).map (RelativeWindow.upTo? now p)
  /-- Only the number of units can be the reason why there is no window. -/
  refused : ∀ now, RelativeWindow.ofMatch? now m = .ok none ↔
    ∃ count, relativeCount m = .ok count ∧ p.Refuses limit count now
  /-- Nothing else can be the reason why there is no timeframe. -/
  missing : ∀ now, Timeframe.ofText? s now = .ok none →
    ∃ count, relativeCount m = .ok count ∧ p.Refuses limit count now

namespace TimePhrase

/-- Wherever a phrase for the past is found, its unit is remembered and is the unit of one period
only, which has a limit.  It is never for want of a period that such a phrase has no timeframe. -/
theorem counts_of_search {s : List Char} {m : Match} (h : relative.search s = some m) :
    ∃ u p limit, m.piece? .unit = some u ∧ Period.ofUnit? u.text = some p ∧
      p.IsOnlyUnit u.text ∧ CountsUpTo s m p limit := by
  obtain ⟨u, hu, hword⟩ := exists_unit_of_search h
  obtain ⟨p, hp⟩ := Period.isOneOf_allUnitWords_iff.1 hword
  have hunit : Period.ofUnit? u.text = some p := Period.ofUnit?_eq_some_iff.2 hp
  have hperiod : relativePeriod? m = some p := by
    rw [relativePeriod?, hu]
    exact hunit
  refine ⟨u, p, p.maxCount, hu, hunit, Period.isOnlyUnit hp, ?_⟩
  constructor
  case period => exact hperiod
  case limited => exact p.limit?_eq
  case window => exact fun _ => RelativeWindow.ofMatch?_eq hperiod
  case refused => exact fun _ => RelativeWindow.ofMatch?_eq_none_iff hperiod
  case missing =>
    intro now hs
    exact (RelativeWindow.ofMatch?_eq_none_iff hperiod).1 (Timeframe.ofMatch?_of_ofText? h hs)

/-- A unit that is written with the Kelvin sign and a long s counts weeks, and of these there may be
520. -/
theorem counts_of_search_kelvin :
    let s := "Umsatz der LETZTEN 521 WEE\u212A\u017F und der letzten Tage".toList
    ∃ m u, relative.search s = some m ∧ m.piece? .unit = some u ∧
      u.text = "WEE\u212A\u017F".toList ∧ Period.ofUnit? u.text = some .week ∧
      Period.IsOnlyUnit .week u.text ∧ CountsUpTo s m .week 520 := by
  intro s
  have hsearch : ∃ m, relative.search s = some m ∧
      (m.piece? .unit).map Piece.text = some "WEE\u212A\u017F".toList :=
    ⟨_, rfl, rfl⟩
  obtain ⟨m, hm, hword⟩ := hsearch
  obtain ⟨u, p, limit, hu, hperiod, honly, hcounts⟩ := counts_of_search hm
  have htext : u.text = "WEE\u212A\u017F".toList := by
    rw [hu] at hword
    exact Option.some.inj hword
  have hweek : Period.ofUnit? u.text = some .week := by
    rw [htext]
    decide
  obtain rfl : p = .week := Option.some.inj (hperiod.symm.trans hweek)
  obtain rfl : limit = 520 := Option.some.inj (hcounts.limited.symm.trans rfl)
  exact ⟨m, u, hm, hu, htext, hperiod, honly, hcounts⟩

end TimePhrase

end CrmQuery
