import CrmQuery.Proofs.Calendar.Instants

/-!
# What the clocks show

At an instant the clocks of a zone show a wall time, for the first or the second time.  Read in this
way the wall time has the offset that it was shown with (`Zone.IsOrderly.offsetAt_shownAt`), so the
moment that the clocks show is the instant (`Moment.instant_of_inZone?`).  For this each change must
have left the wall, with all that it skips or repeats, when the next one comes to it, as in Berlin
(`Zone.isOrderly_berlin`).
-/

namespace CrmQuery

/-! ### Seconds of a year -/

/-- The first second of a year. -/
def yearStart (year : Nat) : Int := (Date.daysBeforeYear year + 1 : Nat) * secondsPerDay

theorem yearStart_le {year year' : Nat} (h : year ≤ year') : yearStart year ≤ yearStart year' := by
  have hdays := Date.monotone_daysBeforeYear h
  unfold yearStart secondsPerDay
  omega

namespace WallTime

theorem seconds_eq (w : WallTime) : w.seconds = w.total / microsPerSecond := by
  have hday : microsPerDay = 86400000000 := by decide
  unfold seconds total
  rw [hday]
  unfold secondsPerDay microsPerSecond
  omega

theorem total_of_addSeconds? {w w' : WallTime} {n : Int} (h : w.addSeconds? n = some w') :
    (w'.total : Int) = w.total + n * microsPerSecond := by
  have hpos : (0 : Int) < microsPerDay := by decide
  unfold addSeconds? at h
  dsimp only at h
  generalize n * (microsPerSecond : Int) = t at h ⊢
  obtain ⟨d, hd, rfl⟩ := Option.map_eq_some_iff.1 h
  have hsplit := Int.mul_ediv_add_emod (w.micros + t) microsPerDay
  have hrest := Int.emod_nonneg (w.micros + t) hpos.ne'
  unfold total
  dsimp only
  split_ifs at hd with hsame hnext hlast
  · obtain rfl := Option.some.inj hd
    rw [hsame, Int.mul_zero] at hsplit
    omega
  · rw [hnext, Int.mul_one] at hsplit
    rw [Date.ordinal_of_succ? hd, Nat.add_mul]
    omega
  · have hstep := Date.ordinal_of_pred? hd
    rw [hlast, Int.mul_neg, Int.mul_one] at hsplit
    rw [← hstep, Nat.add_mul]
    omega

theorem seconds_of_addSeconds? {w w' : WallTime} {n : Int} (h : w.addSeconds? n = some w') :
    (w'.seconds : Int) = w.seconds + n := by
  have htotal := total_of_addSeconds? h
  rw [seconds_eq, seconds_eq]
  unfold microsPerSecond at *
  omega

theorem yearStart_le_seconds (w : WallTime) : yearStart w.date.year ≤ w.seconds := by
  have hfirst := w.date.daysBeforeYear_lt_ordinal
  have hle := w.seconds_startOfDay_le
  rw [seconds_startOfDay] at hle
  unfold yearStart secondsPerDay at *
  omega

theorem seconds_lt_yearStart (w : WallTime) : w.seconds < yearStart (w.date.year + 1) := by
  have hlast := w.date.ordinal_le_endOfYear
  have hlt := w.seconds_lt_startOfDay_add
  rw [seconds_startOfDay] at hlt
  unfold yearStart secondsPerDay at *
  omega

theorem le_year_of_yearStart_le {w : WallTime} {year : Nat} (h : yearStart year ≤ w.seconds) :
    year ≤ w.date.year := by
  by_contra hlt
  have hnext : yearStart (w.date.year + 1) ≤ yearStart year :=
    yearStart_le (Nat.lt_of_not_le hlt)
  have hend := w.seconds_lt_yearStart
  omega

theorem year_eq_of_yearStart {w : WallTime} {year : Nat} (hstart : yearStart year ≤ w.seconds)
    (hend : w.seconds < yearStart (year + 1)) : w.date.year = year := by
  refine Nat.le_antisymm ?_ (le_year_of_yearStart_le hstart)
  by_contra hlt
  have hnext : yearStart (year + 1) ≤ yearStart w.date.year :=
    yearStart_le (Nat.lt_of_not_le hlt)
  have hfirst := w.yearStart_le_seconds
  omega

end WallTime

/-! ### Summer time -/

namespace YearlyChange

theorem daysBeforeMonth_lt_ordinal (c : YearlyChange) (year : Nat) :
    Date.daysBeforeYear year + Date.daysBeforeMonth year c.month < c.ordinal year := by
  unfold ordinal
  dsimp only
  omega

/-- A month has at most five of its weekdays. -/
theorem ordinal_le {c : YearlyChange} (hmonth : 1 ≤ c.month) (hweek : c.week ≤ 5) (year : Nat) :
    c.ordinal year ≤ Date.daysBeforeYear year + Date.daysBeforeMonth year (c.month + 1) := by
  have hlength := le_monthLength year c.month
  rw [Date.daysBeforeMonth_succ year hmonth]
  unfold ordinal
  dsimp only
  split_ifs
  all_goals omega

end YearlyChange

namespace YearlyRule

/-- The clocks are put forward and later back in the months from February to November. -/
structure IsOrderly (r : YearlyRule) : Prop where
  standard_nonneg : 0 ≤ r.standard
  standard_lt : r.standard < r.summer
  summer_le : r.summer ≤ secondsPerDay
  begins_month : 2 ≤ r.begins.month
  month_lt : r.begins.month < r.ends.month
  ends_month : r.ends.month ≤ 11
  begins_week : r.begins.week ≤ 5
  ends_week : r.ends.week ≤ 5
  begins_time : 0 ≤ r.begins.time
  time_lt : r.begins.time + r.gain < r.ends.time + secondsPerDay
  ends_time : r.ends.time ≤ secondsPerDay

variable {r : YearlyRule}

theorem offsetAt_eq_standard {w : WallTime} {second : Bool}
    (hw : r.isSummerAt w second ≠ true) : r.offsetAt w second = r.standard :=
  if_neg hw

namespace IsOrderly

variable (h : r.IsOrderly)
include h

theorem gain_pos : 0 < r.gain := Int.sub_pos_of_lt h.standard_lt

theorem begins_ge (year : Nat) : yearStart year + secondsPerDay ≤ r.begins.wall year := by
  have hafter := r.begins.daysBeforeMonth_lt_ordinal year
  have hjanuary : 31 ≤ Date.daysBeforeMonth year r.begins.month :=
    Date.monotone_daysBeforeMonth year h.begins_month
  have htime := h.begins_time
  unfold yearStart YearlyChange.wall secondsPerDay
  omega

theorem begins_lt (year : Nat) : r.begins.wall year + r.gain < r.ends.wall year := by
  have hmonth : 1 ≤ r.begins.month := Nat.le_of_lt h.begins_month
  have hbegins := YearlyChange.ordinal_le hmonth h.begins_week year
  have hends := r.ends.daysBeforeMonth_lt_ordinal year
  have hmonths : Date.daysBeforeMonth year (r.begins.month + 1) ≤
      Date.daysBeforeMonth year r.ends.month :=
    Date.monotone_daysBeforeMonth year h.month_lt
  have htime := h.time_lt
  unfold YearlyChange.wall
  unfold secondsPerDay at *
  omega

theorem ends_le {year : Nat} (hyear : 1 ≤ year) :
    r.ends.wall year + secondsPerDay ≤ yearStart (year + 1) := by
  have hmonth : 1 ≤ r.ends.month := Nat.zero_lt_of_lt h.month_lt
  have hends := YearlyChange.ordinal_le hmonth h.ends_week year
  have hnovember : Date.daysBeforeMonth year (r.ends.month + 1) ≤ Date.daysBeforeMonth year 12 :=
    Date.monotone_daysBeforeMonth year (Nat.succ_le_succ h.ends_month)
  have hdecember : Date.daysBeforeMonth year 13 = Date.daysBeforeMonth year 12 + 31 := rfl
  have htime := h.ends_time
  have hnext := Date.daysBeforeYear_succ hyear
  unfold yearStart YearlyChange.wall
  unfold secondsPerDay at *
  omega

/-- The first reading of what the clocks skip or show twice is before the change. -/
theorem isSummerAt_first_iff (w : WallTime) : r.isSummerAt w false = true ↔
    r.begins.wall w.date.year + r.gain ≤ w.seconds ∧ w.seconds < r.ends.wall w.date.year := by
  have hgain := h.gain_pos
  have hbegins := h.begins_lt w.date.year
  have hfirst : ¬ false = decide (0 ≤ r.gain) := by simpa using hgain.le
  unfold isSummerAt isBetween
  dsimp only
  rw [if_neg hfirst, if_pos hbegins, Bool.and_eq_true, decide_eq_true_iff, decide_eq_true_iff]

theorem isSummerAt_second_iff (w : WallTime) : r.isSummerAt w true = true ↔
    r.begins.wall w.date.year ≤ w.seconds ∧ w.seconds < r.ends.wall w.date.year - r.gain := by
  have hgain := h.gain_pos
  have hbegins := h.begins_lt w.date.year
  have hsecond : true = decide (0 ≤ r.gain) := by simpa using hgain.le
  unfold isSummerAt isBetween
  dsimp only
  rw [if_pos hsecond, if_pos (by omega), Bool.and_eq_true, decide_eq_true_iff, decide_eq_true_iff]

theorem shownAt_eq (u : WallTime) : r.shownAt u =
    (if r.begins.wall u.date.year - r.standard ≤ u.seconds ∧
        u.seconds < r.ends.wall u.date.year - r.summer then r.summer else r.standard,
      decide (r.ends.wall u.date.year - r.summer ≤ u.seconds ∧
        u.seconds < r.ends.wall u.date.year - r.standard)) := by
  have hgain := h.gain_pos
  have hbegins := h.begins_lt u.date.year
  have hsum : r.gain = r.summer - r.standard := rfl
  have horder : r.begins.wall u.date.year - r.standard < r.ends.wall u.date.year - r.summer := by
    omega
  have hover : r.ends.wall u.date.year - r.summer + r.gain =
      r.ends.wall u.date.year - r.standard := by
    omega
  unfold shownAt isBetween
  dsimp only
  rw [if_pos hgain, if_pos horder, hover, Bool.decide_and]
  simp only [Bool.and_eq_true, decide_eq_true_eq]

/-- What the clocks show before, in and after summer time, and while they repeat. -/
theorem shownAt_cases (u : WallTime) :
    (u.seconds < r.begins.wall u.date.year - r.standard ∧ r.shownAt u = (r.standard, false)) ∨
    (r.begins.wall u.date.year - r.standard ≤ u.seconds ∧
      u.seconds < r.ends.wall u.date.year - r.summer ∧ r.shownAt u = (r.summer, false)) ∨
    (r.ends.wall u.date.year - r.summer ≤ u.seconds ∧
      u.seconds < r.ends.wall u.date.year - r.standard ∧ r.shownAt u = (r.standard, true)) ∨
    (r.ends.wall u.date.year - r.standard ≤ u.seconds ∧ r.shownAt u = (r.standard, false)) := by
  have hbegins := h.begins_lt u.date.year
  have hsum : r.gain = r.summer - r.standard := rfl
  have hgain := h.gain_pos
  rw [h.shownAt_eq]
  generalize r.begins.wall u.date.year = begins at hbegins ⊢
  generalize r.ends.wall u.date.year = ends at hbegins ⊢
  by_cases hbegun : begins - r.standard ≤ u.seconds
  · by_cases hended : ends - r.summer ≤ u.seconds
    · rw [if_neg (by omega)]
      by_cases hover : ends - r.standard ≤ u.seconds
      · exact Or.inr (Or.inr (Or.inr ⟨hover, by rw [decide_eq_false (by omega)]⟩))
      · exact Or.inr (Or.inr (Or.inl ⟨hended, by omega, by rw [decide_eq_true (by omega)]⟩))
    · rw [if_pos (by omega), decide_eq_false (by omega)]
      exact Or.inr (Or.inl ⟨hbegun, by omega, rfl⟩)
  · rw [if_neg (by omega), decide_eq_false (by omega)]
    exact Or.inl ⟨by omega, rfl⟩

/-- What the clocks show is read with the offset by which they show it. -/
theorem offsetAt_shownAt {u w : WallTime} (hw : (w.seconds : Int) = u.seconds + (r.shownAt u).1) :
    r.offsetAt w (r.shownAt u).2 = (r.shownAt u).1 := by
  have hyear := u.date.year_pos
  have hstart := u.yearStart_le_seconds
  have hend := u.seconds_lt_yearStart
  have hbegins := h.begins_ge u.date.year
  have hbetween := h.begins_lt u.date.year
  have hends := h.ends_le hyear
  have hstandard := h.standard_nonneg
  have hgain := h.gain_pos
  have hsum : r.gain = r.summer - r.standard := rfl
  have hday := h.summer_le
  rcases h.shownAt_cases u with ⟨hbefore, hshown⟩ | ⟨hbegun, hnow, hshown⟩ |
    ⟨hended, hrepeat, hshown⟩ | ⟨hover, hshown⟩
  all_goals
    rw [hshown] at hw ⊢
    dsimp only at hw ⊢
  · have hwyear : w.date.year = u.date.year := WallTime.year_eq_of_yearStart (by omega) (by omega)
    refine offsetAt_eq_standard ?_
    rw [ne_eq, h.isSummerAt_first_iff, hwyear]
    omega
  · have hwyear : w.date.year = u.date.year := WallTime.year_eq_of_yearStart (by omega) (by omega)
    refine if_pos ?_
    rw [h.isSummerAt_first_iff, hwyear]
    omega
  · have hwyear : w.date.year = u.date.year := WallTime.year_eq_of_yearStart (by omega) (by omega)
    refine offsetAt_eq_standard ?_
    rw [ne_eq, h.isSummerAt_second_iff, hwyear]
    omega
  · refine offsetAt_eq_standard ?_
    rw [ne_eq, h.isSummerAt_first_iff]
    by_cases hlt : (w.seconds : Int) < yearStart (u.date.year + 1)
    · have hwyear : w.date.year = u.date.year := WallTime.year_eq_of_yearStart (by omega) hlt
      rw [hwyear]
      omega
    -- The year turns between universal time and the wall.
    · have hnextbegins := h.begins_ge (u.date.year + 1)
      have hnextbetween := h.begins_lt (u.date.year + 1)
      have hnextends := h.ends_le (Nat.le_add_left 1 u.date.year)
      have hwyear : w.date.year = u.date.year + 1 :=
        WallTime.year_eq_of_yearStart (by omega) (by omega)
      rw [hwyear]
      omega

end IsOrderly

end YearlyRule

/-! ### Changes -/

namespace ClockChange

theorem wallStart_true_le_false (c : ClockChange) (offset : Int) :
    c.wallStart offset true ≤ c.wallStart offset false :=
  Int.add_le_add_left (le_trans (min_le_left _ _) (le_max_left _ _)) c.since

theorem wallStart_le_false (c : ClockChange) (offset : Int) (again : Bool) :
    c.wallStart offset again ≤ c.wallStart offset false := by
  cases again with
  | false => exact le_rfl
  | true => exact c.wallStart_true_le_false offset

theorem wallStart_true_le (c : ClockChange) (offset : Int) (again : Bool) :
    c.wallStart offset true ≤ c.wallStart offset again := by
  cases again with
  | false => exact c.wallStart_true_le_false offset
  | true => exact le_rfl

theorem since_add_le_wallStart_false (c : ClockChange) (offset : Int) :
    c.since + offset ≤ c.wallStart offset false :=
  Int.add_le_add_left (le_max_left offset c.offset) c.since

end ClockChange

/-- A change from an offset is the end of the summer time of a year. -/
def YearlyRule.IsEndOf (r : YearlyRule) (year : Nat) (offset : Int) (c : ClockChange) : Prop :=
  offset = r.summer ∧ c.offset = r.standard ∧ c.since + r.summer = r.ends.wall year

instance (r : YearlyRule) (year : Nat) (offset : Int) (c : ClockChange) :
    Decidable (r.IsEndOf year offset c) :=
  inferInstanceAs (Decidable (_ ∧ _ ∧ _))

namespace Zone

variable {z : Zone}

/-- What a change of an offset skips or repeats is over on the wall when the next one begins to skip
or repeat.  The last change of all is the end of the summer time of a year, if a rule follows. -/
def IsOrderlyFrom (z : Zone) (year : Nat) : Int → List ClockChange → Prop
  | _, [] => True
  | offset, c :: rest =>
    (∀ next ∈ rest.head?, c.wallStart offset false ≤ next.wallStart c.offset true) ∧
      (rest = [] → ∀ r ∈ z.yearly, r.IsEndOf year offset c) ∧ z.IsOrderlyFrom year c.offset rest

instance decidableIsOrderlyFrom (z : Zone) (year : Nat) :
    ∀ (offset : Int) (changes : List ClockChange), Decidable (z.IsOrderlyFrom year offset changes)
  | _, [] => isTrue trivial
  | _, c :: rest =>
    have := decidableIsOrderlyFrom z year c.offset rest
    inferInstanceAs (Decidable (_ ∧ _ ∧ _))

/-- No two changes of the clocks skip or repeat the same. -/
structure IsOrderly (z : Zone) : Prop where
  yearly : ∀ r ∈ z.yearly, r.IsOrderly
  changes : ∃ year, 1 ≤ year ∧ z.IsOrderlyFrom year z.before z.changes

section Shown

variable {u w : WallTime} {year : Nat} {offset : Int} {c : ClockChange} {rest : List ClockChange}

theorem shownFrom_cons_of_lt {shown : Int × Bool} (h : u.seconds < c.since) :
    z.shownFrom u shown (c :: rest) = shown := if_pos h

theorem shownFrom_cons_of_le {shown : Int × Bool} (h : c.since ≤ u.seconds) :
    z.shownFrom u shown (c :: rest) =
      z.shownFrom u (c.offset, u.seconds < c.since + (shown.1 - c.offset)) rest :=
  if_neg (Int.not_lt.2 h)

/-- A change that was made shows on the wall as one, unless the clocks still repeat. -/
theorem wallStart_le_of_since_le (h : c.since ≤ u.seconds) :
    c.wallStart offset (decide (u.seconds < c.since + (offset - c.offset))) ≤
      u.seconds + c.offset := by
  unfold ClockChange.wallStart
  by_cases hrepeat : u.seconds < c.since + (offset - c.offset)
  · rw [decide_eq_true hrepeat, if_pos rfl]
    omega
  · rw [decide_eq_false hrepeat, if_neg Bool.false_ne_true]
    omega

/-- After the end of a summer time the rule shows what is on the wall after it. -/
theorem wallStart_le_of_isEndOf {r : YearlyRule} (hr : r.IsOrderly) (hyear : 1 ≤ year)
    (hend : r.IsEndOf year offset c) (h : c.since ≤ u.seconds) :
    c.wallStart offset (r.shownAt u).2 ≤ u.seconds + (r.shownAt u).1 := by
  obtain ⟨rfl, hoffset, hsince⟩ := hend
  have hstandard := hr.standard_nonneg
  have hlt := hr.standard_lt
  have hday := hr.summer_le
  have hgain : r.gain = r.summer - r.standard := rfl
  have hbegins := hr.begins_ge year
  have hbetween := hr.begins_lt year
  have hends := hr.ends_le hyear
  have hle : year ≤ u.date.year := WallTime.le_year_of_yearStart_le (by omega)
  rcases hle.eq_or_lt with rfl | hlater
  · unfold ClockChange.wallStart
    rw [hoffset]
    rcases hr.shownAt_cases u with ⟨hu, -⟩ | ⟨-, hu, -⟩ | ⟨-, -, hshown⟩ | ⟨hu, hshown⟩
    · omega
    · omega
    · rw [hshown, if_pos rfl]
      dsimp only
      omega
    · rw [hshown, if_neg Bool.false_ne_true]
      dsimp only
      omega
  · have hstart := u.yearStart_le_seconds
    have hnext : yearStart (year + 1) ≤ yearStart u.date.year := yearStart_le hlater
    have hpos : 0 ≤ (r.shownAt u).1 := by
      rcases hr.shownAt_cases u with ⟨-, hshown⟩ | ⟨-, -, hshown⟩ | ⟨-, -, hshown⟩ | ⟨-, hshown⟩
      all_goals
        rw [hshown]
        dsimp only
        omega
    have hall := c.wallStart_le_false r.summer (r.shownAt u).2
    unfold ClockChange.wallStart at hall ⊢
    rw [if_neg Bool.false_ne_true, hoffset] at hall
    rw [hoffset]
    omega

/-- A change that was made shows on the wall, through all that follow it. -/
theorem wallStart_le_shownFrom (hyearly : ∀ r ∈ z.yearly, r.IsOrderly) (hyear : 1 ≤ year)
    {shown : Int × Bool} :
    ∀ {rest : List ClockChange} {offset : Int} {c : ClockChange},
      z.IsOrderlyFrom year offset (c :: rest) → c.since ≤ u.seconds →
      z.shownFrom u (c.offset, decide (u.seconds < c.since + (offset - c.offset))) rest = shown →
      c.wallStart offset shown.2 ≤ u.seconds + shown.1
  | [], offset, c, ⟨_, hlast, _⟩, hsince, hshown => by
    unfold shownFrom at hshown
    obtain rfl := hshown
    cases hrule : z.yearly with
    | none => exact wallStart_le_of_since_le hsince
    | some r => exact wallStart_le_of_isEndOf (hyearly r hrule) hyear (hlast rfl r hrule) hsince
  | next :: rest, offset, c, ⟨hnext, _, hrest⟩, hsince, hshown => by
    by_cases hlt : u.seconds < next.since
    · rw [shownFrom_cons_of_lt hlt] at hshown
      obtain rfl := hshown
      exact wallStart_le_of_since_le hsince
    · rw [Int.not_lt] at hlt
      rw [shownFrom_cons_of_le hlt] at hshown
      calc c.wallStart offset shown.2
          ≤ c.wallStart offset false := c.wallStart_le_false offset shown.2
        _ ≤ next.wallStart c.offset true := hnext next rfl
        _ ≤ next.wallStart c.offset shown.2 := next.wallStart_true_le c.offset shown.2
        _ ≤ u.seconds + shown.1 := wallStart_le_shownFrom hyearly hyear hrest hlt hshown

/-- What the clocks show is read with the offset by which they show it, from an offset on.  While
they repeat, they have not come to the next change on the wall. -/
theorem offsetFrom_shownFrom (hyearly : ∀ r ∈ z.yearly, r.IsOrderly) (hyear : 1 ≤ year)
    {shown : Int × Bool} (hw : (w.seconds : Int) = u.seconds + shown.1) :
    ∀ {changes : List ClockChange} {offset : Int} {again : Bool},
      z.IsOrderlyFrom year offset changes →
      (again = true → ∀ c ∈ changes.head?, u.seconds + offset < c.wallStart offset true) →
      z.shownFrom u (offset, again) changes = shown →
      z.offsetFrom w shown.2 offset changes = shown.1
  | [], offset, again, _, _, hshown => by
    unfold shownFrom at hshown
    unfold offsetFrom
    obtain rfl := hshown
    cases hrule : z.yearly with
    | none => rfl
    | some r =>
      rw [hrule] at hw
      exact (hyearly r hrule).offsetAt_shownAt hw
  | c :: rest, offset, again, hchanges, hagain, hshown => by
    have hstays := c.since_add_le_wallStart_false offset
    by_cases hlt : u.seconds < c.since
    · rw [shownFrom_cons_of_lt hlt] at hshown
      obtain rfl := hshown
      refine offsetFrom_cons_of_lt ?_
      cases again with
      | true => exact hw.trans_lt (hagain rfl c rfl)
      | false =>
        dsimp only at hw ⊢
        omega
    · rw [Int.not_lt] at hlt
      rw [shownFrom_cons_of_le hlt] at hshown
      have hshows := wallStart_le_shownFrom hyearly hyear hchanges hlt hshown
      obtain ⟨hnext, -, hrest⟩ := hchanges
      rw [← hw] at hshows
      rw [offsetFrom_cons_of_le hshows]
      refine offsetFrom_shownFrom hyearly hyear hw hrest (fun hrepeat next hmem => ?_) hshown
      have hover := of_decide_eq_true hrepeat
      have hbetween := hnext next hmem
      omega

end Shown

/-- What the clocks of a zone show is read with the offset by which they show it. -/
theorem IsOrderly.offsetAt_shownAt (h : z.IsOrderly) {u w : WallTime}
    (hw : (w.seconds : Int) = u.seconds + (z.shownAt u).1) :
    z.offsetAt w (z.shownAt u).2 = (z.shownAt u).1 := by
  obtain ⟨year, hyear, hchanges⟩ := h.changes
  exact offsetFrom_shownFrom h.yearly hyear hw hchanges
    (fun hfirst => absurd hfirst Bool.false_ne_true) rfl

end Zone

/-- The moment that the clocks of a zone show at an instant is that instant. -/
theorem Moment.instant_of_inZone? {z : Zone} (hz : z.IsOrderly) {u : WallTime} {m : Moment}
    (h : Moment.inZone? z u = some m) : m.instant = u.total := by
  obtain ⟨w, hw, rfl⟩ := Option.map_eq_some_iff.1 h
  have htotal := WallTime.total_of_addSeconds? hw
  have hoffset := hz.offsetAt_shownAt (WallTime.seconds_of_addSeconds? hw)
  unfold instant offset?
  dsimp only
  rw [hoffset, Option.getD_some, htotal]
  exact Int.add_sub_cancel _ _

/-! ### Known zones -/

namespace Zone

theorem isOrderly_berlin : berlin.IsOrderly where
  yearly := by
    intro r hr
    cases hr
    exact ⟨by decide, by decide, by decide, by decide, by decide, by decide, by decide, by decide,
      by decide, by decide, by decide⟩
  changes := ⟨1996, by decide, by decide +kernel⟩

theorem isOrderly_utc : utc.IsOrderly where
  yearly := by
    intro r hr
    cases hr
  changes := ⟨1, le_rfl, trivial⟩

/-- All zones of this library are orderly. -/
theorem isOrderly_of_mem_known : ∀ entry ∈ known, entry.2.IsOrderly := by
  simp only [known, List.forall_mem_cons, List.not_mem_nil, false_imp_iff, implies_true, and_true]
  exact ⟨isOrderly_berlin, isOrderly_utc⟩

end Zone

theorem mem_of_zoneNamed {zones : List (String × Zone)} {name : String} {z : Zone}
    (h : zoneNamed zones name = .ok z) : (name, z) ∈ zones := by
  unfold zoneNamed at h
  cases hfault : zonePathFault? name with
  | some e => simp [hfault] at h
  | none =>
    cases hlookup : zones.lookup name with
    | none => simp [hfault, hlookup] at h
    | some z' =>
      obtain rfl : z' = z := by simpa [hfault, hlookup] using h
      obtain ⟨before, after, rfl, -⟩ := List.lookup_eq_some_iff.1 hlookup
      exact List.mem_append_right before List.mem_cons_self

end CrmQuery
