import CrmQuery.Proofs.Calendar.Days

/-!
# Steps by months

A step by months goes to a month by its number and keeps the day of the month, or takes the last day
of a shorter month (`Date.IsMonthsBefore`).  Steps add up like integers, except that the days which
a short month on the way lacks stay lost, and a longer step goes to an earlier time.  The main
statement is `Moment.subtractMonths_acts`.
-/

namespace CrmQuery

/-! ### Dates -/

namespace Date

/-- The number of days of the month of a day. -/
def monthDays (d : Date) : Nat := monthLength d.year d.month

/-- Two days lie in one month. -/
structure SameMonth (d e : Date) : Prop where
  year : d.year = e.year
  month : d.month = e.month

/-- The day `e` lies in the month `n` before that of `d`, on the same day of the month, or on the
last one if that month is shorter. -/
structure IsMonthsBefore (d : Date) (n : Int) (e : Date) : Prop where
  monthIndex : e.monthIndex = d.monthIndex - n
  day : e.day = min d.day e.monthDays

variable {d e f : Date} {n : Int}

theorem monthIndex_div (d : Date) : d.monthIndex / 12 = d.year := by
  have := d.month_pos
  have := d.month_le
  unfold Date.monthIndex
  omega

theorem monthIndex_mod (d : Date) : d.monthIndex % 12 + 1 = d.month := by
  have := d.month_pos
  have := d.month_le
  unfold Date.monthIndex
  omega

/-- The number of a month tells the year and the month in it. -/
theorem sameMonth_of_monthIndex (h : d.monthIndex = e.monthIndex) : d.SameMonth e := by
  constructor
  · have hyear := d.monthIndex_div
    rw [h, e.monthIndex_div] at hyear
    exact_mod_cast hyear.symm
  · have hmonth := d.monthIndex_mod
    rw [h, e.monthIndex_mod] at hmonth
    exact_mod_cast hmonth.symm

theorem SameMonth.monthDays_eq (h : d.SameMonth e) : d.monthDays = e.monthDays := by
  unfold monthDays
  rw [h.year, h.month]

theorem IsMonthsBefore.unique (he : d.IsMonthsBefore n e) (hf : d.IsMonthsBefore n f) : e = f := by
  have hsame := sameMonth_of_monthIndex (he.monthIndex.trans hf.monthIndex.symm)
  refine Date.ext hsame.year hsame.month ?_
  rw [he.day, hf.day, hsame.monthDays_eq]

/-- A step fails with the year that it leads to, if that is not in the calendar. -/
theorem subtractMonths_eq_error_iff {year : Int} : d.subtractMonths n = .error year ↔
    year = (d.monthIndex - n) / 12 ∧ ¬ (1 ≤ year ∧ year ≤ 9999) := by
  simp only [subtractMonths]
  constructor
  · intro h
    split_ifs at h with hyear
    obtain rfl := Except.error.inj h
    exact ⟨rfl, hyear⟩
  · rintro ⟨rfl, hyear⟩
    rw [dif_neg hyear]

theorem isMonthsBefore_of_subtractMonths (h : d.subtractMonths n = .ok e) :
    d.IsMonthsBefore n e := by
  simp only [subtractMonths] at h
  split_ifs at h with hyear
  obtain rfl := Except.ok.inj h
  refine ⟨?_, rfl⟩
  simp only [Date.monthIndex] at hyear ⊢
  omega

theorem subtractMonths_eq_ok_iff : d.subtractMonths n = .ok e ↔ d.IsMonthsBefore n e := by
  refine ⟨isMonthsBefore_of_subtractMonths, fun h => ?_⟩
  cases hstep : d.subtractMonths n with
  | error year =>
    obtain ⟨rfl, hyear⟩ := subtractMonths_eq_error_iff.1 hstep
    rw [← h.monthIndex, e.monthIndex_div] at hyear
    have := e.year_pos
    have := e.year_le
    omega
  | ok f => rw [h.unique (isMonthsBefore_of_subtractMonths hstep)]

/-- A step stays in the calendar if it leads to the month of some day. -/
theorem exists_isMonthsBefore (h : e.monthIndex = d.monthIndex - n) :
    ∃ f, d.IsMonthsBefore n f := by
  cases hstep : d.subtractMonths n with
  | error year =>
    obtain ⟨rfl, hyear⟩ := subtractMonths_eq_error_iff.1 hstep
    rw [← h, e.monthIndex_div] at hyear
    have := e.year_pos
    have := e.year_le
    omega
  | ok f => exact ⟨f, isMonthsBefore_of_subtractMonths hstep⟩

end Date

/-! ### Moments -/

namespace Moment

/-- The moment `x` is `n` months before `m`, at the same time of day. -/
structure IsMonthsBefore (m : Moment) (n : Int) (x : Moment) : Prop where
  date : m.wall.date.IsMonthsBefore n x.wall.date
  micros : x.wall.micros = m.wall.micros
  rule : x.rule = m.rule
  second : x.second = m.second

variable {m x y : Moment} {a b n : Int}

theorem subtractMonths_eq_ok_iff : m.subtractMonths n = .ok x ↔ m.IsMonthsBefore n x := by
  have hmap : m.subtractMonths n = .ok x ↔ ∃ d, m.wall.date.subtractMonths n = .ok d ∧
      { m with wall := { m.wall with date := d } } = x := by
    unfold subtractMonths
    cases m.wall.date.subtractMonths n with
    | error year => simp [Except.map]
    | ok d => simp [Except.map]
  rw [hmap]
  constructor
  · rintro ⟨d, hd, rfl⟩
    exact ⟨Date.subtractMonths_eq_ok_iff.1 hd, rfl, rfl, rfl⟩
  · intro h
    refine ⟨x.wall.date, Date.subtractMonths_eq_ok_iff.2 h.date, ?_⟩
    exact Moment.ext (WallTime.ext rfl h.micros.symm) h.rule.symm h.second.symm

theorem subtractMonths_eq_error_iff {year : Int} : m.subtractMonths n = .error year ↔
    year = (m.wall.date.monthIndex - n) / 12 ∧ ¬ (1 ≤ year ∧ year ≤ 9999) := by
  rw [← Date.subtractMonths_eq_error_iff]
  unfold subtractMonths
  cases m.wall.date.subtractMonths n <;> simp [Except.map]

/-- A step stays in the calendar if it leads to the month of some moment. -/
theorem exists_isMonthsBefore (h : x.wall.date.monthIndex = m.wall.date.monthIndex - n) :
    ∃ y, m.IsMonthsBefore n y := by
  obtain ⟨d, hd⟩ := Date.exists_isMonthsBefore h
  exact ⟨{ m with wall := { m.wall with date := d } }, hd, rfl, rfl, rfl⟩

/-- A longer step goes to an earlier time. -/
theorem IsMonthsBefore.total_lt (hx : m.IsMonthsBefore a x) (hy : m.IsMonthsBefore b y)
    (h : a < b) : y.wall.total < x.wall.total := by
  have hindex : y.wall.date.monthIndex < x.wall.date.monthIndex := by
    rw [hx.date.monthIndex, hy.date.monthIndex]
    omega
  have hday := Date.ordinal_lt_of_monthIndex_lt hindex
  unfold WallTime.total
  rw [hx.micros, hy.micros]
  exact Nat.add_lt_add_right (Nat.mul_lt_mul_of_pos_right hday (by decide)) _

/-- Two steps lead to the month of the step that joins them, and the shortest of the months decides
about the day. -/
theorem IsMonthsBefore.exists_joined (hx : m.IsMonthsBefore a x) (hy : x.IsMonthsBefore b y) :
    ∃ z, m.IsMonthsBefore (a + b) z ∧ y.wall.date.SameMonth z.wall.date ∧
      y.wall.date.day =
        min (min m.wall.date.day x.wall.date.monthDays) z.wall.date.monthDays := by
  have hindex : y.wall.date.monthIndex = m.wall.date.monthIndex - (a + b) := by
    rw [hy.date.monthIndex, hx.date.monthIndex]
    omega
  obtain ⟨z, hz⟩ := exists_isMonthsBefore hindex
  have hsame := Date.sameMonth_of_monthIndex (hindex.trans hz.date.monthIndex.symm)
  refine ⟨z, hz, hsame, ?_⟩
  rw [hy.date.day, hx.date.day, hsame.monthDays_eq]

/-- A step back and the same step forward lead to the month where they began. -/
theorem IsMonthsBefore.exists_back (hx : m.IsMonthsBefore a x) :
    ∃ y, x.IsMonthsBefore (-a) y ∧ y.wall.date.SameMonth m.wall.date ∧
      y.wall.date.day = min m.wall.date.day x.wall.date.monthDays := by
  have hindex : m.wall.date.monthIndex = x.wall.date.monthIndex - -a := by
    rw [hx.date.monthIndex]
    omega
  obtain ⟨y, hy⟩ := exists_isMonthsBefore hindex
  have hsame := Date.sameMonth_of_monthIndex (hy.date.monthIndex.trans hindex.symm)
  have hday : m.wall.date.day ≤ m.wall.date.monthDays := m.wall.date.day_le
  refine ⟨y, hy, hsame, ?_⟩
  rw [hy.date.day, hx.date.day, hsame.monthDays_eq]
  omega

/-- Steps by months are steps in the numbers of the months: they add up, they can be taken back, and
a longer one goes to an earlier time.  Only the days that a month on the way is too short for are
lost. -/
theorem subtractMonths_acts (m : Moment) (a b : Int) :
    (∀ year, m.subtractMonths a = .error year ↔
      year = (m.wall.date.monthIndex - a) / 12 ∧ ¬ (1 ≤ year ∧ year ≤ 9999)) ∧
    (∀ x, m.subtractMonths a = .ok x ↔ m.IsMonthsBefore a x) ∧
    (∀ x y, m.subtractMonths a = .ok x → x.subtractMonths b = .ok y →
      ∃ z, m.subtractMonths (a + b) = .ok z ∧ y.wall.date.SameMonth z.wall.date ∧
        y.wall.date.day =
          min (min m.wall.date.day x.wall.date.monthDays) z.wall.date.monthDays ∧
        y.wall.micros = m.wall.micros) ∧
    (∀ x, m.subtractMonths a = .ok x →
      ∃ y, x.subtractMonths (-a) = .ok y ∧
        (y = m ↔ m.wall.date.day ≤ x.wall.date.monthDays) ∧
        (x.wall.date.monthDays < m.wall.date.day →
          y.wall.date.SameMonth m.wall.date ∧ y.wall.date.day = x.wall.date.monthDays ∧
            y.wall.micros = m.wall.micros)) ∧
    (a < b → ∀ x y, m.subtractMonths a = .ok x → m.subtractMonths b = .ok y →
      y.wall.total < x.wall.total) := by
  refine ⟨fun _ => subtractMonths_eq_error_iff, fun _ => subtractMonths_eq_ok_iff, ?_, ?_, ?_⟩
  · intro x y hx hy
    rw [subtractMonths_eq_ok_iff] at hx hy
    obtain ⟨z, hz, hsame, hday⟩ := hx.exists_joined hy
    exact ⟨z, subtractMonths_eq_ok_iff.2 hz, hsame, hday, hy.micros.trans hx.micros⟩
  · intro x hx
    rw [subtractMonths_eq_ok_iff] at hx
    obtain ⟨y, hy, hsame, hday⟩ := hx.exists_back
    have hmicros := hy.micros.trans hx.micros
    refine ⟨y, subtractMonths_eq_ok_iff.2 hy, ⟨?_, fun hle => ?_⟩, fun hlt => ?_⟩
    · rintro rfl
      omega
    · have hdate : y.wall.date = m.wall.date :=
        Date.ext hsame.year hsame.month (hday.trans (Nat.min_eq_left hle))
      exact Moment.ext (WallTime.ext hdate hmicros) (hy.rule.trans hx.rule)
        (hy.second.trans hx.second)
    · exact ⟨hsame, hday.trans (Nat.min_eq_right hlt.le), hmicros⟩
  · intro hab x y hx hy
    exact (subtractMonths_eq_ok_iff.1 hx).total_lt (subtractMonths_eq_ok_iff.1 hy) hab

/-- From the last day of March, two steps of one month lead to the 29th of January, one step of two
months leads to the 31st, and a step back and forward again leads to the 29th of March. -/
theorem subtractMonths_acts_march :
    let midnight : Date → Moment := fun d => ⟨.startOfDay d, .berlin, false⟩
    let march31 := (Date.of? 2024 3 31).get (by decide)
    let march29 := (Date.of? 2024 3 29).get (by decide)
    let february29 := (Date.of? 2024 2 29).get (by decide)
    let january29 := (Date.of? 2024 1 29).get (by decide)
    let january31 := (Date.of? 2024 1 31).get (by decide)
    (midnight march31).subtractMonths 1 = .ok (midnight february29) ∧
      (midnight february29).subtractMonths 1 = .ok (midnight january29) ∧
      (midnight march31).subtractMonths 2 = .ok (midnight january31) ∧
      (midnight february29).subtractMonths (-1) = .ok (midnight march29) ∧
      (midnight january31).wall.total < (midnight february29).wall.total := by
  intro midnight march31 march29 february29 january29 january31
  have hback := (subtractMonths_acts (midnight march31) 1 1).2.1 (midnight february29)
  have hagain := (subtractMonths_acts (midnight february29) 1 1).2.1 (midnight january29)
  have hjoined := (subtractMonths_acts (midnight march31) 2 1).2.1 (midnight january31)
  have hforward := (subtractMonths_acts (midnight february29) (-1) 1).2.1 (midnight march29)
  have hfebruary := hback.2 ⟨⟨by decide, by decide⟩, rfl, rfl, rfl⟩
  have hjanuary := hjoined.2 ⟨⟨by decide, by decide⟩, rfl, rfl, rfl⟩
  have horder := (subtractMonths_acts (midnight march31) 1 2).2.2.2.2 (by decide)
  exact ⟨hfebruary, hagain.2 ⟨⟨by decide, by decide⟩, rfl, rfl, rfl⟩, hjanuary,
    hforward.2 ⟨⟨by decide, by decide⟩, rfl, rfl, rfl⟩, horder _ _ hfebruary hjanuary⟩

end Moment

end CrmQuery
