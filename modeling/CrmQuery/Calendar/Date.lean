/-!
# Calendar dates

A `Date` is a day of the proleptic Gregorian calendar from the year 1 to the year 9999.
`Date.ordinal` numbers the days, the first of them being day 1, a Monday.  `Date.pred?` and
`Date.succ?` step to the neighbouring days, and `Date.subtractMonths` steps by whole months and
keeps the day of the month where the month is long enough.  `YearFault` explains why a step leads
out of the calendar.
-/

namespace CrmQuery

/-- Every fourth year is a leap year, of the years that end a century only every fourth. -/
def isLeapYear (year : Nat) : Bool := year % 4 == 0 && (year % 100 != 0 || year % 400 == 0)

/-- The number of days of a month. -/
def monthLength (year month : Nat) : Nat :=
  if month = 2 then if isLeapYear year then 29 else 28
  else if month = 4 ∨ month = 6 ∨ month = 9 ∨ month = 11 then 30
  else 31

/-- No month is shorter than four weeks. -/
theorem le_monthLength (year month : Nat) : 28 ≤ monthLength year month := by
  unfold monthLength
  split
  · split <;> omega
  · split <;> omega

/-- No month is longer than 31 days. -/
theorem monthLength_le (year month : Nat) : monthLength year month ≤ 31 := by
  unfold monthLength
  split
  · split <;> omega
  · split <;> omega

/-- A day of the calendar. -/
@[ext] structure Date where
  year : Nat
  month : Nat
  day : Nat
  year_pos : 1 ≤ year
  year_le : year ≤ 9999
  month_pos : 1 ≤ month
  month_le : month ≤ 12
  day_pos : 1 ≤ day
  day_le : day ≤ monthLength year month
  deriving DecidableEq

namespace Date

/-- The day with the given numbers, if there is such a day. -/
def of? (year month day : Nat) : Option Date :=
  if h : (1 ≤ year ∧ year ≤ 9999) ∧ (1 ≤ month ∧ month ≤ 12) ∧
      1 ≤ day ∧ day ≤ monthLength year month then
    some ⟨year, month, day, h.1.1, h.1.2, h.2.1.1, h.2.1.2, h.2.2.1, h.2.2.2⟩
  else none

/-- The first day of the same month. -/
def firstOfMonth (d : Date) : Date :=
  { d with
    day := 1
    day_pos := Nat.le_refl 1
    day_le := Nat.le_trans (by omega) (le_monthLength d.year d.month) }

/-- The day before, unless it is the first day of the calendar. -/
def pred? (d : Date) : Option Date :=
  if h : 1 < d.day then
    some { d with
      day := d.day - 1
      day_pos := by omega
      day_le := by have := d.day_le; omega }
  else if h : 1 < d.month then
    some { d with
      month := d.month - 1
      day := monthLength d.year (d.month - 1)
      month_pos := by omega
      month_le := by have := d.month_le; omega
      day_pos := by have := le_monthLength d.year (d.month - 1); omega
      day_le := Nat.le_refl _ }
  else if h : 1 < d.year then
    some
      { year := d.year - 1
        month := 12
        day := 31
        year_pos := by omega
        year_le := by have := d.year_le; omega
        month_pos := by omega
        month_le := by omega
        day_pos := by omega
        day_le := by simp [monthLength] }
  else none

/-- The first day of the calendar. -/
def first : Date :=
  ⟨1, 1, 1, by decide, by decide, by decide, by decide, by decide, by decide⟩

/-- Only the first day of the calendar has no day before it. -/
theorem pred?_eq_none_iff (d : Date) : d.pred? = none ↔ d = first := by
  have hyear := d.year_pos
  have hmonth := d.month_pos
  have hday := d.day_pos
  have hfirst : d = first ↔ d.year = 1 ∧ d.month = 1 ∧ d.day = 1 := Date.ext_iff
  rw [hfirst, pred?]
  by_cases h₁ : 1 < d.day
  · simp [h₁]
    omega
  · by_cases h₂ : 1 < d.month
    · simp [h₁, h₂]
      omega
    · by_cases h₃ : 1 < d.year
      · simp [h₁, h₂, h₃]
        omega
      · simp [h₁, h₂, h₃]
        omega

/-- The day after, unless it is the last day of the calendar. -/
def succ? (d : Date) : Option Date :=
  if h : d.day < monthLength d.year d.month then
    some { d with
      day := d.day + 1
      day_pos := by omega
      day_le := h }
  else if h : d.month < 12 then
    some { d with
      month := d.month + 1
      day := 1
      month_pos := by omega
      month_le := h
      day_pos := by omega
      day_le := Nat.le_trans (by omega) (le_monthLength _ _) }
  else if h : d.year < 9999 then
    some
      { year := d.year + 1
        month := 1
        day := 1
        year_pos := by omega
        year_le := h
        month_pos := by omega
        month_le := by omega
        day_pos := by omega
        day_le := Nat.le_trans (by omega) (le_monthLength _ _) }
  else none

/-- The day `n` days before, if it is in the calendar. -/
def subtractDays (d : Date) : Nat → Option Date
  | 0 => some d
  | n + 1 => d.pred? >>= fun e => e.subtractDays n

/-- The number of a month, counted from the month before the first one of the year 0. -/
def monthIndex (d : Date) : Int := 12 * d.year + d.month - 1

/-- The same day `n` months before, or the last day of that month if it is shorter; the error is a
year outside of the calendar. -/
def subtractMonths (d : Date) (n : Int) : Except Int Date :=
  let index := d.monthIndex - n
  let year := index / 12
  let month := (index % 12 + 1).toNat
  if h : 1 ≤ year ∧ year ≤ 9999 then
    .ok
      { year := year.toNat
        month := month
        day := min d.day (monthLength year.toNat month)
        year_pos := by omega
        year_le := by omega
        month_pos := by omega
        month_le := by omega
        day_pos := by
          have := d.day_pos
          have := le_monthLength year.toNat month
          omega
        day_le := Nat.min_le_right _ _ }
  else .error year

/-- The number of days before a year. -/
def daysBeforeYear (year : Nat) : Nat :=
  let y := year - 1
  365 * y + y / 4 - y / 100 + y / 400

/-- The number of days of a year before a month. -/
def daysBeforeMonth (year : Nat) : Nat → Nat
  | 0 | 1 => 0
  | month + 1 => daysBeforeMonth year month + monthLength year month

/-- The number of a day, counted from the first day of the calendar. -/
def ordinal (d : Date) : Nat :=
  daysBeforeYear d.year + daysBeforeMonth d.year d.month + d.day

/-- The day with a given number. -/
def ofOrdinal? (n : Nat) : Option Date := do
  let year ← (List.range' (n / 366) 30).find? fun y =>
    daysBeforeYear y < n && n ≤ daysBeforeYear (y + 1)
  let dayOfYear := n - daysBeforeYear year
  let month ← (List.range' 1 12).find? fun m => dayOfYear ≤ daysBeforeMonth year (m + 1)
  of? year month (dayOfYear - daysBeforeMonth year month)

end Date

/-! ### Years outside of the calendar -/

/-- How far a year lies outside of the calendar. -/
inductive YearFault where
  /-- Before or after the calendar. -/
  | outOfRange (year : Int)
  /-- Too small for 32 bits. -/
  | tooSmall
  /-- Too great for 32 bits. -/
  | tooGreat
  deriving DecidableEq, Repr

namespace YearFault

/-- What is wrong with a year outside of the calendar. -/
def ofYear (year : Int) : YearFault :=
  if year < -Nat.pow 2 31 then tooSmall
  else if Nat.pow 2 31 ≤ year then tooGreat
  else outOfRange year

/-- The explanation of a fault. -/
def message : YearFault → String
  | outOfRange year => "year " ++ toString year ++ " is out of range"
  | tooSmall => "signed integer is less than minimum"
  | tooGreat => "signed integer is greater than maximum"

end YearFault

end CrmQuery
