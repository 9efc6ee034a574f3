import CrmQuery.Calendar.Moment
import Mathlib.Order.Monotone.Basic
import Mathlib.Order.Nat
import Mathlib.Tactic.Common

/-!
# The numbers of days

`Date.ordinal` counts the days of the calendar: the day before has the number before
(`Date.ordinal_of_pred?`), so a step of `n` days takes `n` from the number of a day, and it stays in
the calendar as long as something is left (`Date.isSome_subtractDays_iff`).  The days of an earlier
month have smaller numbers (`Date.ordinal_lt_of_monthIndex_lt`).
-/

namespace CrmQuery

namespace Date

/-! ### Days before months and years -/

theorem daysBeforeMonth_succ (year : Nat) {month : Nat} (h : 1 ≤ month) :
    daysBeforeMonth year (month + 1) = daysBeforeMonth year month + monthLength year month := by
  obtain ⟨m, rfl⟩ := Nat.exists_eq_add_of_le' h
  rfl

theorem monotone_daysBeforeMonth (year : Nat) : Monotone (daysBeforeMonth year) := by
  refine monotone_nat_of_le_succ fun month => ?_
  rcases Nat.eq_zero_or_pos month with rfl | h
  · exact le_rfl
  · rw [daysBeforeMonth_succ year h]
    omega

theorem isLeapYear_iff (year : Nat) :
    isLeapYear year = true ↔ 4 ∣ year ∧ (¬ 100 ∣ year ∨ 400 ∣ year) := by
  simp [isLeapYear, Nat.dvd_iff_mod_eq_zero]

/-- A year has the days of its twelve months. -/
theorem daysBeforeYear_succ {year : Nat} (h : 1 ≤ year) :
    daysBeforeYear (year + 1) = daysBeforeYear year + daysBeforeMonth year 13 := by
  obtain ⟨y, rfl⟩ := Nat.exists_eq_add_of_le' h
  have hmonths : daysBeforeMonth (y + 1) 13 = 31 + (if isLeapYear (y + 1) then 29 else 28) +
      31 + 30 + 31 + 30 + 31 + 31 + 30 + 31 + 30 + 31 := rfl
  have hcentury : 100 ∣ y + 1 → 4 ∣ y + 1 := Nat.dvd_trans (by decide)
  have hfourth : 400 ∣ y + 1 → 100 ∣ y + 1 := Nat.dvd_trans (by decide)
  have hle : y / 100 ≤ y / 4 := Nat.div_le_div_left (by decide) (by decide)
  simp only [hmonths, daysBeforeYear, Nat.add_sub_cancel, Nat.succ_div, isLeapYear_iff]
  by_cases h₁₀₀ : 100 ∣ y + 1
  · by_cases h₄₀₀ : 400 ∣ y + 1
    · simp only [hcentury h₁₀₀, h₁₀₀, h₄₀₀, if_true, not_true_eq_false, false_or, and_self]
      omega
    · simp only [hcentury h₁₀₀, h₁₀₀, h₄₀₀, if_true, if_false, not_true_eq_false, or_self,
        and_false]
      omega
  · by_cases h₄ : 4 ∣ y + 1
    · simp only [h₄, h₁₀₀, mt hfourth h₁₀₀, if_true, if_false, not_false_eq_true, true_or, and_self]
      omega
    · simp only [h₄, h₁₀₀, mt hfourth h₁₀₀, if_false, false_and]
      omega

theorem monotone_daysBeforeYear : Monotone daysBeforeYear := by
  refine monotone_nat_of_le_succ fun year => ?_
  rcases Nat.eq_zero_or_pos year with rfl | h
  · exact le_rfl
  · rw [daysBeforeYear_succ h]
    omega

/-! ### Numbers of days -/

variable {d e : Date}

theorem daysBeforeYear_lt_ordinal (d : Date) : daysBeforeYear d.year < d.ordinal := by
  have := d.day_pos
  unfold ordinal
  omega

/-- A day lies before the end of its month. -/
theorem ordinal_le_endOfMonth (d : Date) :
    d.ordinal ≤ daysBeforeYear d.year + daysBeforeMonth d.year (d.month + 1) := by
  have := d.day_le
  rw [daysBeforeMonth_succ _ d.month_pos]
  unfold ordinal
  omega

/-- A day lies before the end of its year. -/
theorem ordinal_le_endOfYear (d : Date) : d.ordinal ≤ daysBeforeYear (d.year + 1) := by
  have hmonths : daysBeforeMonth d.year (d.month + 1) ≤ daysBeforeMonth d.year 13 :=
    monotone_daysBeforeMonth d.year (Nat.succ_le_succ d.month_le)
  have hend := d.ordinal_le_endOfMonth
  rw [daysBeforeYear_succ d.year_pos]
  omega

/-- The days of an earlier month have smaller numbers. -/
theorem ordinal_lt_of_monthIndex_lt (h : d.monthIndex < e.monthIndex) : d.ordinal < e.ordinal := by
  unfold monthIndex at h
  have hd := d.month_pos
  have hd' := d.month_le
  have he := e.month_le
  have hend := d.ordinal_le_endOfMonth
  by_cases hyear : d.year = e.year
  · have hmonths : daysBeforeMonth e.year (d.month + 1) ≤ daysBeforeMonth e.year e.month :=
      monotone_daysBeforeMonth e.year (by omega)
    have hday := e.day_pos
    rw [hyear] at hend
    unfold ordinal at hend ⊢
    omega
  · have hyears : daysBeforeYear (d.year + 1) ≤ daysBeforeYear e.year :=
      monotone_daysBeforeYear (by omega)
    have hlast := d.ordinal_le_endOfYear
    have hfirst := e.daysBeforeYear_lt_ordinal
    omega

/-! ### Steps by days -/

/-- The day before has the number before. -/
theorem ordinal_of_pred? (h : d.pred? = some e) : e.ordinal + 1 = d.ordinal := by
  unfold pred? at h
  split_ifs at h with hday hmonth hyear
  · obtain rfl := Option.some.inj h
    unfold ordinal
    dsimp only
    omega
  · obtain rfl := Option.some.inj h
    have hbefore : 1 ≤ d.month - 1 := by omega
    have hlength := daysBeforeMonth_succ d.year hbefore
    rw [Nat.sub_add_cancel d.month_pos] at hlength
    have := d.day_pos
    unfold ordinal
    dsimp only
    omega
  · obtain rfl := Option.some.inj h
    have hbefore : 1 ≤ d.year - 1 := by omega
    have hyears := daysBeforeYear_succ hbefore
    have hdecember : daysBeforeMonth (d.year - 1) 13 = daysBeforeMonth (d.year - 1) 12 + 31 := rfl
    rw [Nat.sub_add_cancel d.year_pos] at hyears
    have hjanuary : daysBeforeMonth d.year d.month = 0 := by
      have hfirst : d.month = 1 := Nat.le_antisymm (Nat.le_of_not_lt hmonth) d.month_pos
      rw [hfirst]
      rfl
    have := d.day_pos
    unfold ordinal
    dsimp only
    omega

/-- The day after has the number after. -/
theorem ordinal_of_succ? (h : d.succ? = some e) : e.ordinal = d.ordinal + 1 := by
  unfold succ? at h
  split_ifs at h with hday hmonth hyear
  · obtain rfl := Option.some.inj h
    rfl
  · obtain rfl := Option.some.inj h
    have hlength := daysBeforeMonth_succ d.year d.month_pos
    have := d.day_le
    unfold ordinal
    dsimp only
    omega
  · obtain rfl := Option.some.inj h
    have hyears := daysBeforeYear_succ d.year_pos
    have hdecember : d.month = 12 := Nat.le_antisymm d.month_le (Nat.le_of_not_lt hmonth)
    have hlength : daysBeforeMonth d.year 13 = daysBeforeMonth d.year 12 + monthLength d.year 12 :=
      rfl
    rw [hdecember] at hday
    have hjanuary : daysBeforeMonth (d.year + 1) 1 = 0 := rfl
    have := d.day_le
    unfold ordinal
    dsimp only
    rw [hdecember] at this ⊢
    omega

/-- Steps of a day add up. -/
theorem ordinal_of_subtractDays {n : Nat} (h : d.subtractDays n = some e) :
    e.ordinal + n = d.ordinal := by
  induction n generalizing d with
  | zero =>
    obtain rfl := Option.some.inj h
    rfl
  | succ n ih =>
    obtain ⟨f, hf, h⟩ := Option.bind_eq_some_iff.1 h
    have hstep := ordinal_of_pred? hf
    have hrest := ih h
    omega

theorem ordinal_first : first.ordinal = 1 := rfl

theorem ordinal_pos (d : Date) : 0 < d.ordinal :=
  Nat.zero_lt_of_lt d.daysBeforeYear_lt_ordinal

/-- A step of some days stays in the calendar if and only if there are more days before. -/
theorem isSome_subtractDays_iff {n : Nat} : (d.subtractDays n).isSome = true ↔ n < d.ordinal := by
  constructor
  · intro h
    obtain ⟨e, he⟩ := Option.isSome_iff_exists.1 h
    have := ordinal_of_subtractDays he
    have := e.ordinal_pos
    omega
  · intro h
    induction n generalizing d with
    | zero => rfl
    | succ n ih =>
      have hd : d ≠ first := by
        rintro rfl
        rw [ordinal_first] at h
        omega
      obtain ⟨e, he⟩ := Option.ne_none_iff_exists'.1 (mt d.pred?_eq_none_iff.1 hd)
      have hstep := ordinal_of_pred? he
      have hrest : (e.subtractDays n).isSome = true := ih (by omega)
      rwa [subtractDays, he]

end Date

end CrmQuery
