import CrmQuery.Proofs.Calendar.Months
import CrmQuery.Proofs.Calendar.Zones

/-!
# Wall times and instants

Under a steady rule (`OffsetRule.IsSteady`) two moments have offsets that differ by less than a day,
so a wall time that is a day later is a later instant (`Moment.instant_lt_of_total`), and every day
begins before all of its moments (`Moment.instant_startOfDay_le`).
-/

namespace CrmQuery

/-! ### Days on the wall -/

namespace WallTime

theorem total_startOfDay (d : Date) : (startOfDay d).total = d.ordinal * microsPerDay := by
  unfold total startOfDay
  exact Nat.add_zero _

theorem total_endOfDay (d : Date) :
    (endOfDay d).total + 1 = (d.ordinal + 1) * microsPerDay := by
  have hpos : 0 < microsPerDay := by decide
  unfold total endOfDay
  dsimp only
  rw [Nat.add_mul]
  omega

theorem total_startOfDay_add_micros (w : WallTime) :
    (startOfDay w.date).total + w.micros = w.total := by
  rw [total_startOfDay]
  unfold total
  rfl

/-- A day ends after all of its wall times. -/
theorem total_le_endOfDay (w : WallTime) : w.total ≤ (endOfDay w.date).total := by
  have hend := total_endOfDay w.date
  have hmicros := w.total_startOfDay_add_micros
  have := w.micros_lt
  rw [total_startOfDay] at hmicros
  rw [Nat.add_mul] at hend
  omega

/-- There are as many days between midnight at the beginning of a month and that of a later day of
it as the day of the month tells. -/
theorem total_startOfMonth (d : Date) :
    (startOfDay d.firstOfMonth).total + (d.day - 1) * microsPerDay = (startOfDay d).total := by
  have hday := d.day_pos
  have hordinal : d.firstOfMonth.ordinal + (d.day - 1) = d.ordinal := by
    unfold Date.ordinal Date.firstOfMonth
    dsimp only
    omega
  rw [total_startOfDay, total_startOfDay, ← Nat.add_mul, hordinal]

end WallTime

/-! ### Moments of a day -/

/-- The offset is fixed, if there is one, or that of a steady zone. -/
def OffsetRule.IsSteady : OffsetRule → Prop
  | floating | fixed _ => True
  | zone z => z.IsSteady

theorem OffsetRule.isSteady_berlin : berlin.IsSteady := Zone.isSteady_berlin

namespace Moment

variable {m x y : Moment}

theorem wall_startOfDay (m : Moment) : m.startOfDay.wall = .startOfDay m.wall.date := rfl

theorem rule_startOfDay (m : Moment) : m.startOfDay.rule = m.rule := rfl

theorem wall_endOfDay (m : Moment) : m.endOfDay.wall = .endOfDay m.wall.date := rfl

theorem rule_endOfDay (m : Moment) : m.endOfDay.rule = m.rule := rfl

theorem wall_startOfMonth (m : Moment) :
    m.startOfMonth.wall = .startOfDay m.wall.date.firstOfMonth := rfl

theorem rule_startOfMonth (m : Moment) : m.startOfMonth.rule = m.rule := rfl

/-! ### Offsets -/

theorem offset_lt_add_day (hsteady : x.rule.IsSteady) (h : x.rule = y.rule) :
    y.offset?.getD 0 < x.offset?.getD 0 + secondsPerDay := by
  have hday : (0 : Int) < secondsPerDay := by decide
  unfold offset?
  rw [← h]
  cases hrule : x.rule with
  | floating | fixed offset =>
    exact Int.lt_add_of_pos_right _ hday
  | zone z =>
    rw [hrule] at hsteady
    exact hsteady.offsetAt_lt x.wall y.wall x.second y.second

/-- A wall time that is a day later is a later instant, even if a microsecond is missing. -/
theorem instant_lt_of_total (hsteady : x.rule.IsSteady) (h : x.rule = y.rule)
    (htotal : x.wall.total + microsPerDay ≤ y.wall.total + 1) : x.instant < y.instant := by
  have hday : (microsPerDay : Int) = secondsPerDay * microsPerSecond := rfl
  have hsecond : (1 : Int) < microsPerSecond := by decide
  have hoffset : (y.offset?.getD 0 + 1) * microsPerSecond ≤
      (x.offset?.getD 0 + secondsPerDay) * microsPerSecond :=
    Int.mul_le_mul_of_nonneg_right (offset_lt_add_day hsteady h) (Int.natCast_nonneg _)
  rw [Int.add_mul, Int.add_mul, ← hday] at hoffset
  unfold instant
  omega

/-- A moment has as much more offset than the beginning of its day, at most, as it is later. -/
theorem offset_startOfDay (hsteady : m.rule.IsSteady) :
    m.offset?.getD 0 ≤ m.startOfDay.offset?.getD 0 + (m.wall.micros / microsPerSecond : Nat) := by
  unfold offset?
  rw [m.rule_startOfDay]
  cases hrule : m.rule with
  | floating | fixed offset =>
    exact Int.le_add_of_nonneg_right (Int.natCast_nonneg _)
  | zone z =>
    rw [hrule] at hsteady
    have hoffset : (WallTime.startOfDay m.wall.date).seconds + z.offsetAt m.wall m.second ≤
        m.wall.seconds + z.offsetAt m.startOfDay.wall m.startOfDay.second :=
      hsteady.offsetAt_startOfDay m.wall m.second
    rw [WallTime.seconds_startOfDay] at hoffset
    unfold WallTime.seconds at hoffset
    rw [Option.getD_some, Option.getD_some]
    omega

/-! ### Days -/

/-- A day begins before all of its moments. -/
theorem instant_startOfDay_le (hsteady : m.rule.IsSteady) : m.startOfDay.instant ≤ m.instant := by
  have htotal := m.wall.total_startOfDay_add_micros
  rw [← wall_startOfDay] at htotal
  have hoffset : m.offset?.getD 0 * microsPerSecond ≤
      (m.startOfDay.offset?.getD 0 + (m.wall.micros / microsPerSecond : Nat)) * microsPerSecond :=
    Int.mul_le_mul_of_nonneg_right (offset_startOfDay hsteady) (Int.natCast_nonneg _)
  have hmicros : (m.wall.micros / microsPerSecond : Nat) * (microsPerSecond : Int) ≤
      m.wall.micros := by
    exact_mod_cast Nat.div_mul_le_self m.wall.micros microsPerSecond
  rw [Int.add_mul] at hoffset
  unfold instant
  omega

/-- A month begins before all of its moments. -/
theorem instant_startOfMonth_le (hsteady : m.rule.IsSteady) :
    m.startOfMonth.instant ≤ m.instant := by
  by_cases hday : m.wall.date.day = 1
  · have hfirst : m.startOfMonth = m.startOfDay := by
      have hdate : m.wall.date.firstOfMonth = m.wall.date := Date.ext rfl rfl hday.symm
      unfold startOfMonth startOfDay
      rw [hdate]
    rw [hfirst]
    exact instant_startOfDay_le hsteady
  · have hpos := m.wall.date.day_pos
    have hmonth := WallTime.total_startOfMonth m.wall.date
    have hmicros := m.wall.total_startOfDay_add_micros
    have hlater : microsPerDay ≤ (m.wall.date.day - 1) * microsPerDay :=
      Nat.le_mul_of_pos_left _ (by omega)
    have hlt : m.startOfMonth.instant < m.instant := by
      refine instant_lt_of_total hsteady m.rule_startOfMonth ?_
      rw [wall_startOfMonth]
      omega
    exact hlt.le

/-- The beginning and the end of a day are in this order. -/
theorem instant_startOfDay_lt_endOfDay (hsteady : m.rule.IsSteady) :
    m.startOfDay.instant < m.endOfDay.instant := by
  have hend := WallTime.total_endOfDay m.wall.date
  refine instant_lt_of_total hsteady (m.rule_startOfDay.trans m.rule_endOfDay.symm) ?_
  rw [wall_startOfDay, wall_endOfDay, WallTime.total_startOfDay, hend, Nat.add_mul, Nat.one_mul]

/-! ### Steps back -/

/-- The moment `x` is `n` days of wall time before `m`. -/
structure IsDaysBefore (m : Moment) (n : Nat) (x : Moment) : Prop where
  total : x.wall.total + n * microsPerDay = m.wall.total
  rule : x.rule = m.rule

theorem ordinal_of_subtractDays? {n : Nat} (h : m.subtractDays? n = some x) :
    x.wall.date.ordinal + n = m.wall.date.ordinal := by
  obtain ⟨d, hd, rfl⟩ := Option.map_eq_some_iff.1 h
  exact Date.ordinal_of_subtractDays hd

theorem isDaysBefore_of_subtractDays? {n : Nat} (h : m.subtractDays? n = some x) :
    m.IsDaysBefore n x := by
  have hordinal := ordinal_of_subtractDays? h
  obtain ⟨d, hd, rfl⟩ := Option.map_eq_some_iff.1 h
  refine ⟨?_, rfl⟩
  unfold WallTime.total
  rw [← hordinal, Nat.add_mul]
  dsimp only
  omega

theorem isSome_subtractDays?_iff {n : Nat} :
    (m.subtractDays? n).isSome = true ↔ n < m.wall.date.ordinal := by
  unfold subtractDays?
  rw [Option.isSome_map, Date.isSome_subtractDays_iff]

/-- Some days before is at least a day earlier on the wall. -/
theorem IsDaysBefore.total_le {n : Nat} (h : m.IsDaysBefore n x) (hn : 0 < n) :
    x.wall.total + microsPerDay ≤ m.wall.total := by
  rw [← h.total]
  exact Nat.add_le_add_left (Nat.le_mul_of_pos_left _ hn) _

/-- Some months before is at least a day earlier on the wall. -/
theorem IsMonthsBefore.total_le {n : Int} (h : m.IsMonthsBefore n x) (hn : 0 < n) :
    x.wall.total + microsPerDay ≤ m.wall.total := by
  have hindex : x.wall.date.monthIndex < m.wall.date.monthIndex := by
    rw [h.date.monthIndex]
    omega
  have hday : (x.wall.date.ordinal + 1) * microsPerDay ≤ m.wall.date.ordinal * microsPerDay :=
    Nat.mul_le_mul_right _ (Date.ordinal_lt_of_monthIndex_lt hindex)
  rw [Nat.add_mul, Nat.one_mul] at hday
  unfold WallTime.total
  rw [h.micros]
  omega

end Moment

end CrmQuery
