import CrmQuery.Proofs.Calendar.Instants
import CrmQuery.Proofs.Question.Classify
import CrmQuery.Proofs.Vocabulary.Times

/-!
# Timeframes and the moments that they are seen from

What a question says about time (`TimeReference`) does not depend on the moment at which it is
asked; the timeframe is what this refers to from there (`Timeframe.ofText?_eq`).  All timeframes are
windows in order: they end with the moment itself, or they are its day or the day before
(`Classification.wellOrdered_of_ofQuestion`).  Under a steady rule they are in order in time as well
(`Timeframe.inTime_of_reference`).  From the year 12 on, the calendar has a window for every
accepted number of units (`RelativeWindow.isSome_upTo?_iff`).
-/

namespace CrmQuery

open Text

/-! ### References -/

/-- What a question says about time. -/
inductive TimeReference where
  | today
  | yesterday
  | thisMonth
  /-- The last so many units of a period. -/
  | past (period : Period) (count : Nat)
  deriving DecidableEq, Repr

namespace TimeReference

/-- What a phrase for the past says. -/
def ofMatch? (m : Match) : Except NumeralTooLong (Option TimeReference) :=
  (relativeCount m).map fun count => (relativePeriod? m).map fun p => past p count

/-- What a normalised question says about time. -/
def ofText? (s : List Char) : Except NumeralTooLong (Option TimeReference) :=
  if TimePhrase.today.occursIn s then .ok (some today)
  else if TimePhrase.yesterday.occursIn s then .ok (some yesterday)
  else if TimePhrase.thisMonth.occursIn s then .ok (some thisMonth)
  else
    match TimePhrase.relative.search s with
    | none => .ok none
    | some m => ofMatch? m

/-- The timeframe that is referred to at a moment, if there is one. -/
def timeframe? (now : Moment) : TimeReference → Except QuestionFault (Option Timeframe)
  | today => .ok (some (.absolute now.startOfDay now.endOfDay))
  | yesterday =>
    match now.subtractDays? 1 with
    | some day => .ok (some (.absolute day.startOfDay day.endOfDay))
    | none => .error .dateOutOfRange
  | thisMonth => .ok (some (.absolute now.startOfMonth now))
  | past p count => .ok ((RelativeWindow.upTo? now p count).map .relative)

end TimeReference

namespace Timeframe

/-- The timeframe of a question is what its words refer to. -/
theorem ofText?_eq (s : List Char) (now : Moment) : ofText? s now =
    match TimeReference.ofText? s with
    | .error e => .error (.numeralTooLong e)
    | .ok none => .ok none
    | .ok (some r) => r.timeframe? now := by
  unfold ofText? TimeReference.ofText?
  split_ifs
  · rfl
  · rfl
  · rfl
  · cases TimePhrase.relative.search s with
    | none => rfl
    | some m =>
      simp only [RelativeWindow.ofMatch?, TimeReference.ofMatch?]
      cases relativeCount m with
      | error e => rfl
      | ok count => cases relativePeriod? m <;> rfl

theorem exists_reference {s : List Char} {now : Moment} {t : Timeframe}
    (h : ofText? s now = .ok (some t)) :
    ∃ r, TimeReference.ofText? s = .ok (some r) ∧ r.timeframe? now = .ok (some t) := by
  rw [ofText?_eq] at h
  split at h
  · cases h
  · cases h
  · exact ⟨_, ‹_›, h⟩

end Timeframe

/-! ### Windows in order -/

/-- The moment `x` is `count` units of a period before `now`: so many whole days of wall time, or so
many months of the calendar. -/
def Period.Precedes (p : Period) (count : Nat) (now x : Moment) : Prop :=
  match p with
  | day => now.IsDaysBefore count x
  | week => now.IsDaysBefore (7 * count) x
  | month => now.IsMonthsBefore count x

/-- The window has an accepted number of units and ends now. -/
structure RelativeWindow.LooksBack (now : Moment) (w : RelativeWindow) : Prop where
  count_pos : 1 ≤ w.count
  count_le : w.count ≤ w.period.maxCount
  start : w.period.Precedes w.count now w.start
  stop : w.stop = now

namespace Timeframe

/-- From 00:00:00 to 23:59:59.999999 of a day. -/
structure IsWholeDay (d : Date) (start stop : Moment) : Prop where
  startDate : start.wall.date = d
  startMicros : start.wall.micros = 0
  stopDate : stop.wall.date = d
  stopMicros : stop.wall.micros = 23 * microsPerHour + 59 * microsPerMinute + 59999999

/-- The absolute windows that there are at a moment. -/
inductive IsNear (now : Moment) : Moment → Moment → Prop
  /-- The day of the moment, which contains it. -/
  | today {start stop : Moment} (whole : IsWholeDay now.wall.date start stop)
      (since : start.wall.total ≤ now.wall.total) (until' : now.wall.total ≤ stop.wall.total) :
      IsNear now start stop
  /-- The day before, up to the last microsecond before today. -/
  | yesterday {d : Date} {start stop : Moment} (before : d.ordinal + 1 = now.wall.date.ordinal)
      (whole : IsWholeDay d start stop)
      (adjacent : stop.wall.total + 1 = (WallTime.startOfDay now.wall.date).total) :
      IsNear now start stop
  /-- From 00:00:00 of the first day of the month up to now. -/
  | thisMonth {start : Moment} (month : start.wall.date.SameMonth now.wall.date)
      (day : start.wall.date.day = 1) (micros : start.wall.micros = 0) : IsNear now start now

/-- The window is in order on the wall, and it is one of those that there are at a moment. -/
structure WellOrdered (now : Moment) (t : Timeframe) : Prop where
  startRule : t.start.rule = now.rule
  stopRule : t.stop.rule = now.rule
  wall : t.start.wall.total ≤ t.stop.wall.total
  relative : ∀ w, t = .relative w → w.LooksBack now
  absolute : ∀ start stop, t = .absolute start stop → IsNear now start stop

/-- The window is in order in time, and is not empty if it counts units back. -/
structure InTime (t : Timeframe) : Prop where
  le : t.start.instant ≤ t.stop.instant
  lt : ∀ w, t = .relative w → w.start.instant < w.stop.instant

variable {now : Moment}

theorem isWholeDay (m : Moment) : IsWholeDay m.wall.date m.startOfDay m.endOfDay := by
  have hlast : microsPerDay - 1 = 23 * microsPerHour + 59 * microsPerMinute + 59999999 := by decide
  exact ⟨rfl, rfl, rfl, hlast⟩

theorem wellOrdered_day {m : Moment} (hrule : m.rule = now.rule)
    (hnear : IsNear now m.startOfDay m.endOfDay) :
    (absolute m.startOfDay m.endOfDay).WellOrdered now where
  startRule := hrule
  stopRule := hrule
  wall := by
    have hmicros := m.wall.total_startOfDay_add_micros
    have hend := m.wall.total_le_endOfDay
    show (WallTime.startOfDay m.wall.date).total ≤ (WallTime.endOfDay m.wall.date).total
    omega
  relative := by
    intro w h
    cases h
  absolute := by
    intro start stop h
    cases h
    exact hnear

theorem wellOrdered_today (now : Moment) :
    (absolute now.startOfDay now.endOfDay).WellOrdered now := by
  have hmicros := now.wall.total_startOfDay_add_micros
  refine wellOrdered_day rfl (.today (isWholeDay now) ?_ now.wall.total_le_endOfDay)
  rw [now.wall_startOfDay]
  omega

theorem wellOrdered_yesterday {day : Moment} (h : now.subtractDays? 1 = some day) :
    (absolute day.startOfDay day.endOfDay).WellOrdered now := by
  have hdate := Moment.ordinal_of_subtractDays? h
  have hrule := (Moment.isDaysBefore_of_subtractDays? h).rule
  refine wellOrdered_day hrule (.yesterday hdate (isWholeDay day) ?_)
  rw [day.wall_endOfDay, WallTime.total_endOfDay, WallTime.total_startOfDay, hdate]

theorem wellOrdered_thisMonth (now : Moment) : (absolute now.startOfMonth now).WellOrdered now where
  startRule := rfl
  stopRule := rfl
  wall := by
    have hmonth := WallTime.total_startOfMonth now.wall.date
    have hmicros := now.wall.total_startOfDay_add_micros
    show (WallTime.startOfDay now.wall.date.firstOfMonth).total ≤ now.wall.total
    omega
  relative := by
    intro w h
    cases h
  absolute := by
    intro start stop h
    cases h
    exact .thisMonth ⟨rfl, rfl⟩ rfl rfl

end Timeframe

/-! ### Units back -/

namespace Period

variable {p : Period} {count : Nat} {now x : Moment}

theorem precedes_of_before? (h : p.before? count now = some x) : p.Precedes count now x := by
  cases p with
  | day => exact Moment.isDaysBefore_of_subtractDays? h
  | week => exact Moment.isDaysBefore_of_subtractDays? h
  | month =>
    cases hstep : now.subtractMonths count with
    | error year => simp [before?, hstep, Except.toOption] at h
    | ok y =>
      simp only [before?, hstep, Except.toOption, Option.some.injEq] at h
      exact h ▸ Moment.subtractMonths_eq_ok_iff.1 hstep

theorem Precedes.rule (h : p.Precedes count now x) : x.rule = now.rule := by
  cases p with
  | day | week => exact Moment.IsDaysBefore.rule h
  | month => exact Moment.IsMonthsBefore.rule h

/-- What precedes is at least a day earlier on the wall. -/
theorem Precedes.total_le (h : p.Precedes count now x) (hcount : 0 < count) :
    x.wall.total + microsPerDay ≤ now.wall.total := by
  cases p with
  | day => exact Moment.IsDaysBefore.total_le h hcount
  | week => exact Moment.IsDaysBefore.total_le h (by omega)
  | month => exact Moment.IsMonthsBefore.total_le h (by omega)

end Period

theorem RelativeWindow.looksBack_of_upTo? {now : Moment} {p : Period} {count : Nat}
    {w : RelativeWindow} (h : upTo? now p count = some w) :
    w.period = p ∧ w.count = count ∧ w.LooksBack now := by
  unfold upTo? at h
  split_ifs at h with hpos hle
  obtain ⟨start, hstart, rfl⟩ := Option.map_eq_some_iff.1 h
  exact ⟨rfl, rfl, hpos, Period.allows_iff.1 hle, Period.precedes_of_before? hstart, rfl⟩

/-- Only a phrase for the past refers to a window that looks back. -/
theorem TimeReference.looksBack_of_timeframe? {now : Moment} {r : TimeReference}
    {w : RelativeWindow} (h : r.timeframe? now = .ok (some (.relative w))) : w.LooksBack now := by
  cases r with
  | today | thisMonth => cases h
  | yesterday =>
    simp only [timeframe?] at h
    split at h <;> cases h
  | past p count =>
    obtain ⟨w', hw, heq⟩ := Option.map_eq_some_iff.1 (Except.ok.inj h)
    cases heq
    exact (RelativeWindow.looksBack_of_upTo? hw).2.2

/-- There is no window of so many units: there are none of them, there are more than the limit, or
they go back beyond the calendar. -/
def Period.Refuses (p : Period) (limit count : Nat) (now : Moment) : Prop :=
  count = 0 ∨ limit < count ∨ p.before? count now = none

theorem RelativeWindow.upTo?_eq_none_iff {now : Moment} {p : Period} {count : Nat} :
    upTo? now p count = none ↔ p.Refuses p.maxCount count now := by
  unfold upTo? Period.Refuses
  simp only [Period.allows_iff]
  split_ifs with hpos hle
  · simp [hpos.ne', hle.not_gt]
  · simp [Nat.lt_of_not_ge hle]
  · simp [Nat.eq_zero_of_not_pos hpos]

/-- From the year 12 on, more days have passed than are counted. -/
theorem Date.lt_ordinal_of_year {d : Date} (h : 12 ≤ d.year) : 4017 < d.ordinal := by
  have hyears : daysBeforeYear 12 ≤ daysBeforeYear d.year := monotone_daysBeforeYear h
  have htwelve : daysBeforeYear 12 = 4017 := rfl
  have hfirst := d.daysBeforeYear_lt_ordinal
  omega

section Years

variable {now : Moment} (hyear : 12 ≤ now.wall.date.year) {p : Period} {count : Nat}
include hyear

/-- From the year 12 on, no accepted number of units goes back beyond the calendar. -/
theorem Period.exists_before? (h : count ≤ p.maxCount) : ∃ x, p.before? count now = some x := by
  have hday := Date.lt_ordinal_of_year hyear
  cases p with
  | day =>
    have hle : count ≤ 3660 := h
    exact Option.isSome_iff_exists.1 (Moment.isSome_subtractDays?_iff.2 (by omega))
  | week =>
    have hle : count ≤ 520 := h
    exact Option.isSome_iff_exists.1 (Moment.isSome_subtractDays?_iff.2 (by omega))
  | month =>
    have hle : count ≤ 120 := h
    cases hstep : now.subtractMonths count with
    | error year =>
      obtain ⟨hindex, hrange⟩ := Moment.subtractMonths_eq_error_iff.1 hstep
      have hlast := now.wall.date.year_le
      have hmonth := now.wall.date.month_pos
      have hmonth' := now.wall.date.month_le
      unfold Date.monthIndex at hindex
      omega
    | ok x => exact ⟨x, by simp [before?, hstep, Except.toOption]⟩

/-- From the year 12 on, the limit of a period alone decides whether there is a window. -/
theorem RelativeWindow.isSome_upTo?_iff :
    (upTo? now p count).isSome = true ↔ 1 ≤ count ∧ count ≤ p.maxCount := by
  rw [Option.isSome_iff_ne_none, ne_eq, upTo?_eq_none_iff]
  constructor
  · intro h
    unfold Period.Refuses at h
    omega
  · rintro ⟨hpos, hle⟩ (hzero | hmore | hbeyond)
    · omega
    · omega
    · obtain ⟨x, hx⟩ := Period.exists_before? hyear hle
      rw [hx] at hbeyond
      cases hbeyond

end Years

namespace Timeframe

variable {now : Moment}

theorem wellOrdered_relative {w : RelativeWindow} (h : w.LooksBack now) :
    (relative w).WellOrdered now := by
  have hstop := h.stop
  constructor
  case startRule => exact h.start.rule
  case stopRule => exact congrArg Moment.rule hstop
  case wall =>
    show w.start.wall.total ≤ w.stop.wall.total
    rw [hstop]
    exact (Nat.le_add_right _ _).trans (h.start.total_le h.count_pos)
  case relative =>
    intro w' hw
    cases hw
    exact h
  case absolute =>
    intro start stop hw
    cases hw

/-- Whatever is referred to is a window in order. -/
theorem wellOrdered_of_reference {r : TimeReference} {t : Timeframe}
    (h : r.timeframe? now = .ok (some t)) : t.WellOrdered now := by
  cases r with
  | today =>
    cases h
    exact wellOrdered_today now
  | yesterday =>
    simp only [TimeReference.timeframe?] at h
    cases hday : now.subtractDays? 1 with
    | none =>
      rw [hday] at h
      cases h
    | some day =>
      rw [hday] at h
      cases h
      exact wellOrdered_yesterday hday
  | thisMonth =>
    cases h
    exact wellOrdered_thisMonth now
  | past p count =>
    obtain ⟨w, hw, rfl⟩ := Option.map_eq_some_iff.1 (Except.ok.inj h)
    exact wellOrdered_relative (RelativeWindow.looksBack_of_upTo? hw).2.2

/-! ### Windows in time -/

theorem inTime_absolute {start stop : Moment} (h : start.instant ≤ stop.instant) :
    (absolute start stop).InTime := by
  refine ⟨h, ?_⟩
  intro w hw
  cases hw

theorem inTime_relative (hsteady : now.rule.IsSteady) {w : RelativeWindow} (h : w.LooksBack now) :
    (relative w).InTime := by
  have hrule := h.start.rule
  have hlt : w.start.instant < w.stop.instant := by
    rw [h.stop]
    exact Moment.instant_lt_of_total (hrule ▸ hsteady) hrule
      (Nat.le_succ_of_le (h.start.total_le h.count_pos))
  refine ⟨hlt.le, ?_⟩
  intro w' hw
  cases hw
  exact hlt

/-- Under a steady rule, whatever is referred to is a window in order in time. -/
theorem inTime_of_reference (hsteady : now.rule.IsSteady) {r : TimeReference} {t : Timeframe}
    (h : r.timeframe? now = .ok (some t)) : t.InTime := by
  cases r with
  | today =>
    cases h
    exact inTime_absolute (Moment.instant_startOfDay_lt_endOfDay hsteady).le
  | yesterday =>
    simp only [TimeReference.timeframe?] at h
    cases hday : now.subtractDays? 1 with
    | none =>
      rw [hday] at h
      cases h
    | some day =>
      rw [hday] at h
      cases h
      have hrule := (Moment.isDaysBefore_of_subtractDays? hday).rule
      exact inTime_absolute (Moment.instant_startOfDay_lt_endOfDay (hrule ▸ hsteady)).le
  | thisMonth =>
    cases h
    exact inTime_absolute (Moment.instant_startOfMonth_le hsteady)
  | past p count =>
    obtain ⟨w, hw, rfl⟩ := Option.map_eq_some_iff.1 (Except.ok.inj h)
    exact inTime_relative hsteady (RelativeWindow.looksBack_of_upTo? hw).2.2

end Timeframe

/-- The offset is fixed, if there is one, or that of Berlin. -/
def OffsetRule.IsFixedOrBerlin : OffsetRule → Prop
  | floating | fixed _ => True
  | zone z => z = .berlin

theorem OffsetRule.IsFixedOrBerlin.isSteady {rule : OffsetRule} (h : rule.IsFixedOrBerlin) :
    rule.IsSteady := by
  cases rule with
  | floating | fixed offset => trivial
  | zone z => exact h ▸ OffsetRule.isSteady_berlin

namespace Classification

/-- The timeframe of a question is a window in order, whenever the question is asked.  It is in
order in time as well if the moment has a fixed offset or that of Berlin. -/
theorem wellOrdered_of_ofQuestion {question : String} {hint : Option Domain} {now : Moment}
    {c : Classification} {t : Timeframe} (h : ofQuestion question hint now = .ok c)
    (ht : c.timeframe = some t) :
    t.WellOrdered now ∧ (now.rule.IsFixedOrBerlin → t.InTime) := by
  obtain ⟨e, timeframe, -, htimeframe, rfl⟩ := of_ofQuestion_eq_ok h
  obtain rfl : timeframe = some t := ht
  obtain ⟨r, -, hr⟩ := Timeframe.exists_reference htimeframe
  exact ⟨Timeframe.wellOrdered_of_reference hr,
    fun hrule => Timeframe.inTime_of_reference hrule.isSteady hr⟩

/-- On the first of October 1916 the clocks of Berlin were put back from one o'clock to midnight.
When they showed one o'clock again, the month had lasted for two hours, and the last day for 25. -/
theorem wellOrdered_of_ofQuestion_october :
    let october : Date :=
      ⟨1916, 10, 1, by decide, by decide, by decide, by decide, by decide, by decide⟩
    let now : Moment := ⟨⟨october, microsPerHour, by decide⟩, .berlin, false⟩
    (∃ c t, ofQuestion "Umsatz diesen Monat" none now = .ok c ∧ c.timeframe = some t ∧
      t.WellOrdered now ∧ t.InTime ∧ t.stop.instant - t.start.instant = 2 * microsPerHour) ∧
    ∃ c t, ofQuestion "Umsatz, letzter Tag" none now = .ok c ∧ c.timeframe = some t ∧
      t.WellOrdered now ∧ t.InTime ∧ t.stop.instant - t.start.instant = 25 * microsPerHour := by
  intro october now
  have hmonth : ∃ c, ofQuestion "Umsatz diesen Monat" none now = .ok c ∧
      ∃ t, c.timeframe = some t ∧ t.stop.instant - t.start.instant = 2 * microsPerHour :=
    ⟨_, rfl, _, rfl, by decide +kernel⟩
  have hday : ∃ c, ofQuestion "Umsatz, letzter Tag" none now = .ok c ∧
      ∃ t, c.timeframe = some t ∧ t.stop.instant - t.start.instant = 25 * microsPerHour :=
    ⟨_, rfl, _, rfl, by decide +kernel⟩
  obtain ⟨c, hc, t, ht, hlength⟩ := hmonth
  obtain ⟨c', hc', t', ht', hlength'⟩ := hday
  have hordered := wellOrdered_of_ofQuestion hc ht
  have hordered' := wellOrdered_of_ofQuestion hc' ht'
  exact ⟨⟨c, t, hc, ht, hordered.1, hordered.2 rfl, hlength⟩,
    c', t', hc', ht', hordered'.1, hordered'.2 rfl, hlength'⟩

end Classification

end CrmQuery
