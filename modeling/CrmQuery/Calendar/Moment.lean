import CrmQuery.Calendar.Zone

/-!
# Moments

A `Moment` is a wall time together with the rule that gives its offset from universal time.  Steps
by days and months move the wall time; the offset of the result follows from the rule.  A wall time
that the clocks of a zone show twice is read as the earlier instant unless the moment says that it
is the second reading.
-/

namespace CrmQuery

/-- The rule that gives the offset of a wall time from universal time. -/
inductive OffsetRule where
  /-- A wall time without a place. -/
  | floating
  /-- So many seconds ahead of universal time. -/
  | fixed (offset : Int)
  /-- The clocks of a zone. -/
  | zone (z : Zone)
  deriving DecidableEq, Repr

/-- The clocks of Berlin. -/
def OffsetRule.berlin : OffsetRule := zone .berlin

/-- A wall time and the rule of its offset. -/
@[ext] structure Moment where
  wall : WallTime
  rule : OffsetRule
  /-- A wall time that occurs twice is read as the later instant. -/
  second : Bool
  deriving DecidableEq

namespace Moment

/-- The offset from universal time in seconds. -/
def offset? (m : Moment) : Option Int :=
  match m.rule with
  | .floating => none
  | .fixed offset => some offset
  | .zone z => some (z.offsetAt m.wall m.second)

/-- The microseconds of universal time; of a moment without a place, those of its wall time. -/
def instant (m : Moment) : Int := m.wall.total - m.offset?.getD 0 * microsPerSecond

/-- The wall time of universal time. -/
def universal? (m : Moment) : Option WallTime := m.wall.addSeconds? (-(m.offset?.getD 0))

/-- The moment at which the clocks of a zone show an instant, given in universal time. -/
def inZone? (z : Zone) (u : WallTime) : Option Moment :=
  (u.addSeconds? (z.shownAt u).1).map fun w => ⟨w, .zone z, (z.shownAt u).2⟩

/-! ### Steps -/

/-- The beginning of the same day. -/
def startOfDay (m : Moment) : Moment := { m with wall := .startOfDay m.wall.date }

/-- The last microsecond of the same day. -/
def endOfDay (m : Moment) : Moment := { m with wall := .endOfDay m.wall.date }

/-- The beginning of the first day of the same month. -/
def startOfMonth (m : Moment) : Moment :=
  { m with wall := .startOfDay m.wall.date.firstOfMonth }

/-- The same wall time `n` days before, in its first reading. -/
def subtractDays? (m : Moment) (n : Nat) : Option Moment :=
  (m.wall.date.subtractDays n).map fun d => ⟨{ m.wall with date := d }, m.rule, false⟩

/-- The same wall time `n` months before; the error is a year outside of the calendar. -/
def subtractMonths (m : Moment) (n : Int) : Except Int Moment :=
  (m.wall.date.subtractMonths n).map fun d => { m with wall := { m.wall with date := d } }

end Moment

end CrmQuery
