import CrmQuery.Calendar.Date

/-!
# Wall times

A `WallTime` is what a calendar and a clock on the wall show, a date and a time of day.  It does not
say where they hang.
-/

namespace CrmQuery

/-- The number of microseconds of a second. -/
def microsPerSecond : Nat := 1000000

/-- The number of microseconds of a minute. -/
def microsPerMinute : Nat := 60 * microsPerSecond

/-- The number of microseconds of an hour. -/
def microsPerHour : Nat := 60 * microsPerMinute

/-- The number of microseconds of a day. -/
def microsPerDay : Nat := 24 * microsPerHour

/-- The number of seconds of a day. -/
def secondsPerDay : Nat := 86400

/-- A date and the microseconds since its midnight. -/
@[ext] structure WallTime where
  date : Date
  micros : Nat
  micros_lt : micros < microsPerDay
  deriving DecidableEq

namespace WallTime

/-- Midnight at the beginning of a day. -/
def startOfDay (d : Date) : WallTime := ⟨d, 0, by decide⟩

/-- The last microsecond of a day. -/
def endOfDay (d : Date) : WallTime := ⟨d, microsPerDay - 1, by decide⟩

/-- The microseconds since midnight at the beginning of the day before the first one. -/
def total (w : WallTime) : Nat := w.date.ordinal * microsPerDay + w.micros

/-- The whole seconds since midnight at the beginning of the day before the first one. -/
def seconds (w : WallTime) : Nat := w.date.ordinal * secondsPerDay + w.micros / microsPerSecond

theorem toNat_emod_lt (t : Int) : (t % microsPerDay).toNat < microsPerDay := by
  have hpos : (0 : Int) < microsPerDay := by decide
  have hlt := Int.emod_lt_of_pos t hpos
  omega

/-- The wall time some seconds later, on the same day or a neighbouring one. -/
def addSeconds? (w : WallTime) (seconds : Int) : Option WallTime :=
  let t : Int := w.micros + seconds * microsPerSecond
  let days := t / microsPerDay
  let date? :=
    if days = 0 then some w.date
    else if days = 1 then w.date.succ?
    else if days = -1 then w.date.pred?
    else none
  date?.map fun d => ⟨d, (t % microsPerDay).toNat, toNat_emod_lt t⟩

end WallTime

end CrmQuery
