import CrmQuery.Calendar.WallTime
import CrmQuery.Text.Quoted

/-!
# Time zones

A `Zone` lists the changes of the clocks of a place, the last of which a yearly rule may follow.
`Zone.offsetAt` is the offset of a wall time from universal time, and `Zone.shownAt` goes the other
way.  Where the clocks are put back, they show some wall times twice: the first reading belongs to
the time before the change and the second one to the time after it.  Wall times that they skip have
two readings as well, of which the first has the offset before the change.

`zoneNamed` looks a name up among given zones, or tells what is wrong with the name.  Names are
paths: they neither begin with a slash nor have empty or dotted steps.
-/

namespace CrmQuery

/-! ### Changes of the clocks -/

/-- A change of the clocks of a zone. -/
structure ClockChange where
  /-- The second of universal time that the change begins with. -/
  since : Int
  /-- The seconds by which the clocks are then ahead of universal time. -/
  offset : Int
  deriving DecidableEq, Repr

/-- The first second on the wall that is after the change of an offset.  In the first reading it
follows on what the clocks skip or show twice, and in the second one it begins that. -/
def ClockChange.wallStart (c : ClockChange) (offset : Int) (second : Bool) : Int :=
  c.since + if second then min offset c.offset else max offset c.offset

/-- A change of the clocks in every year. -/
structure YearlyChange where
  month : Nat
  /-- The place among the same weekdays of the month; the fifth one is the last. -/
  week : Nat
  /-- The number of days after a Sunday. -/
  weekday : Nat
  /-- The seconds since midnight on the clocks before the change. -/
  time : Int
  deriving DecidableEq, Repr

namespace YearlyChange

/-- The number of the day of the change. -/
def ordinal (c : YearlyChange) (year : Nat) : Nat :=
  let first := Date.daysBeforeYear year + Date.daysBeforeMonth year c.month + 1
  let later := (c.weekday + 6 * first) % 7 + 7 * (c.week - 1)
  first + if later < monthLength year c.month then later else later - 7

/-- The second on the wall before the change that the change begins with. -/
def wall (c : YearlyChange) (year : Nat) : Int := c.ordinal year * secondsPerDay + c.time

end YearlyChange

/-- Summer time in every year. -/
structure YearlyRule where
  standard : Int
  summer : Int
  begins : YearlyChange
  ends : YearlyChange
  deriving DecidableEq, Repr

/-- A second of a year lies between a beginning and an end, between which the year may turn. -/
def isBetween (begins ends t : Int) : Bool :=
  if begins < ends then begins ≤ t && t < ends else !(ends ≤ t && t < begins)

namespace YearlyRule

/-- The seconds by which the clocks are put forward. -/
def gain (r : YearlyRule) : Int := r.summer - r.standard

/-- The clocks show summer time at a wall time.  The clocks that are put forward skip what the ones
that are put back show twice. -/
def isSummerAt (r : YearlyRule) (w : WallTime) (second : Bool) : Bool :=
  let begins := r.begins.wall w.date.year
  let ends := r.ends.wall w.date.year
  if second = decide (0 ≤ r.gain) then isBetween begins (ends - r.gain) w.seconds
  else isBetween (begins + r.gain) ends w.seconds

/-- The offset of a wall time. -/
def offsetAt (r : YearlyRule) (w : WallTime) (second : Bool) : Int :=
  if r.isSummerAt w second then r.summer else r.standard

/-- The offset of an instant, given in universal time, and whether the clocks show their wall time
for the second time. -/
def shownAt (r : YearlyRule) (u : WallTime) : Int × Bool :=
  let begins := r.begins.wall u.date.year - r.standard
  let ends := r.ends.wall u.date.year - r.summer
  let again : Bool :=
    if 0 < r.gain then ends ≤ u.seconds && u.seconds < ends + r.gain
    else begins ≤ u.seconds && u.seconds < begins - r.gain
  (if isBetween begins ends u.seconds then r.summer else r.standard, again)

end YearlyRule

/-! ### Zones -/

/-- The clocks of a place. -/
structure Zone where
  /-- The offset before the first change. -/
  before : Int
  /-- The changes in their order. -/
  changes : List ClockChange
  /-- What follows the last change, unless its offset is kept. -/
  yearly : Option YearlyRule
  deriving DecidableEq, Repr

namespace Zone

/-- The offset of a wall time, from an offset and the changes that follow it. -/
def offsetFrom (z : Zone) (w : WallTime) (second : Bool) : Int → List ClockChange → Int
  | offset, [] => (z.yearly.map (·.offsetAt w second)).getD offset
  | offset, c :: rest =>
    if w.seconds < c.wallStart offset second then offset else z.offsetFrom w second c.offset rest

/-- The offset of a wall time. -/
def offsetAt (z : Zone) (w : WallTime) (second : Bool) : Int :=
  z.offsetFrom w second z.before z.changes

/-- The offset of an instant and whether its wall time is shown for the second time, from those
before the changes that follow. -/
def shownFrom (z : Zone) (u : WallTime) : Int × Bool → List ClockChange → Int × Bool
  | shown, [] => (z.yearly.map (·.shownAt u)).getD shown
  | shown, c :: rest =>
    if u.seconds < c.since then shown
    else z.shownFrom u (c.offset, u.seconds < c.since + (shown.1 - c.offset)) rest

/-- The offset of an instant, given in universal time, and whether the clocks show their wall time
for the second time. -/
def shownAt (z : Zone) (u : WallTime) : Int × Bool := z.shownFrom u (z.before, false) z.changes

/-! ### Berlin -/

/-- A second of universal time at a full hour. -/
def fullHour (year month day hour : Nat) : Int :=
  (Date.daysBeforeYear year + Date.daysBeforeMonth year month + day : Nat) * secondsPerDay +
    hour * 3600

/-- The offset of the time that the sun shows in Berlin. -/
def berlinSun : Int := 3208

/-- The offset of the time of Central Europe. -/
def centralEurope : Int := 3600

/-- The offset of its summer time. -/
def centralEuropeSummer : Int := 7200

/-- The offset of the high summer time of 1945 and 1947. -/
def centralEuropeHighSummer : Int := 10800

/-- Summer time begins at two o'clock on the last Sunday of March. -/
def lastSundayOfMarch : YearlyChange := ⟨3, 5, 0, 2 * 3600⟩

/-- Up to 1995 summer time ended at three o'clock on the last Sunday of September. -/
def lastSundayOfSeptember : YearlyChange := ⟨9, 5, 0, 3 * 3600⟩

/-- Summer time ends at three o'clock on the last Sunday of October. -/
def lastSundayOfOctober : YearlyChange := ⟨10, 5, 0, 3 * 3600⟩

/-- The changes of the clocks of Berlin up to 1949: the time of Central Europe from April 1893, and
summer time in and after the two wars. -/
def berlinUntil1949 : List ClockChange := [
  ⟨fullHour 1893 4 1 0 - berlinSun, centralEurope⟩,
  ⟨fullHour 1916 4 30 22, centralEuropeSummer⟩, ⟨fullHour 1916 9 30 23, centralEurope⟩,
  ⟨fullHour 1917 4 16 1, centralEuropeSummer⟩, ⟨fullHour 1917 9 17 1, centralEurope⟩,
  ⟨fullHour 1918 4 15 1, centralEuropeSummer⟩, ⟨fullHour 1918 9 16 1, centralEurope⟩,
  ⟨fullHour 1940 4 1 1, centralEuropeSummer⟩, ⟨fullHour 1942 11 2 1, centralEurope⟩,
  ⟨fullHour 1943 3 29 1, centralEuropeSummer⟩, ⟨fullHour 1943 10 4 1, centralEurope⟩,
  ⟨fullHour 1944 4 3 1, centralEuropeSummer⟩, ⟨fullHour 1944 10 2 1, centralEurope⟩,
  ⟨fullHour 1945 4 2 1, centralEuropeSummer⟩, ⟨fullHour 1945 5 24 0, centralEuropeHighSummer⟩,
  ⟨fullHour 1945 9 24 0, centralEuropeSummer⟩, ⟨fullHour 1945 11 18 1, centralEurope⟩,
  ⟨fullHour 1946 4 14 1, centralEuropeSummer⟩, ⟨fullHour 1946 10 7 1, centralEurope⟩,
  ⟨fullHour 1947 4 6 2, centralEuropeSummer⟩, ⟨fullHour 1947 5 11 1, centralEuropeHighSummer⟩,
  ⟨fullHour 1947 6 29 0, centralEuropeSummer⟩, ⟨fullHour 1947 10 5 1, centralEurope⟩,
  ⟨fullHour 1948 4 18 1, centralEuropeSummer⟩, ⟨fullHour 1948 10 3 1, centralEurope⟩,
  ⟨fullHour 1949 4 10 1, centralEuropeSummer⟩, ⟨fullHour 1949 10 2 1, centralEurope⟩]

/-- Summer time of one year in Berlin. -/
def berlinSummer (begins ends : YearlyChange) (year : Nat) : List ClockChange := [
  ⟨begins.wall year - centralEurope, centralEuropeSummer⟩,
  ⟨ends.wall year - centralEuropeSummer, centralEurope⟩]

/-- The clocks of Berlin. -/
def berlin : Zone where
  before := berlinSun
  changes := berlinUntil1949 ++
    [⟨fullHour 1980 4 6 1, centralEuropeSummer⟩, ⟨fullHour 1980 9 28 1, centralEurope⟩] ++
    (List.range' 1981 15).flatMap (berlinSummer lastSundayOfMarch lastSundayOfSeptember) ++
    berlinSummer lastSundayOfMarch lastSundayOfOctober 1996
  yearly := some ⟨centralEurope, centralEuropeSummer, lastSundayOfMarch, lastSundayOfOctober⟩

/-- Universal time. -/
def utc : Zone := ⟨0, [], none⟩

/-- The zones of this library. -/
def known : List (String × Zone) := [("Europe/Berlin", berlin), ("UTC", utc)]

end Zone

/-! ### Names -/

/-- Why there is no time zone of a name. -/
inductive ZoneFault where
  | absolute (name : String)
  | notNormal (name : String)
  | outside (name : String)
  | unknown (name : String)
  deriving DecidableEq, Repr

/-- The explanation of a fault. -/
def ZoneFault.message : ZoneFault → String
  | absolute name => "ZoneInfo keys may not be absolute paths, got: " ++ name
  | notNormal name => "ZoneInfo keys must be normalized relative paths, got: " ++ name
  | outside name => "ZoneInfo keys must refer to subdirectories of TZPATH, got: " ++ name
  | unknown name => Text.quoted ("No time zone found with key " ++ name)

/-- The steps between the slashes of a name. -/
def zoneSteps : List Char → List (List Char)
  | [] => [[]]
  | c :: rest =>
    match zoneSteps rest with
    | [] => [[c]]
    | step :: steps => if c = '/' then [] :: step :: steps else (c :: step) :: steps

/-- No step stays where it is, and a step up follows only steps up. -/
def isNormalPath : List (List Char) → Bool
  | [] => true
  | step :: steps =>
    step != [] && step != ['.'] && (step == ['.', '.'] || !steps.contains ['.', '.']) &&
      isNormalPath steps

/-- What is wrong with a name that is no path below the directory of all zones. -/
def zonePathFault? (name : String) : Option ZoneFault :=
  let steps := zoneSteps name.toList
  if 1 < steps.length ∧ steps.head? = some [] then some (.absolute name)
  else if steps = [['.']] then some (.outside name)
  else if !isNormalPath steps then some (.notNormal name)
  else if steps.head? = some ['.', '.'] then some (.outside name)
  else none

/-- The zone of a name among given ones. -/
def zoneNamed (zones : List (String × Zone)) (name : String) : Except ZoneFault Zone :=
  match zonePathFault? name with
  | some e => .error e
  | none =>
    match zones.lookup name with
    | some z => .ok z
    | none => .error (.unknown name)

end CrmQuery
