import CrmQuery.Calendar.Zone
import Mathlib.Tactic.SplitIfs

/-!
# The clocks of a day

A zone is steady if its offsets differ by less than a day and its clocks never go forward by more
time than they have shown since midnight (`Zone.IsSteady`).  Then no wall time is an instant before
the midnight at the beginning of its day (`Zone.IsSteady.offsetAt_startOfDay`).  The clocks of
Berlin are steady (`Zone.isSteady_berlin`), though they went forward right at a midnight in 1893, up
to one in 1916, and were put back to one in the same year.
-/

namespace CrmQuery

/-! ### Midnights -/

/-- The last midnight before a second that is none is as long before as the second tells. -/
theorem emod_secondsPerDay_of_midnight {midnight start : Int}
    (hday : midnight % secondsPerDay = 0) (hafter : midnight < start)
    (hsame : start < midnight + secondsPerDay) : start % secondsPerDay = start - midnight := by
  unfold secondsPerDay at *
  omega

namespace WallTime

theorem seconds_startOfDay (d : Date) : (startOfDay d).seconds = d.ordinal * secondsPerDay := by
  have hzero : 0 / microsPerSecond = 0 := Nat.zero_div _
  unfold seconds startOfDay
  dsimp only
  rw [hzero, Nat.add_zero]

theorem seconds_startOfDay_le (w : WallTime) : (startOfDay w.date).seconds ≤ w.seconds := by
  rw [seconds_startOfDay]
  exact Nat.le_add_right _ _

theorem seconds_lt_startOfDay_add (w : WallTime) :
    w.seconds < (startOfDay w.date).seconds + secondsPerDay := by
  have hday : microsPerDay = secondsPerDay * microsPerSecond := by decide
  have hlt : w.micros / microsPerSecond < secondsPerDay :=
    Nat.div_lt_of_lt_mul (by rw [Nat.mul_comm, ← hday]; exact w.micros_lt)
  rw [seconds_startOfDay]
  exact Nat.add_lt_add_left hlt _

theorem seconds_startOfDay_emod (d : Date) :
    ((startOfDay d).seconds : Int) % secondsPerDay = 0 := by
  rw [seconds_startOfDay, Int.natCast_mul]
  exact Int.mul_emod_left _ _

end WallTime

/-! ### Summer time -/

/-- A time that is reached from outside without passing the end is reached past the beginning. -/
theorem begins_of_isBetween {begins ends s t : Int} (hs : isBetween begins ends s = false)
    (ht : isBetween begins ends t = true) (hst : s ≤ t) : s < begins ∧ begins ≤ t := by
  unfold isBetween at hs ht
  split_ifs at hs ht with h
  · simp only [Bool.and_eq_true, Bool.and_eq_false_iff, decide_eq_true_eq, decide_eq_false_iff_not]
      at hs ht
    omega
  · simp only [Bool.not_eq_true', Bool.not_eq_false', Bool.and_eq_true, Bool.and_eq_false_iff,
      decide_eq_true_eq, decide_eq_false_iff_not] at hs ht
    omega

namespace YearlyRule

/-- The clocks are put forward, on the day on which summer time begins, and by no more time than
they have shown since midnight. -/
structure IsSteady (r : YearlyRule) : Prop where
  standard_le : r.standard ≤ r.summer
  gain_le : r.gain ≤ r.begins.time
  lt_day : r.begins.time + r.gain < secondsPerDay

variable {r : YearlyRule}

theorem offsetAt_eq (r : YearlyRule) (w : WallTime) (second : Bool) :
    r.offsetAt w second = r.standard ∨ r.offsetAt w second = r.summer := by
  unfold offsetAt
  split
  · exact Or.inr rfl
  · exact Or.inl rfl

/-- What the clocks show in summer time but not at midnight is as long after midnight as they were
put forward. -/
theorem IsSteady.gain_le_of_isSummerAt (h : r.IsSteady) {w : WallTime} {second : Bool}
    (hmidnight : r.isSummerAt (.startOfDay w.date) second = false)
    (hsummer : r.isSummerAt w second = true) :
    (WallTime.startOfDay w.date).seconds + r.gain ≤ w.seconds := by
  have hgain : 0 ≤ r.gain := Int.sub_nonneg_of_le h.standard_le
  have hle := w.seconds_startOfDay_le
  have hlt := w.seconds_lt_startOfDay_add
  have hday := WallTime.seconds_startOfDay_emod w.date
  have hsame : (WallTime.startOfDay w.date).date = w.date := rfl
  have hgain_le := h.gain_le
  have hlt_day := h.lt_day
  unfold isSummerAt at hmidnight hsummer
  rw [hsame] at hmidnight
  split_ifs at hmidnight hsummer
  all_goals
    obtain ⟨hbefore, hafter⟩ := begins_of_isBetween hmidnight hsummer (by omega)
    have hstart := emod_secondsPerDay_of_midnight hday hbefore (by omega)
    unfold YearlyChange.wall secondsPerDay at *
    omega

theorem IsSteady.offsetAt_startOfDay (h : r.IsSteady) (w : WallTime) (second : Bool) :
    (WallTime.startOfDay w.date).seconds + r.offsetAt w second ≤
      w.seconds + r.offsetAt (.startOfDay w.date) second := by
  have hle := w.seconds_startOfDay_le
  have hstandard := h.standard_le
  unfold offsetAt
  cases hmidnight : r.isSummerAt (.startOfDay w.date) second <;>
    cases hsummer : r.isSummerAt w second
  case false.true =>
    have hgain := h.gain_le_of_isSummerAt hmidnight hsummer
    unfold gain at hgain
    simp only [if_true, Bool.false_eq_true, if_false]
    omega
  all_goals
    simp only [if_true, Bool.false_eq_true, if_false]
    omega

end YearlyRule

/-! ### Changes -/

namespace Zone

variable {z : Zone}

/-- The offsets of the yearly rule. -/
def yearlyOffsets (z : Zone) : List Int := (z.yearly.map fun r => [r.standard, r.summer]).getD []

/-- The offsets of a zone. -/
def offsets (z : Zone) : List Int :=
  z.before :: (z.changes.map ClockChange.offset ++ z.yearlyOffsets)

/-- The offsets that follow an offset before the next of some changes. -/
def nextOffsets (z : Zone) (offset : Int) : List ClockChange → List Int
  | [] => offset :: z.yearlyOffsets
  | _ :: _ => [offset]

/-- No change of an offset brings more time than its day has had since midnight, and the next one is
made on a later day. -/
def IsSteadyFrom (z : Zone) (second : Bool) : Int → List ClockChange → Prop
  | _, [] => True
  | offset, c :: rest =>
    let start := c.wallStart offset second
    let sinceMidnight := start % secondsPerDay
    (sinceMidnight = 0 ∨ ∀ o ∈ z.nextOffsets c.offset rest, o ≤ offset + sinceMidnight) ∧
      (∀ next ∈ rest.head?,
        start - sinceMidnight + secondsPerDay ≤ next.wallStart c.offset second) ∧
      z.IsSteadyFrom second c.offset rest

instance decidableIsSteadyFrom (z : Zone) (second : Bool) :
    ∀ (offset : Int) (changes : List ClockChange),
      Decidable (z.IsSteadyFrom second offset changes)
  | _, [] => isTrue trivial
  | _, c :: rest =>
    have := decidableIsSteadyFrom z second c.offset rest
    inferInstanceAs (Decidable (_ ∧ _ ∧ _))

/-- The offsets of a zone differ by less than a day, and no day begins after its moments. -/
structure IsSteady (z : Zone) : Prop where
  near : ∀ o ∈ z.offsets, ∀ o' ∈ z.offsets, o' < o + secondsPerDay
  changes : ∀ second, z.IsSteadyFrom second z.before z.changes
  yearly : ∀ r ∈ z.yearly, r.IsSteady

/-! ### Offsets of wall times -/

section Wall

variable (z) (w : WallTime) (second : Bool)

theorem offsetFrom_nil_mem (offset : Int) :
    z.offsetFrom w second offset [] ∈ offset :: z.yearlyOffsets := by
  unfold offsetFrom yearlyOffsets
  cases z.yearly with
  | none => exact List.mem_cons_self
  | some r =>
    simp only [Option.map_some, Option.getD_some, List.mem_cons, List.not_mem_nil, or_false]
    exact Or.inr (r.offsetAt_eq w second)

theorem offsetFrom_mem : ∀ (offset : Int) (changes : List ClockChange),
    z.offsetFrom w second offset changes ∈
      offset :: (changes.map ClockChange.offset ++ z.yearlyOffsets)
  | offset, [] => z.offsetFrom_nil_mem w second offset
  | offset, c :: rest => by
    rw [offsetFrom]
    split_ifs
    · exact List.mem_cons_self
    · exact List.mem_cons_of_mem _ (offsetFrom_mem c.offset rest)

theorem offsetAt_mem : z.offsetAt w second ∈ z.offsets := z.offsetFrom_mem w second _ _

variable {z w second} {offset : Int}

theorem offsetFrom_cons_of_lt {c : ClockChange} {rest : List ClockChange}
    (h : w.seconds < c.wallStart offset second) :
    z.offsetFrom w second offset (c :: rest) = offset := if_pos h

theorem offsetFrom_cons_of_le {c : ClockChange} {rest : List ClockChange}
    (h : c.wallStart offset second ≤ w.seconds) :
    z.offsetFrom w second offset (c :: rest) = z.offsetFrom w second c.offset rest :=
  if_neg (Int.not_lt.2 h)

/-- Before the next change there are no other offsets. -/
theorem offsetFrom_mem_nextOffsets {changes : List ClockChange}
    (h : ∀ c ∈ changes.head?, w.seconds < c.wallStart offset second) :
    z.offsetFrom w second offset changes ∈ z.nextOffsets offset changes := by
  cases changes with
  | nil => exact z.offsetFrom_nil_mem w second offset
  | cons c rest =>
    rw [offsetFrom_cons_of_lt (h c rfl)]
    exact List.mem_singleton_self _

/-- A moment has as much more offset than the midnight before, at most, as it is later. -/
theorem offsetFrom_startOfDay (hyearly : ∀ r ∈ z.yearly, r.IsSteady) (w : WallTime) :
    ∀ {offset : Int} {changes : List ClockChange}, z.IsSteadyFrom second offset changes →
      (WallTime.startOfDay w.date).seconds + z.offsetFrom w second offset changes ≤
        w.seconds + z.offsetFrom (.startOfDay w.date) second offset changes
  | offset, [], _ => by
    have hle := w.seconds_startOfDay_le
    unfold offsetFrom
    cases hrule : z.yearly with
    | none =>
      simp only [Option.map_none, Option.getD_none]
      omega
    | some r => exact (hyearly r hrule).offsetAt_startOfDay w second
  | offset, c :: rest, ⟨hgain, hnext, hrest⟩ => by
    have hle := w.seconds_startOfDay_le
    by_cases hmoment : w.seconds < c.wallStart offset second
    · have hmidnight : (WallTime.startOfDay w.date).seconds < c.wallStart offset second := by omega
      rw [offsetFrom_cons_of_lt hmoment, offsetFrom_cons_of_lt hmidnight]
      omega
    rw [Int.not_lt] at hmoment
    rw [offsetFrom_cons_of_le hmoment]
    by_cases hmidnight : c.wallStart offset second ≤ (WallTime.startOfDay w.date).seconds
    · rw [offsetFrom_cons_of_le hmidnight]
      exact offsetFrom_startOfDay hyearly w hrest
    -- The clocks change between midnight and the moment, so they do not change again before it.
    rw [Int.not_le] at hmidnight
    have hlt := w.seconds_lt_startOfDay_add
    have hsince := emod_secondsPerDay_of_midnight (WallTime.seconds_startOfDay_emod w.date)
      hmidnight (by omega)
    rw [hsince] at hgain hnext
    have hmem : z.offsetFrom w second c.offset rest ∈ z.nextOffsets c.offset rest := by
      refine offsetFrom_mem_nextOffsets fun next hmem => ?_
      have := hnext next hmem
      omega
    have hoffset := (hgain.resolve_left (by omega)) _ hmem
    rw [offsetFrom_cons_of_lt hmidnight]
    omega

end Wall

namespace IsSteady

variable (h : z.IsSteady)
include h

theorem offsetAt_startOfDay (w : WallTime) (second : Bool) :
    (WallTime.startOfDay w.date).seconds + z.offsetAt w second ≤
      w.seconds + z.offsetAt (.startOfDay w.date) second :=
  offsetFrom_startOfDay h.yearly w (h.changes second)

theorem offsetAt_lt (w w' : WallTime) (second second' : Bool) :
    z.offsetAt w' second' < z.offsetAt w second + secondsPerDay :=
  h.near _ (z.offsetAt_mem w second) _ (z.offsetAt_mem w' second')

end IsSteady

/-! ### Berlin -/

theorem isSteady_berlin : berlin.IsSteady where
  near := by decide +kernel
  changes := by decide +kernel
  yearly := by
    intro r hr
    cases hr
    exact ⟨by decide, by decide, by decide⟩

end Zone

end CrmQuery
