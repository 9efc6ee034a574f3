import CrmQuery.Calendar.Unix
import CrmQuery.Proofs.Text.Blank
import CrmQuery.Proofs.Text.Numerals

/-!
# Moments read back

The text of a moment in JSON is read as the same moment (`Moment.read_jsonText`), if the moment is
one that a text can say (`Moment.IsWritten`).
-/

namespace CrmQuery

open Text

/-! ### Numbers of a fixed width -/

/-- So many digits of ASCII that write a number. -/
structure IsPadded (width n : Nat) (ds : List Char) : Prop where
  length : ds.length = width
  digits : ∀ c ∈ ds, c.isDigit = true
  numeral : numeral ds = n

theorem toList_padded (width n : Nat) : (padded width n).toList =
    List.replicate (width - (Nat.toDigits 10 n).length) '0' ++ Nat.toDigits 10 n := by
  have hlength : (toString n).length = (Nat.toDigits 10 n).length := by
    rw [← String.length_toList, toList_toString]
  unfold padded
  rw [String.toList_append, String.toList_ofList, toList_toString, hlength]

theorem isPadded_padded {width n : Nat} (hwidth : 0 < width) (h : n < 10 ^ width) :
    IsPadded width n (padded width n).toList := by
  have hlength : (Nat.toDigits 10 n).length ≤ width :=
    (Nat.length_toDigits_le_iff (by decide) hwidth).2 h
  rw [toList_padded]
  constructor
  case length =>
    rw [List.length_append, List.length_replicate]
    omega
  case digits => exact forall_isDigit_append forall_isDigit_zeros fun c hc => isDigit_of_mem hc
  case numeral => rw [numeral_replicate_append, numeral_toDigits]

/-- Digits are added up one by one. -/
theorem fixedNumber_digits (fault : DateFault) (rest : List Char) :
    ∀ (ds : List Char) (value : Nat), (∀ c ∈ ds, c.isDigit = true) →
      fixedNumber fault ds.length value (ds ++ rest) =
        .ok (ds.foldl (fun n d => 10 * n + (digit? d).getD 0) value, rest)
  | [], value, _ => rfl
  | d :: ds, value, h => by
    have hd : d.isDigit = true := h d List.mem_cons_self
    have hvalue : (digit? d).getD 0 = d.toNat - '0'.toNat := by
      rw [digit?_of_isDigit hd]
      rfl
    rw [List.length_cons, List.cons_append, fixedNumber, if_pos hd, ← hvalue,
      fixedNumber_digits fault rest ds _ fun c hc => h c (List.mem_cons_of_mem d hc)]
    rfl

theorem IsPadded.fixedNumber {width n : Nat} {ds : List Char} (h : IsPadded width n ds)
    (fault : DateFault) (rest : List Char) :
    fixedNumber fault width 0 (ds ++ rest) = .ok (n, rest) := by
  have hread := fixedNumber_digits fault rest ds 0 h.digits
  rw [h.length] at hread
  rw [hread, ← h.numeral]
  rfl

theorem IsPadded.twoDigits? {n bound : Nat} {ds : List Char} (h : IsPadded 2 n ds) (hn : n < bound)
    (rest : List Char) : twoDigits? bound (ds ++ rest) = some (n, rest) := by
  obtain ⟨a, b, rfl⟩ := List.length_eq_two.1 h.length
  have ha : a.isDigit = true := h.digits a (by simp)
  have hb : b.isDigit = true := h.digits b (by simp)
  have hvalue : 10 * (a.toNat - '0'.toNat) + (b.toNat - '0'.toNat) = n := by
    rw [← h.numeral]
    simp [Text.numeral, digit?_of_isDigit ha, digit?_of_isDigit hb]
  show (if a.isDigit && b.isDigit && 10 * (a.toNat - '0'.toNat) + (b.toNat - '0'.toNat) < bound
    then some (10 * (a.toNat - '0'.toNat) + (b.toNat - '0'.toNat), rest) else none) = some (n, rest)
  rw [hvalue]
  simp [ha, hb, hn]

/-! ### Times of day -/

theorem isPadded_two {n : Nat} (h : n < 100) : IsPadded 2 n (padded 2 n).toList :=
  isPadded_padded (by decide) h

/-- What follows a time of day goes on neither with a digit nor with a fraction. -/
def EndsTime (rest : List Char) : Prop :=
  ∀ c ∈ rest.head?, c.isDigit = false ∧ c ≠ '.' ∧ c ≠ ','

theorem fractionMicros_eq {n : Nat} {ds : List Char} (h : IsPadded 6 n ds) :
    fractionMicros ds = n := by
  unfold fractionMicros
  rw [List.take_of_length_le h.length.le, h.length, h.numeral]
  exact Nat.mul_one n

theorem readFraction?_of_endsTime {rest : List Char} (h : EndsTime rest) :
    readFraction? rest = some (0, rest) := by
  cases rest with
  | nil => rfl
  | cons c rest =>
    obtain ⟨-, hpoint, hcomma⟩ := h c rfl
    rw [readFraction?, if_neg (by simp [hpoint, hcomma])]

theorem readFraction?_padded {n : Nat} (hn : n < 1000000) {rest : List Char} (h : EndsTime rest) :
    readFraction? ('.' :: ((padded 6 n).toList ++ rest)) = some (n, rest) := by
  have hpadded : IsPadded 6 n (padded 6 n).toList := isPadded_padded (by decide) hn
  have hhead : ∀ c ∈ rest.head?, c.isDigit = false := fun c hc => (h c hc).1
  have hrun : ((padded 6 n).toList ++ rest).takeWhile Char.isDigit = (padded 6 n).toList := by
    rw [takeWhile_append_of_head? _ hhead, List.takeWhile_eq_self_iff.2 hpadded.digits]
  have hne : (padded 6 n).toList.isEmpty = false := by
    rw [List.isEmpty_eq_false_iff, ← List.length_pos_iff, hpadded.length]
    decide
  unfold readFraction?
  simp only [hrun, hne, List.drop_left, fractionMicros_eq hpadded]
  rfl

/-- A time of day is read to its end. -/
theorem readTime?_timeText {micros : Nat} (h : micros < microsPerDay) {rest : List Char}
    (hrest : EndsTime rest) :
    readTime? ((timeText micros).toList ++ rest) = some (micros, rest) := by
  have hday : microsPerDay = 86400000000 := by decide
  have hminute : microsPerMinute = 60000000 := rfl
  obtain ⟨seconds, hseconds⟩ : ∃ seconds, micros / 1000000 = seconds := ⟨_, rfl⟩
  obtain ⟨fraction, hfraction⟩ : ∃ fraction, micros % 1000000 = fraction := ⟨_, rfl⟩
  have hlt : fraction < 1000000 := by omega
  have hread : ∃ tail, readFraction? tail = some (fraction, rest) ∧
      (timeText micros).toList ++ rest = (padded 2 (seconds / 3600)).toList ++
        ':' :: ((padded 2 (seconds / 60 % 60)).toList ++
          ':' :: ((padded 2 (seconds % 60)).toList ++ tail)) := by
    unfold timeText
    simp only [hseconds, hfraction]
    split_ifs with hzero
    · refine ⟨rest, hzero ▸ readFraction?_of_endsTime hrest, ?_⟩
      simp
    · refine ⟨_, readFraction?_padded hlt hrest, ?_⟩
      simp
  obtain ⟨tail, htail, htext⟩ := hread
  have htotal : (60 * (seconds / 3600) + seconds / 60 % 60) * microsPerMinute +
      seconds % 60 * 1000000 + fraction = micros := by
    rw [hminute]
    omega
  unfold readTime?
  rw [htext, (isPadded_two (by omega)).twoDigits? (by omega)]
  simp only [Option.bind_eq_bind, Option.bind_some]
  rw [(isPadded_two (by omega)).twoDigits? (by omega)]
  simp only [Option.bind_some]
  rw [(isPadded_two (by omega)).twoDigits? (by omega)]
  simp only [Option.bind_some, htail, htotal]
  rfl

/-! ### Offsets -/

/-- A rule that a text can say: no offset, or one of whole minutes and less than a day. -/
def OffsetRule.IsWritten : OffsetRule → Prop
  | floating => True
  | fixed offset => ∃ minutes : Int, offset = 60 * minutes ∧ minutes.natAbs < 1440
  | zone _ => False

/-- The text of an offset in JSON. -/
def OffsetRule.jsonText : OffsetRule → String
  | fixed offset => jsonOffset offset
  | _ => ""

theorem readOffset?_cons {sign : Char} {negative : Bool} (hsign : minus? sign = some negative)
    {hours minutes : Nat} {s t : List Char} (hhours : twoDigits? 24 s = some (hours, ':' :: t))
    (hminutes : twoDigits? 60 t = some (minutes, [])) :
    readOffset? (sign :: s) =
      some (.fixed (if negative then -(60 * (60 * hours + minutes : Nat))
        else 60 * (60 * hours + minutes : Nat))) := by
  unfold readOffset?
  split
  · simp_all
  · rename_i h
    cases h
    cases hsign
  · rename_i h
    cases h
    cases hsign
  · rename_i h
    cases h
    rw [hsign]
    simp only [Option.bind_eq_bind, Option.bind_some, hhours, hminutes]
    rfl

/-- An offset of whole minutes. -/
theorem toList_offsetText (minutes : Int) : (offsetText (60 * minutes)).toList =
    (if minutes < 0 then '-' else '+') :: ((padded 2 (minutes.natAbs / 60)).toList ++
      ':' :: (padded 2 (minutes.natAbs % 60)).toList) := by
  have hcolon : ":".toList = [':'] := rfl
  have hsize : (60 * minutes).natAbs / 60 = minutes.natAbs := by omega
  have hsign : 60 * minutes < 0 ↔ minutes < 0 := by omega
  unfold offsetText
  simp only [String.toList_append, hcolon, hsize, hsign]
  split_ifs <;> simp

theorem jsonOffset_eq (minutes : Int) : jsonOffset (60 * minutes) =
    if minutes = 0 then "Z" else offsetText (60 * minutes) := by
  have hzero : 60 * minutes = 0 ↔ minutes = 0 := by omega
  unfold jsonOffset
  simp only [hzero]

theorem readOffset?_jsonText {rule : OffsetRule} (h : rule.IsWritten) :
    readOffset? rule.jsonText.toList = some rule := by
  cases rule with
  | floating => rfl
  | zone z => exact h.elim
  | fixed offset =>
    obtain ⟨minutes, rfl, hlt⟩ : ∃ minutes : Int, offset = 60 * minutes ∧ minutes.natAbs < 1440 := h
    show readOffset? (jsonOffset (60 * minutes)).toList = some (.fixed (60 * minutes))
    rw [jsonOffset_eq]
    split_ifs with hzero
    · rw [hzero]
      rfl
    · have hhours : twoDigits? 24 ((padded 2 (minutes.natAbs / 60)).toList ++
          ':' :: (padded 2 (minutes.natAbs % 60)).toList) =
            some (minutes.natAbs / 60, ':' :: (padded 2 (minutes.natAbs % 60)).toList) :=
        (isPadded_two (by omega)).twoDigits? (by omega) _
      have hminutes : twoDigits? 60 (padded 2 (minutes.natAbs % 60)).toList =
          some (minutes.natAbs % 60, []) := by
        have hread : twoDigits? 60 ((padded 2 (minutes.natAbs % 60)).toList ++ []) =
            some (minutes.natAbs % 60, []) := (isPadded_two (by omega)).twoDigits? (by omega) []
        rwa [List.append_nil] at hread
      have hsign : minus? (if minutes < 0 then '-' else '+') = some (decide (minutes < 0)) := by
        split_ifs with hneg <;> simp [hneg, minus?]
      have hvalue : (if decide (minutes < 0) = true then -(60 * (minutes.natAbs : Int))
          else 60 * minutes.natAbs) = 60 * minutes := by
        by_cases hneg : minutes < 0
        · rw [if_pos (decide_eq_true hneg)]
          omega
        · rw [if_neg (by simpa using hneg)]
          omega
      rw [toList_offsetText, readOffset?_cons hsign hhours hminutes, Nat.div_add_mod, hvalue]

theorem endsTime_jsonText {rule : OffsetRule} (h : rule.IsWritten) :
    EndsTime rule.jsonText.toList := by
  have hnil : EndsTime "".toList := by simp [EndsTime]
  cases rule with
  | floating | zone z => exact hnil
  | fixed offset =>
    obtain ⟨minutes, rfl, -⟩ := h
    show EndsTime (jsonOffset (60 * minutes)).toList
    rw [jsonOffset_eq]
    split_ifs with hzero
    · show EndsTime ['Z']
      simp [EndsTime]
    · rw [toList_offsetText]
      unfold EndsTime
      split_ifs <;> simp

/-! ### Dates -/

theorem length_le_utf8ByteSize (s : List Char) : s.length ≤ (String.ofList s).utf8ByteSize := by
  induction s with
  | nil => exact Nat.zero_le _
  | cons c s ih =>
    have hc := c.utf8Size_pos
    rw [List.length_cons, String.ofList_cons, String.utf8ByteSize_append,
      String.utf8ByteSize_singleton]
    omega

/-- A date is read, and what follows it is left. -/
theorem Date.readFirst_isoText (d : Date) (rest : List Char) :
    Date.readFirst (d.isoText.toList ++ rest) = .ok (some d, rest) := by
  have hyear : IsPadded 4 d.year (padded 4 d.year).toList :=
    isPadded_padded (by decide) (Nat.lt_succ_of_le d.year_le)
  have hmonth : IsPadded 2 d.month (padded 2 d.month).toList := by
    have := d.month_le
    exact isPadded_two (by omega)
  have hday : IsPadded 2 d.day (padded 2 d.day).toList := by
    have := d.day_le.trans (monthLength_le d.year d.month)
    exact isPadded_two (by omega)
  have htext : d.isoText.toList ++ rest = (padded 4 d.year).toList ++
      '-' :: ((padded 2 d.month).toList ++ '-' :: ((padded 2 d.day).toList ++ rest)) := by
    simp [Date.isoText]
  have hbytes : dateBytes ≤ (String.ofList (d.isoText.toList ++ rest)).utf8ByteSize := by
    refine le_trans ?_ (length_le_utf8ByteSize _)
    rw [htext]
    simp only [List.length_append, List.length_cons, hyear.length, hmonth.length, hday.length]
    unfold dateBytes
    omega
  have hof : Date.of? d.year d.month d.day = some d := by
    unfold Date.of?
    rw [dif_pos ⟨⟨d.year_pos, d.year_le⟩, ⟨d.month_pos, d.month_le⟩, d.day_pos, d.day_le⟩]
  have hmonthRange : ¬ (d.month = 0 ∨ 12 < d.month) := by
    have := d.month_pos
    have := d.month_le
    omega
  have hdayRange : ¬ (d.day = 0 ∨ monthLength d.year d.month < d.day) := by
    have := d.day_pos
    have := d.day_le
    omega
  unfold Date.readFirst
  rw [if_neg (Nat.not_lt.2 hbytes), htext]
  simp only [hyear.fixedNumber, hmonth.fixedNumber, hday.fixedNumber, afterHyphen, bind,
    Except.bind, pure, Except.pure, if_neg hmonthRange, if_neg hdayRange, hof]

/-! ### Moments -/

/-- A moment that a text can say. -/
structure Moment.IsWritten (m : Moment) : Prop where
  rule : m.rule.IsWritten
  first : m.second = false

theorem Moment.jsonText_eq {m : Moment} (h : m.IsWritten) : m.jsonText =
    m.wall.date.isoText ++ "T" ++ timeText m.wall.micros ++ m.rule.jsonText := by
  have hrule := h.rule
  unfold Moment.jsonText Moment.text Moment.offset?
  cases hr : m.rule with
  | zone z =>
    rw [hr] at hrule
    exact hrule.elim
  | floating => rfl
  | fixed offset => rfl

theorem Moment.read_jsonText {m : Moment} (h : m.IsWritten) :
    Moment.read m.jsonText.toList = .ok m := by
  have htext : m.jsonText.toList = m.wall.date.isoText.toList ++
      'T' :: ((timeText m.wall.micros).toList ++ m.rule.jsonText.toList) := by
    rw [jsonText_eq h]
    simp
  have hclock : readClock? ('T' :: ((timeText m.wall.micros).toList ++ m.rule.jsonText.toList)) =
      some (m.wall.micros, m.rule) := by
    unfold readClock?
    simp only [readTime?_timeText m.wall.micros_lt (endsTime_jsonText h.rule),
      Option.bind_eq_bind, Option.bind_some, readOffset?_jsonText h.rule]
    rfl
  have hat : at? m.wall.date m.wall.micros m.rule = some m := by
    unfold at?
    rw [dif_pos m.wall.micros_lt, ← h.first]
  unfold Moment.read
  rw [htext, Date.readFirst_isoText]
  simp only [bind, Except.bind, hclock, Option.bind_some, hat]
  rfl

/-! ### Moments that are read -/

namespace Moment

theorem isWritten_of_at? {d : Date} {micros : Nat} {rule : OffsetRule} {m : Moment}
    (h : at? d micros rule = some m) (hrule : rule.IsWritten) : m.IsWritten := by
  unfold at? at h
  split_ifs at h
  cases h
  exact ⟨hrule, rfl⟩

theorem lt_of_twoDigits? {bound n : Nat} {s rest : List Char}
    (h : twoDigits? bound s = some (n, rest)) : n < bound := by
  unfold twoDigits? at h
  split at h
  · simp only [Option.ite_none_right_eq_some, Bool.and_eq_true, decide_eq_true_eq] at h
    obtain ⟨⟨-, hlt⟩, heq⟩ := h
    cases heq
    exact hlt
  · cases h

theorem isWritten_of_readOffset? {s : List Char} {rule : OffsetRule}
    (h : readOffset? s = some rule) : rule.IsWritten := by
  have hzero : (OffsetRule.fixed 0).IsWritten := ⟨0, rfl, by decide⟩
  unfold readOffset? at h
  split at h
  · cases h
    exact True.intro
  · cases h
    exact hzero
  · cases h
    exact hzero
  · simp only [Option.bind_eq_bind, Option.bind_eq_some_iff] at h
    obtain ⟨negative, -, ⟨hours, t⟩, hhours, ⟨minutes, u⟩, hminutes, h⟩ := h
    have hlt : hours < 24 := lt_of_twoDigits? hhours
    have hlt' : minutes < 60 := lt_of_twoDigits? hminutes
    obtain rfl : u = [] := by
      by_contra hu
      simp [hu] at h
    cases h
    cases negative with
    | false => exact ⟨(60 * hours + minutes : Nat), rfl, by omega⟩
    | true =>
      refine ⟨-(60 * hours + minutes : Nat), ?_, by omega⟩
      exact (Int.mul_neg 60 _).symm

theorem isWritten_of_readClock? {s : List Char} {micros : Nat} {rule : OffsetRule}
    (h : readClock? s = some (micros, rule)) : rule.IsWritten := by
  unfold readClock? at h
  split at h
  · cases h
    exact True.intro
  · split_ifs at h
    · simp only [Option.bind_eq_bind, Option.bind_eq_some_iff] at h
      obtain ⟨⟨micros, t⟩, -, rule, hrule, h⟩ := h
      cases h
      exact isWritten_of_readOffset? hrule
    · cases h

theorem isWritten_of_read {s : List Char} {m : Moment} (h : read s = .ok m) : m.IsWritten := by
  unfold read at h
  simp only [bind, Except.bind] at h
  split at h
  · cases h
  · split at h
    · cases h
    · rename_i micros rule hclock
      split at h
      · rename_i m' hat
        cases h
        obtain ⟨d, -, hat⟩ := Option.bind_eq_some_iff.1 hat
        exact isWritten_of_at? hat (isWritten_of_readClock? hclock)
      · cases h

theorem isWritten_of_ofUnix {n : Int} {micros : Nat} {m : Moment} (h : ofUnix n micros = .ok m) :
    m.IsWritten := by
  have hzero : (OffsetRule.fixed 0).IsWritten := ⟨0, rfl, by decide⟩
  unfold ofUnix at h
  simp only at h
  split_ifs at h
  all_goals
    split at h
    · cases h
    · rename_i m' hm'
      cases h
      obtain ⟨d, -, hat⟩ := Option.bind_eq_some_iff.1 hm'
      exact isWritten_of_at? hat hzero

/-- The number in a text stands for a number of seconds or milliseconds and some microseconds. -/
theorem exists_of_ofUnixText? {s : List Char} {r : Except DateFault Moment}
    (h : ofUnixText? s = some r) : ∃ n micros, r = ofUnix n micros := by
  have hdecimal : ∀ x, ∃ n micros, ofUnixDecimal x = ofUnix n micros := fun x => ⟨_, _, rfl⟩
  unfold ofUnixText? at h
  split at h
  all_goals
    dsimp only at h
    split at h
    · cases h
    · split at h
      · exact ⟨_, _, (Option.some.inj h).symm⟩
      · split at h
        · split at h
          · cases h
          · cases h
          · rw [← Option.some.inj h]
            exact hdecimal _
        · cases h
      · cases h

/-- The text of a moment is no number. -/
theorem ofUnixText?_jsonText {m : Moment} (h : m.IsWritten) :
    ofUnixText? m.jsonText.toList = none := by
  have hyear : IsPadded 4 m.wall.date.year (padded 4 m.wall.date.year).toList :=
    isPadded_padded (by decide) (Nat.lt_succ_of_le m.wall.date.year_le)
  obtain ⟨rest, htext⟩ : ∃ rest, m.jsonText.toList =
      (padded 4 m.wall.date.year).toList ++ '-' :: rest := by
    rw [jsonText_eq h]
    simp [Date.isoText]
  obtain ⟨d, ds, hds⟩ : ∃ d ds, (padded 4 m.wall.date.year).toList = d :: ds := by
    refine List.exists_cons_of_ne_nil ?_
    rw [← List.length_pos_iff, hyear.length]
    decide
  have hd : d.isDigit = true := hyear.digits d (hds ▸ List.mem_cons_self)
  have hminus : d ≠ '-' := by
    rintro rfl
    cases hd
  have hplus : d ≠ '+' := by
    rintro rfl
    cases hd
  have hrun : ((padded 4 m.wall.date.year).toList ++ '-' :: rest).takeWhile Char.isDigit =
      (padded 4 m.wall.date.year).toList := by
    rw [takeWhile_append_of_head? _ (by simp), List.takeWhile_eq_self_iff.2 hyear.digits]
  rw [htext]
  unfold ofUnixText?
  split
  rename_i negative t hsigned
  split at hsigned
  · rename_i h'
    rw [hds] at h'
    exact absurd (List.cons.inj h').1 hminus
  · rename_i h'
    rw [hds] at h'
    exact absurd (List.cons.inj h').1 hplus
  · cases hsigned
    simp only [hrun, List.drop_left]
    split_ifs <;> rfl

end Moment

end CrmQuery
