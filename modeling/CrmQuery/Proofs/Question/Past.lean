import CrmQuery.Proofs.Question.Timeframe
import CrmQuery.Proofs.Question.Window
import CrmQuery.Proofs.Vocabulary.Times
import CrmQuery.Proofs.Vocabulary.WrittenNumbers

/-!
# Phrases for the past

A text `SpellsPast` if it has a word that looks back, a number if there is one, and a unit, with
blanks between them.  `TimePhrase.relative` fits such texts and no others
(`TimePhrase.spellsPast_of_fits_relative`, `TimePhrase.exists_fits_relative`), and there is only one
way to read them (`SpellsPast.unique`).  From the year 12 on, such a phrase is the timeframe that it
names unless there are too many units (`Timeframe.ofText?_reads_past`).
-/

namespace CrmQuery

open Text Pattern

/-! ### Texts -/

/-- The text is empty, or it is a number of units and the blanks after it. -/
inductive Counts : Option (List Char) → List Char → Prop
  | nothing : Counts none []
  | number {ds z : List Char} (digits : AreDigits ds) (gap : IsGap z) : Counts (some ds) (ds ++ z)

/-- The text has a word that looks back, a number if there is one, and a unit. -/
inductive SpellsPast (n : Option (List Char)) (u : List Char) : List Char → Prop
  | mk {b z x : List Char} (back : IsOneOf TimePhrase.lookingBackWords b) (gap : IsGap z)
      (count : Counts n x) (unit : IsOneOf Period.allUnitWords u) :
      SpellsPast n u (b ++ (z ++ (x ++ u)))

section Texts

variable {n n' : Option (List Char)} {u u' x x' r r' : List Char}

theorem isWord_of_unit (h : IsOneOf Period.allUnitWords u) : u ≠ [] ∧ ∀ c ∈ u, isWord c = true :=
  h.isWord Period.fitsExactly_allPatterns.areWords

/-- A unit begins with a letter. -/
theorem exists_head_of_unit (h : IsOneOf Period.allUnitWords u) :
    ∃ c v, u = c :: v ∧ isDigit c = false ∧ isWord c = true := by
  have hapart : (anyOf (Period.all.flatMap Period.patterns)).apart .digit = true := by
    decide +kernel
  have hdigit := Period.fitsExactly_allPatterns.has_eq_false h hapart
  obtain ⟨hne, hword⟩ := isWord_of_unit h
  obtain ⟨c, v, rfl⟩ := List.exists_cons_of_ne_nil hne
  exact ⟨c, v, rfl, hdigit c List.mem_cons_self, hword c List.mem_cons_self⟩

/-- A number begins with a digit, and a unit does not. -/
theorem append_ne_of_unit {ds : List Char} (hds : AreDigits ds)
    (hu : IsOneOf Period.allUnitWords u) : ds ++ r ≠ u ++ r' := by
  obtain ⟨d, ds, rfl⟩ := List.exists_cons_of_ne_nil hds.ne_nil
  obtain ⟨c, v, rfl, hc, -⟩ := exists_head_of_unit hu
  have hd := hds.digit d List.mem_cons_self
  intro h
  rw [(List.cons.inj h).1, hc] at hd
  cases hd

/-- There is no blank where a count of units begins, nor where a unit does. -/
theorem isBlank_head?_of_counts (hx : Counts n x) (hu : IsOneOf Period.allUnitWords u) :
    ∀ c ∈ (x ++ (u ++ r)).head?, isBlank c = false := by
  intro c hc
  cases hx with
  | nothing =>
    obtain ⟨e, v, rfl, -, he⟩ := exists_head_of_unit hu
    obtain rfl : e = c := Option.some.inj hc
    exact isBlank_of_isWord he
  | number hds _ =>
    obtain ⟨e, ds, rfl⟩ := List.exists_cons_of_ne_nil hds.ne_nil
    obtain rfl : e = c := Option.some.inj hc
    exact isBlank_of_isWord (isWord_of_digit (hds.digit e List.mem_cons_self))

/-- A count of units is read in one way only, where a unit follows. -/
theorem Counts.unique (hx : Counts n x) (hx' : Counts n' x') (hu : IsOneOf Period.allUnitWords u)
    (hu' : IsOneOf Period.allUnitWords u') (h : x ++ (u ++ r) = x' ++ (u' ++ r')) :
    n = n' ∧ u ++ r = u' ++ r' := by
  have hdigit : ∀ {z v : List Char}, IsGap z → ∀ c ∈ (z ++ v).head?, isDigit c = false :=
    fun hz c hc => isDigit_of_isBlank (hz.isBlank_head? _ c hc)
  have hblank := isBlank_head?_of_counts (r := r) .nothing hu
  have hblank' := isBlank_head?_of_counts (r := r') .nothing hu'
  cases hx with
  | nothing =>
    cases hx' with
    | nothing => exact ⟨rfl, h⟩
    | number hds' _ =>
      rw [List.append_assoc, List.nil_append] at h
      exact absurd h.symm (append_ne_of_unit hds' hu)
  | number hds hz =>
    cases hx' with
    | nothing =>
      rw [List.append_assoc, List.nil_append] at h
      exact absurd h (append_ne_of_unit hds hu')
    | number hds' hz' =>
      simp only [List.append_assoc] at h
      obtain ⟨rfl, hrest⟩ := eq_of_append_runs h hds.digit hds'.digit (hdigit hz) (hdigit hz')
      exact ⟨rfl, (eq_of_append_runs hrest hz.blank hz'.blank hblank hblank').2⟩

/-- A phrase for the past is read in one way only, where no other word touches it. -/
theorem SpellsPast.unique (h : SpellsPast n u x) (h' : SpellsPast n' u' x')
    (heq : x ++ r = x' ++ r') (hr : isWordAt r.head? = false) (hr' : isWordAt r'.head? = false) :
    n = n' ∧ u = u' := by
  have hgap : ∀ {z v : List Char}, IsGap z → ∀ c ∈ (z ++ v).head?, isWord c = false :=
    fun hz c hc => isWord_of_isBlank (hz.isBlank_head? _ c hc)
  have hend : ∀ {r : List Char}, isWordAt r.head? = false → ∀ c ∈ r.head?, isWord c = false := by
    intro r hr c hc
    rwa [Option.mem_def.1 hc] at hr
  cases h with
  | mk hb hz hx hu =>
  cases h' with
  | mk hb' hz' hx' hu' =>
  have hback := (hb.isWord TimePhrase.fitsExactly_lookingBack.areWords).2
  have hback' := (hb'.isWord TimePhrase.fitsExactly_lookingBack.areWords).2
  simp only [List.append_assoc] at heq
  obtain ⟨-, hrest⟩ := eq_of_append_runs heq hback hback' (hgap hz) (hgap hz')
  obtain ⟨-, hrest⟩ := eq_of_append_runs hrest hz.blank hz'.blank (isBlank_head?_of_counts hx hu)
    (isBlank_head?_of_counts hx' hu')
  obtain ⟨rfl, hrest⟩ := hx.unique hx' hu hu' hrest
  exact ⟨rfl, (eq_of_append_runs hrest (isWord_of_unit hu).2 (isWord_of_unit hu').2 (hend hr)
    (hend hr')).1⟩

/-- The words of a phrase for the past are the one that looks back, the number and the unit. -/
theorem exists_words_of_spellsPast {s : List Char} (h : SpellsPast n u s) :
    ∃ b, IsOneOf TimePhrase.lookingBackWords b ∧ words s = b :: (n.toList ++ [u]) := by
  cases h with
  | @mk b z x hb hz hx hu =>
  obtain ⟨hne, hword⟩ := hb.isWord TimePhrase.fitsExactly_lookingBack.areWords
  obtain ⟨hune, huword⟩ := isWord_of_unit hu
  refine ⟨b, hb, ?_⟩
  rw [words_append_gap hz, words_eq_singleton hne hword]
  cases hx with
  | nothing =>
    rw [List.nil_append, words_eq_singleton hune huword]
    rfl
  | number hds hz' =>
    have hdsword : ∀ c ∈ _, isWord c = true := fun c hc => isWord_of_digit (hds.digit c hc)
    rw [List.append_assoc, words_append_gap hz', words_eq_singleton hds.ne_nil hdsword,
      words_eq_singleton hune huword]
    rfl

theorem not_isOneOf_of_areDigits {ds : List Char} (hds : AreDigits ds) :
    ¬ IsOneOf TimePhrase.namingWords ds := by
  intro h
  have hexactly : FitsExactly (anyOf (TimePhrase.namingWords.map lit)) TimePhrase.namingWords :=
    fitsExactly_anyOf_lit (by decide +kernel)
  have hapart : (anyOf (TimePhrase.namingWords.map lit)).apart .digit = true := by decide +kernel
  obtain ⟨d, v, rfl⟩ := List.exists_cons_of_ne_nil hds.ne_nil
  have hnone : isDigit d = false := hexactly.has_eq_false h hapart d List.mem_cons_self
  rw [hds.digit d List.mem_cons_self] at hnone
  cases hnone

/-- A phrase for the past has none of the words that name another time. -/
theorem not_isOneOf_of_spellsPast {s : List Char} (h : SpellsPast n u s) :
    ∀ y ∈ words s, ¬ IsOneOf TimePhrase.namingWords y := by
  obtain ⟨b, hb, hwords⟩ := exists_words_of_spellsPast h
  intro y hy
  rw [hwords, List.mem_cons, List.mem_append, List.mem_singleton] at hy
  cases h with
  | mk hb' hz hx hu =>
  rcases hy with rfl | hy | rfl
  · exact not_isOneOf (by decide +kernel) hb
  · cases hx with
    | nothing => cases hy
    | number hds _ =>
      obtain rfl := List.mem_singleton.1 hy
      exact not_isOneOf_of_areDigits hds
  · exact not_isOneOf (by decide +kernel) hu

end Texts

/-! ### Fits -/

namespace TimePhrase

variable {n : Option (List Char)} {u x r : List Char} {c d e : Cursor}

theorem exists_counts_of_fits (h : Fits countGap c d) :
    ∃ n x, Counts n x ∧ c.Reads x d ∧ d.remembered .count = n.or (c.remembered .count) := by
  cases h with
  | left _ h =>
    cases h with
    | seq h hgap =>
    cases h with
    | part _ h =>
    obtain ⟨ds, hne, hdigit, hds⟩ := h.exists_run
    obtain ⟨z, hz, hzr⟩ := hgap.gap
    refine ⟨some ds, ds ++ z, .number ⟨hne, hdigit⟩ hz, (hds.remember _ _).trans hzr, ?_⟩
    rw [hgap.remembered_eq (by decide), h.remembered_self hds]
    rfl
  | right _ h =>
    cases h with
    | empty => exact ⟨none, [], .nothing, ⟨rfl, rfl⟩, rfl⟩

theorem exists_fits_countGap (hx : Counts n x) (hrest : c.rest = x ++ r) :
    ∃ d, Fits countGap c d ∧ c.Reads x d ∧ d.rest = r := by
  cases hx with
  | nothing => exact ⟨c, .right _ (.empty c), ⟨rfl, rfl⟩, hrest⟩
  | @number ds z hds hz =>
    rw [List.append_assoc] at hrest
    obtain ⟨hdsr, hdsrest⟩ := Cursor.reads_advance hrest
    have hclass : ∀ e ∈ ds, CharClass.digit.has e = true := hds.digit
    have hcount := Fits.part .count (fits_many_one hds.ne_nil hclass hrest)
    have hzrest : ((c.advance ds).remember .count c).rest = z ++ r := hdsrest
    obtain ⟨hzr, hzend⟩ := Cursor.reads_advance hzrest
    exact ⟨_, .left _ (.seq hcount (fits_gap hz hzrest)), (hdsr.remember _ _).trans hzr, hzend⟩

theorem fitsExactly_anyUnit : FitsExactly anyUnit Period.allUnitWords :=
  Period.fitsExactly_allPatterns.part .unit

/-- What is read is a phrase for the past, and its number and its unit are remembered. -/
theorem spellsPast_of_fits_relative (h : Fits relative c e) :
    ∃ n u x, SpellsPast n u x ∧ c.Reads x e ∧ isWordAt e.rest.head? = false ∧
      e.remembered .count = n.or (c.remembered .count) ∧ e.remembered .unit = some u := by
  obtain ⟨d, d', hfront, hmiddle, hend⟩ := exists_of_fits_relative h
  cases hfront with
  | seq hedge hback =>
  cases hedge with
  | edge _ =>
  cases hmiddle with
  | seq hgap hcount =>
  cases hend with
  | seq hunit hedge =>
  cases hedge with
  | edge he =>
  obtain ⟨w, hw, b, hb, hbr⟩ := fitsExactly_lookingBack.only _ _ hback
  obtain ⟨z, hz, hzr⟩ := hgap.gap
  obtain ⟨n, x, hx, hxr, hn⟩ := exists_counts_of_fits hcount
  obtain ⟨hu, hur⟩ := fitsExactly_anyUnit.reads_of_edge hunit he
  obtain ⟨hune, huword⟩ := isWord_of_unit hu
  refine ⟨n, _, _, .mk ⟨w, hw, hb⟩ hz hx hu, hbr.trans (hzr.trans (hxr.trans hur)),
    isWordAt_head?_of_edge hune huword hur he, ?_, ?_⟩
  · cases hunit with
    | part _ hunit =>
    rw [Cursor.remembered_remember_of_ne (by decide), hunit.remembered_eq (by decide), hn,
      hgap.remembered_eq (by decide), hback.remembered_eq (by decide)]
  · cases hunit with
    | part _ hunit => exact hunit.remembered_self ⟨hur.rest, hur.before⟩ .unit

/-- Every phrase for the past is read where no other word touches it. -/
theorem exists_fits_relative (h : SpellsPast n u x) (hrest : c.rest = x ++ r)
    (hbefore : isWordAt c.before = false) (hr : isWordAt r.head? = false) :
    ∃ e, Fits relative c e := by
  cases h with
  | @mk b z x hb hz hx hu =>
  simp only [List.append_assoc] at hrest
  obtain ⟨hbne, hbword⟩ := hb.isWord fitsExactly_lookingBack.areWords
  obtain ⟨d₁, hd₁, hr₁, hrest₁⟩ := fitsExactly_lookingBack.every c _ _ hb hrest
  have hrest₂ := (Cursor.reads_advance hrest₁).2
  obtain ⟨d₃, hd₃, hr₃, hrest₃⟩ := exists_fits_countGap hx hrest₂
  have hunit : IsOneOf Period.allUnitWords (d₃.rest.takeWhile isWord) := by
    rwa [hrest₃, takeWhile_isWord_append (isWord_of_unit hu).2 hr]
  obtain ⟨d₄, hd₄, hedge⟩ := fitsExactly_anyUnit.exists_fits_edge hunit
  have hc : c.atEdge = true := by
    rw [Cursor.atEdge, isEdge, hbefore, hrest, List.head?_append_of_ne_nil _ hbne,
      List.head?_eq_some_head hbne]
    exact (Bool.false_bne _).trans (hbword _ (List.head_mem hbne))
  rw [relative_eq]
  exact ⟨d₄, .seq (.seq (.seq (.seq (.seq (.edge hc) hd₁) (fits_gap hz hrest₁)) hd₃) hd₄)
    (.edge hedge)⟩

/-- The search in a phrase for the past finds its number and its unit. -/
theorem exists_search_of_spellsPast {s : List Char} (h : SpellsPast n u s) :
    ∃ m, relative.search s = some m ∧ (m.piece? .count).map Piece.text = n ∧
      (m.piece? .unit).map Piece.text = some u := by
  have hrest : (Cursor.inText s 0).rest = s ++ [] := (List.append_nil s).symm
  obtain ⟨m, hm⟩ := Option.isSome_iff_exists.1
    ((isSome_fitAt_iff (by decide)).2 (exists_fits_relative h hrest rfl rfl))
  obtain ⟨e, he, rfl⟩ := fitAt_eq_some_iff.1 hm
  obtain ⟨n', u', x, hspells, hr, hend, hcount, hunit⟩ :=
    spellsPast_of_fits_relative (fits_of_mem_ends (List.mem_of_head? he))
  obtain ⟨rfl, rfl⟩ := h.unique hspells (hrest.symm.trans hr.rest) rfl hend
  refine ⟨_, search_eq_some_iff.2 ⟨0, Nat.zero_le _, hm, fun j hj => absurd hj (by omega)⟩, ?_, ?_⟩
  · exact hcount.trans (Option.or_none)
  · exact hunit

end TimePhrase

/-! ### Timeframes -/

/-- What a phrase for the past says. -/
theorem TimeReference.ofText?_of_spellsPast {n : Option (List Char)} {u s : List Char} {p : Period}
    (h : SpellsPast n u s) (hu : IsOneOf p.unitWords u) :
    ofText? s = (n.elim (.ok 1) readNumeral).map fun count => some (past p count) := by
  have hnaming := mt TimePhrase.exists_namingWord fun ⟨y, hy, hone⟩ =>
    not_isOneOf_of_spellsPast h y hy hone
  push Not at hnaming
  obtain ⟨htoday, hyesterday, hmonth⟩ := hnaming
  obtain ⟨m, hm, hcount, hunit⟩ := TimePhrase.exists_search_of_spellsPast h
  have hperiod : relativePeriod? m = some p := by
    rw [relativePeriod?_eq, hunit]
    exact Period.ofUnit?_eq_some_iff.2 hu
  unfold ofText?
  rw [if_neg htoday, if_neg hyesterday, if_neg hmonth, hm]
  simp only [ofMatch?, relativeCount_eq, hcount, hperiod, Option.map_some]

namespace Timeframe

/-- The timeframe is the last `count` units of a period up to now. -/
def IsLast (p : Period) (count : Nat) (now : Moment) (t : Timeframe) : Prop :=
  ∃ w, t = .relative w ∧ w.period = p ∧ w.count = count ∧ w.LooksBack now

theorem ofText?_of_spellsPast {now : Moment} (hyear : 12 ≤ now.wall.date.year)
    {n : Option (List Char)} {u s : List Char} {p : Period} {count : Nat} (h : SpellsPast n u s)
    (hu : IsOneOf p.unitWords u) (hcount : n.elim (.ok 1) readNumeral = .ok count) :
    if 1 ≤ count ∧ count ≤ p.maxCount then
      ∃ t, ofText? s now = .ok (some t) ∧ t.IsLast p count now
    else ofText? s now = .ok none := by
  have hread : ofText? s now = .ok ((RelativeWindow.upTo? now p count).map .relative) := by
    rw [ofText?_eq, TimeReference.ofText?_of_spellsPast h hu, hcount]
    rfl
  rw [hread]
  split_ifs with hlimit
  · obtain ⟨w, hw⟩ := Option.isSome_iff_exists.1 ((RelativeWindow.isSome_upTo?_iff hyear).2 hlimit)
    refine ⟨.relative w, ?_, w, rfl, RelativeWindow.looksBack_of_upTo? hw⟩
    rw [hw]
    rfl
  · have hnone := mt (RelativeWindow.isSome_upTo?_iff hyear).1 hlimit
    rw [Option.not_isSome_iff_eq_none.1 hnone]
    rfl

/-- A word that looks back and a unit mean the last unit.  With a number between them, whatever
digits it is written in, they mean the last so many units, unless there are none or too many. -/
theorem ofText?_reads_past {now : Moment} (hyear : 12 ≤ now.wall.date.year) {p : Period}
    {b u z : List Char} (hb : TimePhrase.lookingBack.fitsAll b = true)
    (hu : (p.patterns.any fun q => q.fitsAll u) = true) (hz : IsGap z) :
    (∃ t, ofText? (b ++ (z ++ u)) now = .ok (some t) ∧ t.IsLast p 1 now) ∧
    ∀ ds z' : List Char, AreDigits ds → ds.length ≤ maxNumeralDigits → IsGap z' →
      if 1 ≤ numeral ds ∧ numeral ds ≤ p.maxCount then
        ∃ t, ofText? (b ++ (z ++ (ds ++ (z' ++ u)))) now = .ok (some t) ∧
          t.IsLast p (numeral ds) now
      else ofText? (b ++ (z ++ (ds ++ (z' ++ u)))) now = .ok none := by
  rw [TimePhrase.fitsExactly_lookingBack.fitsAll_iff] at hb
  rw [Period.any_fitsAll_iff] at hu
  have hunit := Period.isOneOf_allUnitWords_iff.2 ⟨p, hu⟩
  constructor
  · have hspells : SpellsPast none u (b ++ (z ++ u)) := .mk hb hz .nothing hunit
    have hone := ofText?_of_spellsPast hyear hspells hu rfl
    have hlimit : 1 ≤ 1 ∧ 1 ≤ p.maxCount := by cases p <;> decide
    rwa [if_pos hlimit] at hone
  · intro ds z' hds hlength hz'
    have hspells := SpellsPast.mk hb hz (.number hds hz') hunit
    rw [List.append_assoc] at hspells
    exact ofText?_of_spellsPast hyear hspells hu (readNumeral_eq_ok hlength)

/-- On the first day of the year 12, ten years of weeks are accepted, and one week more is not.  The
word is written with a long s, the unit with the Kelvin sign, and the number in Arabic digits with a
leading zero. -/
theorem ofText?_reads_past_arabic :
    let january : Date :=
      ⟨12, 1, 1, by decide, by decide, by decide, by decide, by decide, by decide⟩
    let now : Moment := ⟨.startOfDay january, .floating, false⟩
    (∃ t, ofText? "la\u017Ft \u0660\u0665\u0662\u0660\u2003WEE\u212A\u017F".toList now =
        .ok (some t) ∧ t.IsLast .week 520 now) ∧
      ofText? "la\u017Ft \u0660\u0665\u0662\u0661\u2003WEE\u212A\u017F".toList now =
        .ok none := by
  intro january now
  have hyear : 12 ≤ now.wall.date.year := by decide
  have hread := ofText?_reads_past hyear (p := .week) (b := "la\u017Ft".toList)
    (u := "WEE\u212A\u017F".toList) (z := [' ']) (by decide) (by decide) ⟨by decide, by decide⟩
  have hgap : IsGap ['\u2003'] := ⟨by decide, by decide⟩
  have haccepted := hread.2 "\u0660\u0665\u0662\u0660".toList _ ⟨by decide, by decide⟩ (by decide)
    hgap
  have hrefused := hread.2 "\u0660\u0665\u0662\u0661".toList _ ⟨by decide, by decide⟩ (by decide)
    hgap
  exact ⟨haccepted, hrefused⟩

end Timeframe

end CrmQuery
