import CrmQuery.Proofs.Question.Mentions

/-!
# Budgets are read back

A text in which there is one number mentions no other number, so a budget that it mentions has this
number, and the bound that the words before it tell (`IsOnlyNumber.ofText?_eq`).  Therefore a number
is read back from every way to write it, before a currency and after the word budget, with words
for a bound or without (`reads_writes`).
-/

namespace CrmQuery

open Text Pattern AmountPhrase

/-- What may lead to a number of a given bound: words that tell it, or nothing. -/
inductive Leads : Option Bound → List Char → Prop
  | nothing : Leads none []
  | words {β : Bound} {q z : List Char} (hq : β.Says q) (hz : IsGap z) : Leads (some β) (q ++ z)

/-- The numeral `r` is the only number of the text `a ++ (r ++ z)`. -/
structure IsOnlyNumber (a r z : List Char) : Prop where
  numeral : IsNumeral r
  before : ∀ c ∈ a, isDigit c = false
  after : ∀ c ∈ z, isDigit c = false

/-! ### Before a number -/

namespace Leads

variable {b : Option Bound} {l : List Char} (h : Leads b l)
include h

theorem isDigit_eq_false : ∀ c ∈ l, isDigit c = false := by
  cases h with
  | nothing => simp
  | @words β q z hq hz =>
    have hdigit : ∀ c ∈ q, CharClass.digit.has c = false :=
      hq.isOneOfPhrases.has_eq_false (by decide)
    intro c hc
    rcases List.mem_append.1 hc with hc | hc
    · exact hdigit c hc
    · exact isDigit_of_isBlank (hz.blank c hc)

/-- Words tell their bound where they are not the end of a longer word; where there are none, the
text before them must not end with some. -/
theorem boundBefore {s a : List Char} {i : Nat} (hs : s.take i = a ++ l)
    (ha : isWordAt a.getLast? = false) (hnone : s.take i = a → ∀ q, ¬ StandsBefore s i q) :
    BoundBefore s i b := by
  cases h with
  | nothing =>
    rw [List.append_nil] at hs
    exact boundBefore_none (hnone hs)
  | @words β q z hq hz =>
    have hstands : StandsBefore s i q := ⟨hq.isOneOfPhrases, a, z, hs, ha, hz⟩
    exact hstands.boundBefore hq

theorem exists_fits_qualifierGap {c : Cursor} {rest : List Char}
    (hbefore : isWordAt c.before = false) (hrest : c.rest = l ++ rest) :
    ∃ d, Fits qualifierGap c d ∧ d.rest = rest := by
  cases h with
  | nothing => exact ⟨c, .right _ (.empty c), hrest⟩
  | @words β q z hq hz =>
    rw [List.append_assoc] at hrest
    obtain ⟨d, hd, -, hdrest⟩ := fits_qualifierGap hq.isOneOfPhrases hz hbefore hrest
    exact ⟨d, hd, hdrest⟩

end Leads

/-! ### Mentions -/

namespace AmountPhrase

variable {c : Cursor} {r w : List Char}

/-- A number before the word euro is a budget. -/
theorem exists_fits_of_euro (hr : IsNumeral r) (hw : IsGap w)
    (hrest : c.rest = r ++ (w ++ "euro".toList)) : ∃ d, Fits withCurrency c d := by
  have hamount : Fits (part .amount amount) c ((c.advance r).remember .amount c) :=
    .part .amount (fits_amount hr hrest)
  have hwrest : ((c.advance r).remember .amount c).rest = w ++ "euro".toList :=
    (Cursor.reads_advance hrest).2
  have hblanks := fits_blanks hw.blank hwrest
  have heuro := (Cursor.reads_advance hwrest).2
  generalize ((c.advance r).remember .amount c).advance w = e at hblanks heuro
  rw [← List.append_nil "euro".toList] at heuro
  have hedge : (e.advance "euro".toList).atEdge = true := by
    rw [Cursor.atEdge, isEdge, (Cursor.reads_advance heuro).2]
    rfl
  have hword : Fits (lit "euro" ++ opt (lit "s") ++ edge) e (e.advance "euro".toList) :=
    .seq (.seq (fits_lit rfl heuro) (.right _ (.empty _))) (.edge hedge)
  have hcurrency : Fits currency e (e.advance "euro".toList) :=
    hword.of_mem_anyOf (List.mem_cons_of_mem _ List.mem_cons_self)
  exact ⟨_, .seq (.seq (.seq (.right _ (.empty c)) hamount) hblanks) hcurrency⟩

theorem fits_keywordLead {rest : List Char} (hw : IsGap w) (hbefore : isWordAt c.before = false)
    (hrest : c.rest = "budget".toList ++ (w ++ rest)) :
    Fits keywordLead c ((c.advance "budget".toList).advance w) := by
  have hedge : c.atEdge = true := by
    rw [Cursor.atEdge, isEdge, hbefore, hrest]
    rfl
  have hwrest := (Cursor.reads_advance hrest).2
  have hedge' : (c.advance "budget".toList).atEdge = true := by
    rw [Cursor.atEdge, isEdge, hwrest, List.head?_append_of_ne_nil _ hw.ne_nil, hw.isWordAt_head?]
    rfl
  have hkeyword : Fits (whole (lit "budget" ++ opt (lit "s"))) c (c.advance "budget".toList) :=
    .seq (.seq (.edge hedge) (.seq (fits_lit rfl hrest) (.right _ (.empty _)))) (.edge hedge')
  exact .seq (.seq (.seq hkeyword (fits_blanks hw.blank hwrest)) (.right _ (.empty _)))
    (.right _ (.empty _))

/-- A number after the word budget is a budget, also with words for a bound. -/
theorem exists_fits_of_budget {b : Option Bound} {l z : List Char} (hl : Leads b l)
    (hr : IsNumeral r) (hw : IsGap w) (hbefore : isWordAt c.before = false)
    (hrest : c.rest = "budget".toList ++ (w ++ (l ++ (r ++ z)))) : ∃ d, Fits withKeyword c d := by
  have hlead := fits_keywordLead hw hbefore hrest
  obtain ⟨hread, hlrest⟩ := Cursor.reads_advance (Cursor.reads_advance hrest).2
  have hgap : isWordAt ((c.advance "budget".toList).advance w).before = false := by
    rw [hread.before, List.getLast?_eq_some_getLast hw.ne_nil, Option.some_or,
      ← List.getLast?_eq_some_getLast hw.ne_nil]
    exact hw.isWordAt_getLast?
  obtain ⟨d, hd, hdrest⟩ := hl.exists_fits_qualifierGap hgap hlrest
  exact ⟨_, .seq hlead (.seq hd (.part .amount (fits_amount hr hdrest)))⟩

end AmountPhrase

namespace Budget

variable {s : List Char} {i : Nat} {d : Cursor}

theorem exists_mention_of_fits {p : Pattern} (hp : p ∈ [withCurrency, withKeyword])
    (hi : i ≤ s.length) (h : Fits p (.inText s i) d) : ∃ m, m ∈ mentions s := by
  have hregular : ∀ p ∈ [withCurrency, withKeyword], p.regular = true := by decide
  obtain ⟨m, hm⟩ := Option.isSome_iff_exists.1 ((occursIn_iff (hregular p hp)).2 ⟨i, hi, d, h⟩)
  exact ⟨m, List.mem_filterMap.2 ⟨p, hp, hm⟩⟩

end Budget

/-! ### The only number -/

namespace IsOnlyNumber

open Budget

variable {a r z : List Char} (h : IsOnlyNumber a r z) {m : Match}
include h

/-- All digits of the text belong to the number. -/
theorem bounds_of_isDigit {i : Nat} {d : Char} (hget : (a ++ (r ++ z))[i]? = some d)
    (hd : isDigit d = true) : a.length ≤ i ∧ i < a.length + r.length := by
  constructor
  · by_contra hlt
    rw [List.getElem?_append_left (Nat.lt_of_not_le hlt)] at hget
    rw [h.before d (List.mem_of_getElem? hget)] at hd
    cases hd
  · by_contra hle
    rw [List.getElem?_append_right (by omega), List.getElem?_append_right (by omega)] at hget
    rw [h.after d (List.mem_of_getElem? hget)] at hd
    cases hd

theorem number_eq (hm : NamesNumber (a ++ (r ++ z)) m) :
    (number m).start = a.length ∧ (number m).text = r := by
  have htext := hm.isIn.length_text
  -- The number begins and ends with a digit, so it lies within the only number.
  have hfirst : a.length ≤ (number m).start := by
    obtain ⟨d, y, hd, hdigit⟩ := hm.numeral.exists_first_digit
    have hget := hm.isIn.getElem?_text (i := 0) (by rw [hd]; simp)
    rw [hd] at hget
    exact (h.bounds_of_isDigit hget hdigit).1
  have hlast : (number m).stop ≤ a.length + r.length := by
    obtain ⟨y, d, hd, hdigit⟩ := hm.numeral.exists_last_digit
    have hget := hm.isIn.getElem?_text (i := y.length) (by rw [hd]; simp)
    rw [hd, List.getElem?_concat_length] at hget
    have hlt := (h.bounds_of_isDigit hget hdigit).2
    rw [hd, List.length_append, List.length_singleton] at htext
    omega
  obtain ⟨hstart, hend⟩ := hm.maximal a r z rfl h.numeral hfirst hlast
  refine ⟨hstart.symm, ?_⟩
  rw [Piece.text, hm.isIn.rest, ← hstart, ← hend, List.drop_left, Nat.add_sub_cancel_left,
    List.take_left]

/-- A budget that is mentioned has the only number of the text, and the bound that the words before
this number tell. -/
theorem ofText?_eq (hm : m ∈ mentions (a ++ (r ++ z))) {n : Nat} (hread : readAmount r = .ok n)
    {b : Option Bound} (hb : BoundBefore (a ++ (r ++ z)) a.length b) :
    ofText? (a ++ (r ++ z)) = .ok (some ⟨n, b⟩) := by
  have hnames : ∀ {m}, m ∈ mentions (a ++ (r ++ z)) → NamesNumber (a ++ (r ++ z)) m :=
    namesNumber_of_mem_mentions
  obtain ⟨hstart, htext⟩ := h.number_eq (hnames hm)
  rw [ofText?_eq_ofMentions, ofMentions_eq_ofMention (fun m' => hnames) hm, ofMention_eq_ok_iff]
  · refine ⟨htext ▸ hread, ?_⟩
    exact hb.unique (hstart ▸ (hnames hm).boundBefore)
  · intro m' hm'
    rw [hstart, (h.number_eq (hnames hm')).1]

end IsOnlyNumber

/-! ### Reading back -/

namespace Budget

/-- A number is read back from the ways to write it. -/
theorem readAmount_of_writes {n : Nat} {r : List Char} (hr : Writes n r)
    (hn : (Nat.toDigits 10 n).length ≤ maxNumeralDigits) : readAmount r = .ok n := by
  have hfilter : (r.filter fun c => c != '.' && c != ',') = Nat.toDigits 10 n := by
    rw [← hr.2]
    apply List.filter_congr
    intro c _
    simp [isSeparator, bne]
  unfold readAmount
  rw [hfilter, readNumeral_toDigits, if_pos]
  exact (Nat.length_toDigits_le_iff (by decide) (by decide)).1 hn

variable {b : Option Bound} {l r w : List Char} {n : Nat}

theorem ofText?_before_euro (hl : Leads b l) (hr : IsNumeral r) (hread : readAmount r = .ok n)
    (hw : IsGap w) : ofText? (l ++ (r ++ (w ++ "euro".toList))) = .ok (some ⟨n, b⟩) := by
  have honly : IsOnlyNumber l r (w ++ "euro".toList) := by
    refine ⟨hr, hl.isDigit_eq_false, List.forall_mem_append.2 ⟨?_, by decide⟩⟩
    exact fun c hc => isDigit_of_isBlank (hw.blank c hc)
  have hlength : l.length ≤ (l ++ (r ++ (w ++ "euro".toList))).length := by simp
  obtain ⟨d, hd⟩ := exists_fits_of_euro (c := .inText _ l.length) hr hw List.drop_left
  obtain ⟨m, hm⟩ := exists_mention_of_fits List.mem_cons_self hlength hd
  apply honly.ofText?_eq hm hread
  exact hl.boundBefore (a := []) List.take_left rfl fun htake q =>
    not_standsBefore_of_take_eq_nil htake

theorem ofText?_after_budget {z : List Char} (hl : Leads b l) (hr : IsNumeral r)
    (hread : readAmount r = .ok n) (hw : IsGap w) (hz : ∀ c ∈ z, isDigit c = false) :
    ofText? ("budget".toList ++ (w ++ (l ++ (r ++ z)))) = .ok (some ⟨n, b⟩) := by
  have hs : "budget".toList ++ (w ++ (l ++ (r ++ z))) =
      (("budget".toList ++ w) ++ l) ++ (r ++ z) := by simp only [List.append_assoc]
  have honly : IsOnlyNumber (("budget".toList ++ w) ++ l) r z := by
    refine ⟨hr, ?_, hz⟩
    rw [List.forall_mem_append, List.forall_mem_append]
    exact ⟨⟨by decide, fun c hc => isDigit_of_isBlank (hw.blank c hc)⟩, hl.isDigit_eq_false⟩
  obtain ⟨d, hd⟩ := exists_fits_of_budget
    (c := .inText ("budget".toList ++ (w ++ (l ++ (r ++ z)))) 0) hl hr hw rfl rfl
  obtain ⟨m, hm⟩ := exists_mention_of_fits (List.mem_cons_of_mem _ List.mem_cons_self)
    (Nat.zero_le _) hd
  rw [hs] at hm ⊢
  apply honly.ofText?_eq hm hread
  apply hl.boundBefore List.take_left
  · rw [List.getLast?_append_of_ne_nil _ hw.ne_nil]
    exact hw.isWordAt_getLast?
  · intro htake q
    exact not_standsBefore_of_leadEnds htake hw.blank List.mem_cons_self List.suffix_rfl

/-- A number is read back from every way to write it: before the word euro and after the word
budget, with the bound that the words before it tell, and without one if there are none. -/
theorem reads_writes {w' : List Char} (hr : Writes n r)
    (hn : (Nat.toDigits 10 n).length ≤ maxNumeralDigits) (hw : IsGap w) (hw' : IsGap w')
    (hl : Leads b l) :
    ofText? (l ++ (r ++ (w ++ "euro".toList))) = .ok (some ⟨n, b⟩) ∧
      ofText? ("budget".toList ++ (w ++ (l ++ r))) = .ok (some ⟨n, b⟩) ∧
      ofText? ("budget".toList ++ (w ++ (l ++ (r ++ (w' ++ "euro".toList))))) =
        .ok (some ⟨n, b⟩) := by
  have hread := readAmount_of_writes hr hn
  refine ⟨ofText?_before_euro hl hr.1 hread hw, ?_, ?_⟩
  · have hend := ofText?_after_budget (z := []) hl hr.1 hread hw (by simp)
    rwa [List.append_nil] at hend
  · apply ofText?_after_budget hl hr.1 hread hw
    rw [List.forall_mem_append]
    exact ⟨fun c hc => isDigit_of_isBlank (hw'.blank c hc), by decide⟩

theorem reads_writes_million :
    ofText? (Nat.toDigits 10 1234567 ++ " euro".toList) = .ok (some ⟨1234567, none⟩) ∧
      ofText? "At  least 1.234,567 euro".toList = .ok (some ⟨1234567, some .atLeast⟩) ∧
      ofText? "budget At  least 1.234,567".toList = .ok (some ⟨1234567, some .atLeast⟩) ∧
      ofText? "budget At  least 1.234,567\teuro".toList =
        .ok (some ⟨1234567, some .atLeast⟩) := by
  have hgroups : Writes 1234567 "1.234,567".toList := by
    have hmap : "1.234,567".toList = "1".toList ++
        ([('.', "234".toList), (',', "567".toList)].map fun g => g.1 :: g.2).flatten := by decide
    rw [hmap]
    exact writes_of_groups (by decide) (by decide) (by decide) (by decide) (by decide)
  have hblank : IsGap " ".toList := ⟨by decide, by decide⟩
  have htab : IsGap "\t".toList := ⟨by decide, by decide⟩
  have hsays : Bound.atLeast.Says "At  least".toList :=
    ⟨["at", "least"], by decide, "At".toList, "  ".toList, "least".toList, by decide, by decide,
      ⟨by decide, by decide⟩, rfl⟩
  have hplain := reads_writes (writes_toDigits 1234567) (by decide) hblank htab .nothing
  exact ⟨hplain.1, reads_writes hgroups (by decide) hblank htab (.words hsays hblank)⟩

end Budget

end CrmQuery
