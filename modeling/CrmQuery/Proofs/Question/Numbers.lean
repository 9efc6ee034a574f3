import CrmQuery.Proofs.Question.Budget
import CrmQuery.Proofs.Vocabulary.Bounds
import CrmQuery.Proofs.Vocabulary.WrittenNumbers

/-!
# The number that a budget is read from

Both phrases for a budget read a number in the same way, whatever leads to it or follows it
(`NamesNumber`): it is no part of a longer numeral, and the words for a bound that are read with it
are the ones that stand right before it.
-/

namespace CrmQuery

open Text Pattern AmountPhrase
open Budget (number words?)

/-- The piece lies in the text. -/
structure Piece.IsIn (s : List Char) (p : Piece) : Prop where
  start_le : p.start ≤ p.stop
  stop_le : p.stop ≤ s.length
  rest : p.rest = s.drop p.start

/-- The text is the piece, with what stands before it and after it. -/
theorem Piece.IsIn.eq_append {s : List Char} {p : Piece} (h : p.IsIn s) :
    s = s.take p.start ++ (p.text ++ s.drop p.stop) := by
  have hstop : s.drop p.stop = (s.drop p.start).drop (p.stop - p.start) := by
    rw [List.drop_drop, Nat.add_sub_cancel' h.start_le]
  rw [Piece.text, h.rest, hstop, List.take_append_drop, List.take_append_drop]

theorem Piece.IsIn.length_text {s : List Char} {p : Piece} (h : p.IsIn s) :
    p.start + p.text.length = p.stop := by
  have hle := h.start_le
  have hstop := h.stop_le
  rw [Piece.text, h.rest, List.length_take, List.length_drop]
  omega

theorem Piece.IsIn.getElem?_text {s : List Char} {p : Piece} (h : p.IsIn s) {i : Nat}
    (hi : i < p.text.length) : s[p.start + i]? = p.text[i]? := by
  have hlt : i < p.stop - p.start := by
    have hlength := h.length_text
    omega
  rw [Piece.text, h.rest, List.getElem?_take_of_lt hlt, List.getElem?_drop]

/-- A match names a number of the text: the numeral that it reads is no part of a longer one, and
the words for a bound that it reads are those that stand right before the number. -/
structure NamesNumber (s : List Char) (m : Match) : Prop where
  isIn : (number m).IsIn s
  numeral : IsNumeral (number m).text
  maximal : ∀ a x b, s = a ++ (x ++ b) → IsNumeral x → a.length ≤ (number m).start →
    (number m).stop ≤ a.length + x.length →
      a.length = (number m).start ∧ a.length + x.length = (number m).stop
  qualifier : ∀ q, (m.piece? .qualifier).map Piece.text = some q ↔
    StandsBefore s (number m).start q

/-! ### Reading a number -/

/-- From the place `c` on, a match reads words for a bound, if there are some, and from `d` to `d'`
a number. -/
structure ReadsNumber (s : List Char) (m : Match) (c d d' : Cursor) : Prop where
  cursor : c.In s
  pieces_nil : c.pieces = []
  bound : Fits qualifierGap c d
  amount : Fits amount d d'
  number : number m = ⟨d.pos, d'.pos, d.rest⟩
  pieces : m.pieces = (.amount, Budget.number m) :: d.pieces

namespace ReadsNumber

variable {s : List Char} {m : Match} {c d d' : Cursor} (h : ReadsNumber s m c d d')
include h

theorem cursor_number : d.In s := h.bound.inText h.cursor

theorem isIn : (Budget.number m).IsIn s := by
  rw [h.number]
  exact ⟨h.amount.pos_le, (h.amount.inText h.cursor_number).pos_le, h.cursor_number.rest⟩

theorem numeral : IsNumeral (Budget.number m).text := by
  obtain ⟨x, hx, hr⟩ := exists_of_fits_amount h.amount
  have hpos := h.amount.pos_eq hr
  have htext : (Budget.number m).text = x := by
    rw [h.number, Piece.text, hr.rest]
    simp [hpos]
  rwa [htext]

/-- The words that are read stand before the number. -/
theorem qualifier_cases : d = c ∧ (m.piece? .qualifier).map Piece.text = none ∨
    ∃ q, (m.piece? .qualifier).map Piece.text = some q ∧ StandsBefore s d.pos q := by
  have hpiece : m.piece? .qualifier = d.pieces.lookup .qualifier := by
    rw [Match.piece?, h.pieces]
    rfl
  rcases exists_of_fits_qualifierGap h.bound with rfl | ⟨q, z, hq, hz, hbefore, hr, hpieces⟩
  · left
    rw [hpiece, h.pieces_nil]
    exact ⟨rfl, rfl⟩
  · right
    refine ⟨q, ?_, hq, s.take c.pos, z, h.bound.take_eq h.cursor hr, ?_, hz⟩
    · have htext : Piece.text ⟨c.pos, c.pos + q.length, c.rest⟩ = q := by
        rw [Piece.text, hr.rest]
        simp
      rw [hpiece, hpieces]
      simp [htext]
    · rwa [← h.cursor.before]

/-- What has to be shown of a phrase: it reads no part of a longer numeral, and it misses no words
for a bound. -/
theorem namesNumber
    (hmaximal : ∀ e f, e.In s → Fits AmountPhrase.amount e f → e.pos ≤ d.pos → d'.pos ≤ f.pos →
      e.pos = d.pos ∧ f.pos = d'.pos)
    (hmissed : d = c → ∀ q, ¬ StandsBefore s d.pos q) : NamesNumber s m := by
  refine ⟨h.isIn, h.numeral, fun a x b hs hx hstart hstop => ?_, fun q => ?_⟩
  · rw [h.number] at hstart hstop ⊢
    have hcursor : (Cursor.inText s a.length).In s :=
      Cursor.inText_in (by rw [hs, List.length_append]; omega)
    have hrest : (Cursor.inText s a.length).rest = x ++ b := by
      show s.drop a.length = x ++ b
      rw [hs, List.drop_left]
    exact hmaximal _ _ hcursor (fits_amount hx hrest) hstart hstop
  · rw [h.number]
    rcases h.qualifier_cases with ⟨hd, hnone⟩ | ⟨q', hq', hstands⟩
    · rw [hnone]
      constructor
      · intro he
        cases he
      · exact fun hq => absurd hq (hmissed hd q)
    · rw [hq', Option.some.injEq]
      constructor
      · rintro rfl
        exact hstands
      · exact fun hq => hstands.unique hq

end ReadsNumber

/-! ### Numbers before a currency -/

section Phrases

variable {s : List Char} {m : Match}

/-- Words for a bound that stand before a place are read from where they begin. -/
theorem StandsBefore.exists_fits_qualifierGap {q : List Char} {i : Nat} (h : StandsBefore s i q)
    (hi : i ≤ s.length) :
    ∃ j < i, ∃ e, Fits qualifierGap (.inText s j) e ∧ e.In s ∧ e.pos = i := by
  obtain ⟨hq, a, z, ha, hbefore, hz⟩ := h
  have hlength := congrArg List.length ha
  rw [List.length_take, List.length_append, List.length_append] at hlength
  have hqpos : 0 < q.length := List.length_pos_iff.2 (ne_nil_of_isOneOfPhrases hq)
  have hs : s = a ++ (q ++ (z ++ s.drop i)) := by
    conv_lhs => rw [← List.take_append_drop i s, ha]
    simp only [List.append_assoc]
  have hain : (Cursor.inText s a.length).In s := Cursor.inText_in (by omega)
  have harest : (Cursor.inText s a.length).rest = q ++ (z ++ s.drop i) := by
    show s.drop a.length = _
    conv_lhs => rw [hs, List.drop_left]
  have habefore : (Cursor.inText s a.length).before = a.getLast? := by
    show (s.take a.length).getLast? = _
    conv_lhs => rw [hs, List.take_left]
  obtain ⟨e, he, -, herest⟩ := fits_qualifierGap hq hz (habefore ▸ hbefore) harest
  have hein := he.inText hain
  refine ⟨a.length, by omega, e, he, hein, ?_⟩
  have hlen := hein.length_rest
  rw [herest, List.length_drop] at hlen
  omega

/-- What is found begins at the first place where the pattern fits. -/
theorem start_le_of_fits {p : Pattern} (hp : p.regular = true) (h : p.search s = some m) {i : Nat}
    {d : Cursor} (hd : Fits p (.inText s i) d) : m.start ≤ i := by
  obtain ⟨j, -, hfit, hbefore⟩ := search_eq_some_iff.1 h
  obtain ⟨e, -, rfl⟩ := fitAt_eq_some_iff.1 hfit
  by_contra hlt
  exact (ends_eq_nil_iff hp).1 (hbefore i (Nat.lt_of_not_le hlt)) d hd

/-- A number before a currency, with a bound before it or without, is found from where it begins. -/
theorem exists_fits_withCurrency {c d d' e e' : Cursor} (hc : c.In s)
    (hbound : Fits qualifierGap c d) (hamount : Fits amount d d') (he : e.In s)
    (htail : Fits (blanks ++ currency) e e') (hpos : d'.pos = e.pos) :
    ∃ f, Fits withCurrency c f := by
  have hd' : (d'.remember .amount d).In s :=
    (Fits.part .amount hamount).inText (hbound.inText hc)
  obtain ⟨f, hf, -⟩ := htail.exists_of_pos_eq he hd' hpos
  cases hf with
  | seq hblanks hcurrency =>
    exact ⟨f, .seq (.seq (.seq hbound (.part .amount hamount)) hblanks) hcurrency⟩

theorem namesNumber_of_withCurrency (h : withCurrency.search s = some m) : NamesNumber s m := by
  obtain ⟨hstart, d, d', g, hbound, hamount, htail, hnumber, hpieces⟩ :=
    exists_of_search_withCurrency h
  have hin : (Cursor.inText s m.start).In s := Cursor.inText_in hstart
  have hd := hbound.inText hin
  have hd' : (d'.remember .amount d).In s := (Fits.part .amount hamount).inText hd
  have hreads : ReadsNumber s m (.inText s m.start) d d' :=
    ⟨hin, rfl, hbound, hamount, hnumber, hpieces⟩
  have hfirst : ∀ {i f}, Fits withCurrency (.inText s i) f → m.start ≤ i :=
    start_le_of_fits (by decide) h
  have hlt : d.pos < d'.pos := hamount.pos_lt (by decide)
  apply hreads.namesNumber
  · intro e f he hf hle hle'
    have hstop : f.pos = d'.pos := by
      have hoverlap := htail.not_overlap hd' hf he (by decide)
      have htailpos := htail.pos_lt (by decide)
      simp only [Cursor.remember] at hoverlap htailpos
      omega
    refine ⟨?_, hstop⟩
    -- A longer numeral would have been found first, and it has no blanks.
    obtain ⟨f', hf', hf'in, hf'pos⟩ :=
      hf.exists_of_pos_eq he (Cursor.inText_in he.pos_le) rfl
    obtain ⟨k, hk⟩ := exists_fits_withCurrency (Cursor.inText_in he.pos_le) (.right _ (.empty _))
      hf' hd' htail (hf'pos.trans hstop)
    have hm := hfirst hk
    have hoverlap := hbound.not_overlap hin hf he (by decide)
    simp only [Cursor.inText] at hoverlap
    omega
  · intro hnone q hstands
    -- The words would have been found first.
    obtain ⟨j, hj, e, he, hein, hepos⟩ := hstands.exists_fits_qualifierGap hd.pos_le
    obtain ⟨e', he', -, he'pos⟩ := hamount.exists_of_pos_eq hd hein hepos
    obtain ⟨k, hk⟩ := exists_fits_withCurrency (Cursor.inText_in (hj.le.trans hd.pos_le)) he he' hd'
      htail he'pos
    have hm := hfirst hk
    have hpos : d.pos = m.start := by
      rw [hnone]
      rfl
    omega

/-! ### Numbers after the word budget -/

theorem namesNumber_of_withKeyword (h : withKeyword.search s = some m) : NamesNumber s m := by
  obtain ⟨hstart, d, d', hlead, hhead, hnumber, hpieces⟩ := exists_of_search_withKeyword h
  have hin : (Cursor.inText s m.start).In s := Cursor.inText_in hstart
  have hamount : Fits amount d d' := fits_of_mem_ends (List.mem_of_head? hhead)
  have hd := hlead.inText hin
  have hmaximal : ∀ e f, e.In s → Fits amount e f → e.pos ≤ d.pos → d'.pos ≤ f.pos →
      e.pos = d.pos ∧ f.pos = d'.pos := by
    intro e f he hf hle hle'
    have hlt := hamount.pos_lt (by decide)
    have hge : d.pos ≤ e.pos :=
      hlead.pos_le_of_le (by decide) hin hf he (by decide) (by omega)
    refine ⟨by omega, ?_⟩
    obtain ⟨f', hf', hf'in, hf'pos⟩ := hf.exists_of_pos_eq he hd (by omega)
    have hlongest := length_rest_le_of_head?_amount hhead hf'
    have hlen := hf'in.length_rest
    have hlen' := (hamount.inText hd).length_rest
    omega
  cases hlead with
  | @seq _ _ _ c _ hlead hbound =>
  have hc := hlead.inText hin
  have hpieces_nil : c.pieces = [] := hlead.pieces_eq (by decide)
  have hreads : ReadsNumber s m c d d' := ⟨hc, hpieces_nil, hbound, hamount, hnumber, hpieces⟩
  apply hreads.namesNumber hmaximal
  rintro rfl q
  obtain ⟨u, z, hr, hz, w, hw, hsuffix⟩ := exists_of_fits_keywordLead hlead
  have htake : s.take d.pos = (s.take m.start ++ u) ++ z := by
    rw [hlead.take_eq hin hr, List.append_assoc]
    rfl
  refine not_standsBefore_of_leadEnds htake hz hw ?_
  rw [List.map_append]
  exact hsuffix.trans (List.suffix_append ..)

theorem namesNumber_of_mem_mentions (h : m ∈ Budget.mentions s) : NamesNumber s m := by
  obtain ⟨p, hp, hm⟩ := List.mem_filterMap.1 h
  rcases List.mem_pair.1 hp with rfl | rfl
  · exact namesNumber_of_withCurrency hm
  · exact namesNumber_of_withKeyword hm

end Phrases

/-! ### What a number determines -/

namespace NamesNumber

variable {s : List Char} {m m' : Match} (h : NamesNumber s m)
include h

theorem words?_eq : words? m = (m.piece? .qualifier).map Piece.text := by
  unfold words?
  cases hq : (m.piece? .qualifier).map Piece.text with
  | none => rfl
  | some q =>
    have hne := ne_nil_of_isOneOfPhrases ((h.qualifier q).1 hq).1
    simp [Option.filter, hne]

/-- Numbers that begin at the same place are the same, with the same words before them. -/
theorem eq_of_start_eq (h' : NamesNumber s m') (hstart : (number m).start = (number m').start) :
    number m = number m' ∧
      (m.piece? .qualifier).map Piece.text = (m'.piece? .qualifier).map Piece.text := by
  have hstop : ∀ {m m' : Match}, NamesNumber s m → NamesNumber s m' →
      (number m).start = (number m').start → (number m).stop ≤ (number m').stop →
        (number m').stop = (number m).stop := by
    intro m m' h h' hstart hle
    have hlength := h'.isIn.length_text
    have htake : (s.take (number m').start).length = (number m').start := by
      rw [List.length_take]
      have := h'.isIn.start_le
      have := h'.isIn.stop_le
      omega
    have hmax := h.maximal _ _ _ h'.isIn.eq_append h'.numeral (by omega) (by omega)
    omega
  have hrest : (number m).rest = (number m').rest := by rw [h.isIn.rest, h'.isIn.rest, hstart]
  have hstops : (number m).stop = (number m').stop := by
    rcases Nat.le_total (number m).stop (number m').stop with hle | hle
    · exact (hstop h h' hstart hle).symm
    · exact hstop h' h hstart.symm hle
  constructor
  · calc number m = ⟨(number m).start, (number m).stop, (number m).rest⟩ := rfl
      _ = ⟨(number m').start, (number m').stop, (number m').rest⟩ := by rw [hstart, hstops, hrest]
  · apply Option.ext
    intro q
    rw [h.qualifier, h'.qualifier, hstart]

end NamesNumber

end CrmQuery
