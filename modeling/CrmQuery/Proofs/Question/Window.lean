import CrmQuery.Question.Classify
import CrmQuery.Proofs.Question.Normal

/-!
# Timeframes of questions that go on

A phrase for the past is not found across a seam once one is found before it
(`relative_search_append`), so a question with a timeframe still has one when it goes on
(`isSome_ofText?_of_goesOn`).
-/

namespace CrmQuery

open Text Pattern

namespace TimePhrase

/-- A number of units and the blanks after it, if there is one. -/
def countGap : Pattern := opt (part .count digits ++ gap)

/-- The words for all units. -/
def anyUnit : Pattern := part .unit (anyOf (Period.all.flatMap Period.patterns))

theorem relative_eq : relative = edge ++ lookingBack ++ gap ++ countGap ++ anyUnit ++ edge := rfl

theorem exists_of_fits_relative {c e : Cursor} (h : Fits relative c e) :
    ∃ d d', Fits (edge ++ lookingBack) c d ∧ Fits (gap ++ countGap) d d' ∧
      Fits (anyUnit ++ edge) d' e := by
  rw [relative_eq] at h
  cases h with
  | seq h hedge =>
  cases h with
  | seq h hunit =>
  cases h with
  | seq h hcount =>
  cases h with
  | seq hfront hgap => exact ⟨_, _, hfront, .seq hgap hcount, .seq hunit hedge⟩

section Seam

variable {s r : List Char} (hseam : Seam s r) {m : Match}
include hseam

theorem relative_pos_le (h : relative.search s = some m) {j : Nat} (hj : j ≤ m.start) {e : Cursor}
    (he : Fits relative (.inText (s ++ r) j) e) : e.pos ≤ s.length := by
  obtain ⟨i, hi, hfit, -⟩ := search_eq_some_iff.1 h
  obtain ⟨f, hf, rfl⟩ := fitAt_eq_some_iff.1 hfit
  obtain ⟨d, d', hfront, hmiddle, hunit⟩ :=
    exists_of_fits_relative (fits_of_mem_ends (List.mem_of_head? hf))
  -- Before the seam there are a blank and, after it, a character of a unit.
  obtain ⟨a, b, ha, ⟨cls, hcls, hb⟩, hpair⟩ : ∃ a b, isBlank a = true ∧
      (∃ cls ∈ (anyUnit ++ edge).classes, cls.has b = true) ∧ [a, b].Sublist (s.drop i) := by
    cases hmiddle with
    | seq hgap hcount =>
    obtain ⟨x, hx, -⟩ := hfront.exists_reads
    obtain ⟨y, hy, hyclass⟩ := hgap.exists_reads
    obtain ⟨z, hz, -⟩ := hcount.exists_reads
    obtain ⟨v, hv, hclass⟩ := hunit.exists_reads
    obtain ⟨a, ha⟩ := List.exists_mem_of_ne_nil y (hgap.ne_nil rfl hy)
    obtain ⟨b, hb⟩ := List.exists_mem_of_ne_nil v (hunit.ne_nil (by decide) hv)
    obtain ⟨cls, hcls, hblank⟩ := hyclass a ha
    have hgapclass : ∀ cls ∈ gap.classes, cls = .blank := by decide
    rw [hgapclass cls hcls] at hblank
    refine ⟨a, b, hblank, hclass b hb, ?_⟩
    have hrest : s.drop i = (x ++ (y ++ (z ++ v))) ++ f.rest :=
      (hx.trans (hy.trans (hz.trans hv))).rest
    rw [hrest]
    exact (pair_sublist ha hb).trans (List.sublist_append_left ..)
  obtain ⟨g, g', hfront', hmiddle', hunit'⟩ := exists_of_fits_relative he
  have hj' : j ≤ s.length := hj.trans hi
  refine hfront'.pos_le_of_pair hmiddle' hunit'
    (Cursor.inText_in (by rw [List.length_append]; omega)) hj' hseam.head (by decide)
    (hpair.trans (List.drop_sublist_drop_left s hj)) ⟨.blank, ha, by decide⟩ ⟨cls, hb, ?_⟩
  have hapart : ∀ cls ∈ (anyUnit ++ edge).classes, ∀ cls' ∈ (gap ++ countGap).classes,
      cls.apart cls' = true := by decide
  exact hapart cls hcls

theorem relative_search_append (h : relative.search s = some m) :
    relative.search (s ++ r) = some (m.extend r) :=
  search_append (by decide) hseam.isWordAt h fun _ hi _ he => relative_pos_le hseam h hi he

end Seam

end TimePhrase

/-! ### Windows -/

theorem relativeCount_eq (m : Match) :
    relativeCount m = ((m.piece? .count).map Piece.text).elim (.ok 1) readNumeral := by
  unfold relativeCount
  cases m.piece? .count <;> rfl

theorem relativePeriod?_eq (m : Match) :
    relativePeriod? m = ((m.piece? .unit).map Piece.text).bind Period.ofUnit? := by
  unfold relativePeriod?
  cases m.piece? .unit <;> rfl

/-- What a phrase for the past means depends on the texts of its number and its unit. -/
theorem RelativeWindow.ofMatch?_congr {m m' : Match}
    (h : ∀ name, (m'.piece? name).map Piece.text = (m.piece? name).map Piece.text) (now : Moment) :
    ofMatch? now m' = ofMatch? now m := by
  unfold ofMatch?
  rw [relativeCount_eq, relativeCount_eq, relativePeriod?_eq, relativePeriod?_eq, h, h]

open TimePhrase in
/-- A question with a timeframe still has one when it goes on, if that can be read. -/
theorem Timeframe.isSome_ofText?_of_goesOn {s s' : List Char} (h : GoesOn s s') {now : Moment}
    {a : Timeframe} {b : Option Timeframe} (hs : ofText? s now = .ok (some a))
    (hs' : ofText? s' now = .ok b) : b.isSome = true := by
  have htoday := h.occursIn (p := today) (by decide) (by decide)
  have hyesterday := h.occursIn (p := yesterday) (by decide) (by decide)
  have hthisMonth := h.occursIn (p := thisMonth) (by decide) (by decide)
  unfold ofText? at hs'
  split_ifs at hs' with h₁ h₂ h₃
  · cases hs'
    rfl
  · cases hday : now.subtractDays? 1 with
    | none =>
      rw [hday] at hs'
      cases hs'
    | some day =>
      rw [hday] at hs'
      cases hs'
      rfl
  · cases hs'
    rfl
  · unfold ofText? at hs
    rw [if_neg (mt htoday h₁), if_neg (mt hyesterday h₂), if_neg (mt hthisMonth h₃)] at hs
    cases hm : TimePhrase.relative.search s with
    | none =>
      rw [hm] at hs
      cases hs
    | some m =>
      rcases h with rfl | ⟨r, rfl, hseam⟩
      · have hnone := not_occursIn_nil (p := TimePhrase.relative) (by decide)
        rw [occursIn, hm] at hnone
        cases hnone
      · rw [hm] at hs
        rw [relative_search_append hseam hm] at hs'
        simp only [RelativeWindow.ofMatch?_congr (text_piece?_extend hm)] at hs'
        obtain rfl : some a = b := Except.ok.inj (hs.symm.trans hs')
        rfl

end CrmQuery
