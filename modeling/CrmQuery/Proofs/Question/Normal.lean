import CrmQuery.Question.Topic
import CrmQuery.Vocabulary.Topics
import CrmQuery.Proofs.Pattern.Extension
import CrmQuery.Proofs.Text.Blank

/-!
# Questions that go on

When words are added to a question, its normal form goes on after a seam: a blank that follows
another character (`normalize_append`).  The patterns that occurred in it still do
(`GoesOn.anyOccurs`).
-/

namespace CrmQuery

open Text Pattern

/-- Between `s` and `r` there is a blank, which belongs to `r`. -/
structure Seam (s r : List Char) : Prop where
  head : ∀ c ∈ r.head?, isBlank c = true
  last : ∀ c ∈ s.getLast?, isBlank c = false

/-- The text `s'` goes on where `s` ends, after a seam unless `s` is empty. -/
def GoesOn (s s' : List Char) : Prop := s = [] ∨ ∃ r, s' = s ++ r ∧ Seam s r

theorem Seam.isWordAt {s r : List Char} (h : Seam s r) : isWordAt r.head? = false := by
  cases hr : r.head? with
  | none => rfl
  | some c => exact isWord_of_isBlank (h.head c hr)

/-! ### Normal forms -/

/-- Blanks are neither capitals nor small letters. -/
theorem lowerChar_of_isBlank {c : Char} (h : isBlank c = true) : lowerChar c = [c] := by
  have key : ∀ n ∈ blankPoints, n ≠ '\u0130'.toNat ∧ capitalRows.find? (·.has n) = none := by
    decide +kernel
  obtain ⟨hne, hnone⟩ := key c.toNat (toNat_mem_blankPoints h)
  have hdotted : c ≠ '\u0130' := fun e => hne (e ▸ rfl)
  rw [lowerChar, if_neg hdotted, hnone]

theorem lower_append (a b : List Char) : lower (a ++ b) = lower a ++ lower b := List.flatMap_append

theorem lower_of_blank {w : List Char} (h : ∀ c ∈ w, isBlank c = true) : lower w = w := by
  induction w with
  | nil => rfl
  | cons c w ih =>
    have hc : lower (c :: w) = lowerChar c ++ lower w := rfl
    rw [hc, lowerChar_of_isBlank (h c List.mem_cons_self),
      ih fun d hd => h d (List.mem_cons_of_mem c hd)]
    rfl

theorem strip_append {a : List Char} (ha : strip a ≠ []) {b : List Char} {c : Char}
    (hc : isBlank c = true) : ∃ r, strip (a ++ c :: b) = strip a ++ r ∧ Seam (strip a) r := by
  obtain ⟨x, y, hxy, hx, hy⟩ := exists_eq_strip a
  have hlast : ∀ d ∈ (strip a).getLast?, isBlank d = false :=
    fun d hd => isBlank_of_mem_getLast?_strip hd
  obtain ⟨r, z, hrz, -, hr⟩ := exists_strip_append_eq (v := y ++ c :: b) hx ha
    (fun d hd => isBlank_of_mem_head?_strip hd) hlast
  refine ⟨r, ?_, ?_, hlast⟩
  · rw [← hr]
    conv_lhs => rw [hxy]
    simp only [List.append_assoc]
  · -- What is left begins as the blanks after the first text do.
    intro d hd
    have hhead : (y ++ c :: b).head? = some d := by
      rw [hrz, List.head?_append, Option.mem_def.1 hd]
      rfl
    cases y with
    | nil => exact Option.some.inj hhead ▸ hc
    | cons e y => exact Option.some.inj hhead ▸ hy e List.mem_cons_self

/-- Words that are added to a question follow it after a seam. -/
theorem normalize_append {t w u : String} (hw : w.toList ≠ [])
    (hblank : ∀ c ∈ w.toList, isBlank c = true) :
    GoesOn (normalize t) (normalize (t ++ w ++ u)) := by
  obtain ⟨c, w', hcw⟩ := List.exists_cons_of_ne_nil hw
  refine or_iff_not_imp_left.2 fun hne => ?_
  have htext : lower (t ++ w ++ u).toList = lower t.toList ++ c :: (w' ++ lower u.toList) := by
    rw [String.toList_append, String.toList_append, lower_append, lower_append,
      lower_of_blank hblank, hcw, List.append_assoc]
    rfl
  unfold normalize
  rw [htext]
  exact strip_append hne (hblank c (hcw ▸ List.mem_cons_self))

/-! ### Occurrences -/

theorem not_occursIn_nil {p : Pattern} (hp : p.consumes = true) : p.occursIn [] = false := by
  refine Bool.eq_false_iff.2 fun h => ?_
  obtain ⟨a, c, d, hs, -, hd⟩ := exists_fits_of_occursIn h
  have hlt := hd.length_lt hp
  rw [(List.append_eq_nil_iff.1 hs.symm).2] at hlt
  exact absurd hlt (Nat.not_lt_zero _)

/-- All these patterns read something, and they only repeat what reads something. -/
def AreProper (ps : List Pattern) : Prop := ∀ p ∈ ps, p.regular = true ∧ p.consumes = true

instance (ps : List Pattern) : Decidable (AreProper ps) :=
  inferInstanceAs (Decidable (∀ p ∈ ps, _))

theorem Domain.areProper_patterns (d : Domain) : AreProper d.patterns := by
  cases d <;> decide

theorem Intent.areProper_patterns (i : Intent) : AreProper i.patterns := by
  cases i <;> decide

theorem LeadStatus.areProper_patterns (a : LeadStatus) : AreProper a.patterns := by
  cases a <;> decide

theorem Country.areProper_patterns (a : Country) : AreProper a.patterns := by
  cases a <;> decide

theorem BookingStatus.areProper_patterns (a : BookingStatus) : AreProper a.patterns := by
  cases a <;> decide

theorem Language.areProper_germanMarkers : AreProper germanMarkers := by
  decide

namespace GoesOn

variable {s s' : List Char} (h : GoesOn s s')
include h

theorem occursIn {p : Pattern} (hp : p.regular = true) (hconsumes : p.consumes = true)
    (hs : p.occursIn s = true) : p.occursIn s' = true := by
  rcases h with rfl | ⟨r, rfl, hseam⟩
  · rw [not_occursIn_nil hconsumes] at hs
    cases hs
  · exact occursIn_append hp hseam.isWordAt hs

theorem anyOccurs {ps : List Pattern} (hps : AreProper ps)
    (hs : anyOccurs ps s = true) : anyOccurs ps s' = true := by
  obtain ⟨p, hp, hs⟩ := List.any_eq_true.1 hs
  exact List.any_eq_true.2 ⟨p, hp, h.occursIn (hps p hp).1 (hps p hp).2 hs⟩

end GoesOn

end CrmQuery
