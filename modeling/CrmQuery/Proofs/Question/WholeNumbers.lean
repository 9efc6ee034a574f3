import CrmQuery.Proofs.Question.Numbers

/-!
# Whole numbers and parts of numbers

The number of a budget is `IsWhole` unless a longer number of the text goes on before it or after
it.  That is so if and only if the digits around it, with the separators between them, form a
numeral (`whole_iff_isNumeral`): from a number that is written in another way, only a part is read
(`not_whole_of_four_digits`).
-/

namespace CrmQuery

open Text Pattern
open Budget (number)

/-- The piece is not cut out of a longer number: there is no digit right before it, nor a separator
that follows a digit, and no digit right after it. -/
structure IsWhole (s : List Char) (p : Piece) : Prop where
  before : ∀ a c, s.take p.start = a ++ [c] → isDigit c = false
  separated : ∀ a d c, s.take p.start = a ++ [d, c] → isDigit d = true → isSeparator c = false
  after : ∀ c b, s.drop p.stop = c :: b → isDigit c = false

/-- The digits at the beginning of a text that is read backwards, and the separators that follow a
digit. -/
def numberRun : List Char → List Char
  | [] => []
  | c :: s => if isDigit c || (isSeparator c && s.head?.any isDigit) then c :: numberRun s else []

/-- The piece with the digits around it; before it, separators that follow a digit count as well. -/
def numberAround (s : List Char) (p : Piece) : List Char :=
  (numberRun (s.take p.start).reverse).reverse ++ (p.text ++ (s.drop p.stop).takeWhile isDigit)

theorem numberRun_prefix : ∀ s : List Char, numberRun s <+: s
  | [] => List.nil_prefix
  | c :: s => by
    unfold numberRun
    split_ifs
    · exact List.cons_prefix_cons.2 ⟨rfl, numberRun_prefix s⟩
    · exact List.nil_prefix

theorem numberRun_eq_nil_iff {s : List Char} : numberRun s = [] ↔
    (∀ c b, s = c :: b → isDigit c = false) ∧
      ∀ c d b, s = c :: d :: b → isDigit d = true → isSeparator c = false := by
  cases s with
  | nil => simp [numberRun]
  | cons c s =>
    cases s with
    | nil => simp [numberRun]
    | cons d s =>
      have hif : numberRun (c :: d :: s) = [] ↔
          ¬ (isDigit c = true ∨ isSeparator c = true ∧ isDigit d = true) := by
        rw [numberRun]
        simp
      rw [hif]
      constructor
      · intro h
        push Not at h
        refine ⟨?_, ?_⟩
        · rintro c' b ⟨⟩
          simpa using h.1
        · rintro c' d' b ⟨⟩ hd
          by_contra hc
          exact h.2 (by simpa using hc) hd
      · rintro ⟨h, h'⟩ (hc | ⟨hc, hd⟩)
        · rw [h c _ rfl] at hc
          cases hc
        · rw [h' c d s rfl hd] at hc
          cases hc

theorem isWhole_iff {s : List Char} {p : Piece} : IsWhole s p ↔
    numberRun (s.take p.start).reverse = [] ∧ (s.drop p.stop).takeWhile isDigit = [] := by
  have hafter : (s.drop p.stop).takeWhile isDigit = [] ↔
      ∀ c b, s.drop p.stop = c :: b → isDigit c = false := by
    cases s.drop p.stop with
    | nil => simp
    | cons c b => simp [List.takeWhile_cons]
  rw [numberRun_eq_nil_iff, hafter]
  constructor
  · rintro ⟨hbefore, hseparated, hafter⟩
    refine ⟨⟨fun c b h => ?_, fun c d b h => ?_⟩, hafter⟩
    · apply hbefore b.reverse c
      rw [List.reverse_eq_iff.1 h, List.reverse_cons]
    · apply hseparated b.reverse d c
      rw [List.reverse_eq_iff.1 h]
      simp
  · rintro ⟨⟨hbefore, hseparated⟩, hafter⟩
    refine ⟨fun a c h => ?_, fun a d c h => ?_, hafter⟩
    · apply hbefore c a.reverse
      simp [h]
    · apply hseparated c d a.reverse
      simp [h]

/-- The number that is read is whole if and only if the digits around it form a numeral. -/
theorem NamesNumber.isWhole_iff {s : List Char} {m : Match} (h : NamesNumber s m) :
    IsWhole s (number m) ↔ IsNumeral (numberAround s (number m)) := by
  rw [CrmQuery.isWhole_iff]
  constructor
  · rintro ⟨hbefore, hafter⟩
    rw [numberAround, hbefore, hafter, List.append_nil]
    exact h.numeral
  · intro hnumeral
    -- A longer numeral around the number is the number.
    obtain ⟨a, ha⟩ := numberRun_prefix (s.take (number m).start).reverse
    have hstart : s.take (number m).start =
        a.reverse ++ (numberRun (s.take (number m).start).reverse).reverse := by
      rw [← List.reverse_append, ha, List.reverse_reverse]
    have hs : s = a.reverse ++ (numberAround s (number m) ++
        (s.drop (number m).stop).dropWhile isDigit) := by
      conv_lhs => rw [h.isIn.eq_append, hstart,
        ← List.takeWhile_append_dropWhile (p := isDigit) (l := s.drop (number m).stop)]
      simp only [numberAround, List.append_assoc]
    have hle := h.isIn.start_le
    have hstop := h.isIn.stop_le
    have htext := h.isIn.length_text
    have hlength := congrArg List.length hstart
    have haround : (numberAround s (number m)).length = _ := List.length_append
    rw [List.length_append, List.length_take] at hlength
    rw [List.length_append] at haround
    obtain ⟨hfirst, hlast⟩ := h.maximal _ _ _ hs hnumeral (by omega) (by omega)
    constructor
    · exact List.length_eq_zero_iff.1 (by rw [List.length_reverse] at hlength haround; omega)
    · exact List.length_eq_zero_iff.1 (by omega)

namespace Budget

theorem mem_mentions_of_head? {s : List Char} {m : Match} (h : (firstMentions s).head? = some m) :
    m ∈ mentions s :=
  (List.mem_filter.1 (List.mem_of_head? h)).1

/-- The number that a budget is read from is whole, unless the digits around it are no numeral. -/
theorem whole_iff_isNumeral {s : List Char} {b : Budget} (h : ofText? s = .ok (some b)) :
    ∃ m, (firstMentions s).head? = some m ∧ readAmount (number m).text = .ok b.amount ∧
      (number m).IsIn s ∧ (IsWhole s (number m) ↔ IsNumeral (numberAround s (number m))) := by
  obtain ⟨m, hm, hread⟩ := exists_of_ofText?_eq_some h
  have hnames := namesNumber_of_mem_mentions (mem_mentions_of_head? hm)
  exact ⟨m, hm, hread, hnames.isIn, hnames.isWhole_iff⟩

theorem whole_iff_isNumeral_of_grouped :
    ofText? "unter 2.000€ budget".toList = .ok (some ⟨2000, some .atMost⟩) ∧
      ∃ m, (firstMentions "unter 2.000€ budget".toList).head? = some m ∧
        readAmount (number m).text = .ok 2000 ∧
          (number m).IsIn "unter 2.000€ budget".toList ∧
            (IsWhole "unter 2.000€ budget".toList (number m) ↔
              IsNumeral (numberAround "unter 2.000€ budget".toList (number m))) := by
  have h : ofText? "unter 2.000€ budget".toList = .ok (some ⟨2000, some .atMost⟩) := by
    decide +kernel
  exact ⟨h, whole_iff_isNumeral h⟩

/-- Four digits, a point and three digits are no numeral: of such a number the first digit is left
out, and the words before it are no words before what is read. -/
theorem not_whole_of_four_digits :
    ofText? "über 1234.567 euro".toList = .ok (some ⟨234567, none⟩) ∧
      ∃ m, (firstMentions "über 1234.567 euro".toList).head? = some m ∧
        readAmount (number m).text = .ok 234567 ∧
          ¬ IsWhole "über 1234.567 euro".toList (number m) := by
  have hhead : (firstMentions "über 1234.567 euro".toList).head? =
      some ⟨6, 18, [(.amount, ⟨6, 13, "234.567 euro".toList⟩)]⟩ := by decide +kernel
  refine ⟨by decide +kernel, _, hhead, by decide +kernel, fun h => ?_⟩
  have hone := h.before "über ".toList '1' rfl
  exact absurd hone (by decide)

end Budget

end CrmQuery
