import CrmQuery.Vocabulary.Amounts
import CrmQuery.Proofs.Pattern.Extension
import CrmQuery.Proofs.Pattern.Greedy

/-!
# Numbers in questions

The preferred fit of `amount` is the longest one (`length_rest_le_of_head?_amount`).  A fit of one
of the two phrases for a budget consists of what leads to the number, the number, and what follows
it (`exists_of_fits_withCurrency`, `exists_of_fits_withKeyword`).
-/

namespace CrmQuery.AmountPhrase

open Pattern

/-! ### Numbers -/

/-- Points and commas. -/
def separator : CharClass := .oneOf (".,".toList.map Text.caseKey)

/-- A separator and three digits. -/
def group : Pattern := one separator ++ one .digit ++ one .digit ++ one .digit

/-- One to three digits. -/
def leadingDigits : Pattern := one .digit ++ opt (one .digit ++ opt (one .digit))

/-- A number in groups. -/
def grouped : Pattern := leadingDigits ++ many group

theorem amount_eq : amount = either grouped digits := rfl

theorem exists_separator {c d : Cursor} (h : Fits (many group) c d) :
    ∃ x rest, c.rest = x :: rest ∧ separator.has x = true := by
  have hgroup : ∀ {e : Cursor}, Fits group c e →
      ∃ x rest, c.rest = x :: rest ∧ separator.has x = true := by
    intro e h
    cases h with
    | seq h _ =>
    cases h with
    | seq h _ =>
    cases h with
    | seq h _ =>
    cases h with
    | one hrest hx => exact ⟨_, _, hrest, hx⟩
  cases h with
  | once h => exact hgroup h
  | more h _ => exact hgroup h

/-- A number has a digit. -/
theorem exists_digit {c d : Cursor} {x : List Char} (h : Fits amount c d) (hx : c.Reads x d) :
    ∃ a ∈ x, Text.isDigit a = true := by
  have hfirst : ∃ a rest, c.rest = a :: rest ∧ Text.isDigit a = true := by
    cases amount_eq ▸ h with
    | left _ h =>
      cases h with
      | seq h _ =>
      cases h with
      | seq h _ =>
      cases h with
      | one hrest ha => exact ⟨_, _, hrest, ha⟩
    | right _ h =>
      cases h with
      | once h =>
        cases h with
        | one hrest ha => exact ⟨_, _, hrest, ha⟩
      | more h _ =>
        cases h with
        | one hrest ha => exact ⟨_, _, hrest, ha⟩
  obtain ⟨a, rest, hrest, ha⟩ := hfirst
  exact ⟨a, h.mem_of_rest (by decide) hx hrest, ha⟩

theorem eq_takeWhile_of_leadingDigits {c d e : Cursor} (h : Fits leadingDigits c d)
    (hm : Fits (many group) d e) : d = c.advance (c.rest.takeWhile Text.isDigit) := by
  obtain ⟨x, hx, hclass⟩ := h.exists_reads
  obtain ⟨y, rest, hrest, hy⟩ := exists_separator hm
  have hdigit : ∀ cls ∈ leadingDigits.classes, cls = .digit := by decide
  have hdigits : ∀ a ∈ x, Text.isDigit a = true := by
    intro a ha
    obtain ⟨cls, hcls, hacls⟩ := hclass a ha
    rwa [hdigit cls hcls] at hacls
  have hnone : Text.isDigit y = false :=
    CharClass.has_eq_false (by decide : separator.apart .digit = true) hy
  have hrun : c.rest.takeWhile Text.isDigit = x := by
    rw [hx.rest, List.takeWhile_append_of_pos hdigits, hrest,
      List.takeWhile_cons_of_neg (by simp [hnone]), List.append_nil]
  rw [hrun]
  exact h.eq_advance rfl hx

/-- The preferred number is the longest. -/
theorem length_rest_le_of_head?_amount {c d e : Cursor} (hd : (amount.ends c).head? = some d)
    (he : Fits amount c e) : d.rest.length ≤ e.rest.length := by
  rw [amount_eq, ends, List.head?_append] at hd
  rw [amount_eq] at he
  cases hgrouped : (grouped.ends c).head? with
  | none =>
    -- Without groups, the number is a run of digits.
    rw [hgrouped, Option.none_or] at hd
    have hnil := List.head?_eq_none_iff.1 hgrouped
    cases he with
    | left _ he => exact absurd he ((ends_eq_nil_iff (by decide)).1 hnil e)
    | right _ he =>
      exact (descending_many rfl rfl c).length_le hd ((mem_ends_iff (by decide)).2 he)
  | some d' =>
    rw [hgrouped, Option.some_or, Option.some.injEq] at hd
    subst hd
    obtain ⟨f, hf, hfd⟩ := exists_of_head?_seq hgrouped
    have hlead : Fits leadingDigits c f := fits_of_mem_ends hf
    have hmany : Fits (many group) f d' := fits_of_mem_ends (List.mem_of_head? hfd)
    cases he with
    | left _ he =>
      cases he with
      | seq hlead' hmany' =>
      rw [eq_takeWhile_of_leadingDigits hlead' hmany',
        ← eq_takeWhile_of_leadingDigits hlead hmany] at hmany'
      exact (descending_many rfl rfl f).length_le hfd ((mem_ends_iff (by decide)).2 hmany')
    | right _ he =>
      -- A run of digits ends before the first separator.
      obtain ⟨x, rest, hrest, hx⟩ := exists_separator hmany
      obtain ⟨y, hy, hdigits⟩ := he.has_eq_false separator (by decide)
      obtain ⟨z, hz, -⟩ := hlead.exists_reads
      obtain ⟨v, hv, -⟩ := hmany.exists_reads
      by_contra hlt
      have hbegins := prefix_of_reads (hz.trans hv) hy (Nat.le_of_not_le hlt)
      have hmem : x ∈ v := hmany.mem_of_rest (by decide) hv hrest
      have hnone := hdigits x (hbegins.subset (List.mem_append_right z hmem))
      rw [hx] at hnone
      cases hnone

/-! ### The phrases -/

/-- A word for a bound and the blanks after it, if there is one. -/
def qualifierGap : Pattern :=
  opt (edge ++ part .qualifier (anyOf (overWords ++ underWords)) ++ gap)

/-- The word budget and what may stand between it and a bound. -/
def keywordLead : Pattern :=
  whole (lit "budget" ++ opt (lit "s")) ++ blanks ++ opt (anyOf [lit "von", lit "of", lit ":"]) ++
    blanks

theorem withCurrency_eq :
    withCurrency = qualifierGap ++ part .amount amount ++ blanks ++ currency := rfl

theorem withKeyword_eq : withKeyword = keywordLead ++ (qualifierGap ++ part .amount amount) := rfl

section Phrases

variable {c e : Cursor}

theorem exists_of_fits_withCurrency (h : Fits withCurrency c e) :
    ∃ d d', Fits qualifierGap c d ∧ Fits amount d d' ∧
      Fits (blanks ++ currency) (d'.remember .amount d) e := by
  rw [withCurrency_eq] at h
  cases h with
  | seq h hcurrency =>
  cases h with
  | seq h hblanks =>
  cases h with
  | seq hqualifier h =>
  cases h with
  | part _ hamount => exact ⟨_, _, hqualifier, hamount, .seq hblanks hcurrency⟩

theorem exists_of_fits_withKeyword (h : Fits withKeyword c e) :
    ∃ d d', Fits (keywordLead ++ qualifierGap) c d ∧ Fits amount d d' ∧
      e = d'.remember .amount d := by
  rw [withKeyword_eq] at h
  cases h with
  | seq hlead h =>
  cases h with
  | seq hqualifier h =>
  cases h with
  | part _ hamount => exact ⟨_, _, .seq hlead hqualifier, hamount, rfl⟩

/-- The number of the preferred fit is the preferred number. -/
theorem exists_of_head?_withKeyword (h : (withKeyword.ends c).head? = some e) :
    ∃ d d', Fits (keywordLead ++ qualifierGap) c d ∧ (amount.ends d).head? = some d' ∧
      e = d'.remember .amount d := by
  obtain ⟨f, hf, h⟩ := exists_of_head?_seq (withKeyword_eq ▸ h)
  obtain ⟨d, hd, h⟩ := exists_of_head?_seq h
  rw [ends, List.head?_map, Option.map_eq_some_iff] at h
  obtain ⟨d', hd', rfl⟩ := h
  exact ⟨d, d', .seq (fits_of_mem_ends hf) (fits_of_mem_ends hd), hd', rfl⟩

end Phrases

end CrmQuery.AmountPhrase
