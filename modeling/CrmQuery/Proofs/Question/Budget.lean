import CrmQuery.Question.Budget
import CrmQuery.Proofs.Question.Normal
import CrmQuery.Proofs.Vocabulary.Amounts

/-!
# Budgets of questions that go on

Neither phrase for a budget is found across a seam once it is found before it, and what is found
only because the question goes on has no number before the one that was found already.  So the
amount of a budget stays the same (`exists_ofText?_of_goesOn`).
-/

namespace CrmQuery

open Text Pattern

namespace AmountPhrase

open Budget (number)

/-! ### The number of a mention -/

section Number

variable {s : List Char} {m : Match}

theorem exists_of_search_withCurrency (h : withCurrency.search s = some m) :
    m.start ≤ s.length ∧ ∃ d d' e, Fits qualifierGap (.inText s m.start) d ∧ Fits amount d d' ∧
      Fits (blanks ++ currency) (d'.remember .amount d) e ∧
        number m = ⟨d.pos, d'.pos, d.rest⟩ ∧ m.pieces = (.amount, number m) :: d.pieces := by
  obtain ⟨i, hi, hfit, -⟩ := search_eq_some_iff.1 h
  obtain ⟨e, he, rfl⟩ := fitAt_eq_some_iff.1 hfit
  obtain ⟨d, d', hqualifier, hamount, htail⟩ :=
    exists_of_fits_withCurrency (fits_of_mem_ends (List.mem_of_head? he))
  have hpieces := htail.pieces_eq (by decide)
  have hpieces' := hamount.pieces_eq (by decide)
  refine ⟨hi, d, d', e, hqualifier, hamount, htail, ?_⟩
  simp [number, Match.piece?, hpieces, hpieces', Cursor.remember]

theorem exists_of_search_withKeyword (h : withKeyword.search s = some m) :
    m.start ≤ s.length ∧ ∃ d d', Fits (keywordLead ++ qualifierGap) (.inText s m.start) d ∧
      (amount.ends d).head? = some d' ∧ number m = ⟨d.pos, d'.pos, d.rest⟩ ∧
        m.pieces = (.amount, number m) :: d.pieces := by
  obtain ⟨i, hi, hfit, -⟩ := search_eq_some_iff.1 h
  obtain ⟨e, he, rfl⟩ := fitAt_eq_some_iff.1 hfit
  obtain ⟨d, d', hlead, hamount, rfl⟩ := exists_of_head?_withKeyword he
  have hpieces : d'.pieces = d.pieces :=
    (fits_of_mem_ends (List.mem_of_head? hamount)).pieces_eq (by decide)
  refine ⟨hi, d, d', hlead, hamount, rfl, ?_⟩
  rw [← hpieces]
  rfl

end Number

section Seam

variable {s r : List Char} (hseam : Seam s r) {m : Match}
include hseam

/-! ### Mentions before the seam -/

theorem withCurrency_pos_le (h : withCurrency.search s = some m) {j : Nat} (hj : j ≤ m.start)
    {e : Cursor} (he : Fits withCurrency (.inText (s ++ r) j) e) : e.pos ≤ s.length := by
  obtain ⟨hstart, d, d', f, hqualifier, hamount, htail, -⟩ := exists_of_search_withCurrency h
  -- Before the seam there are a digit and, after it, a character of a currency.
  obtain ⟨a, b, ha, ⟨cls, hcls, hb⟩, hpair⟩ : ∃ a b, isDigit a = true ∧
      (∃ cls ∈ currency.classes, cls.has b = true) ∧ [a, b].Sublist (s.drop m.start) := by
    cases htail with
    | seq hblanks hcurrency =>
    obtain ⟨x, hx, -⟩ := hqualifier.exists_reads
    obtain ⟨y, hy, -⟩ := (Fits.part .amount hamount).exists_reads
    obtain ⟨z, hz, -⟩ := hblanks.exists_reads
    obtain ⟨v, hv, hclass⟩ := hcurrency.exists_reads
    obtain ⟨a, ha, hdigit⟩ := exists_digit hamount ⟨hy.rest, hy.before⟩
    obtain ⟨b, hb⟩ := List.exists_mem_of_ne_nil v (hcurrency.ne_nil (by decide) hv)
    refine ⟨a, b, hdigit, hclass b hb, ?_⟩
    have hrest : s.drop m.start = (x ++ (y ++ (z ++ v))) ++ f.rest :=
      (hx.trans (hy.trans (hz.trans hv))).rest
    rw [hrest]
    exact (pair_sublist ha hb).trans (List.sublist_append_left ..)
  obtain ⟨g, g', hqualifier', hamount', htail'⟩ := exists_of_fits_withCurrency he
  cases htail' with
  | seq hblanks' hcurrency' =>
  have hj' : j ≤ s.length := hj.trans hstart
  have hmiddle : Fits (part .amount amount ++ blanks) g _ := .seq (.part .amount hamount') hblanks'
  refine hqualifier'.pos_le_of_pair hmiddle hcurrency'
    (Cursor.inText_in (by rw [List.length_append]; omega)) hj' hseam.head (by decide)
    (hpair.trans (List.drop_sublist_drop_left s hj)) ⟨.digit, ha, by decide⟩ ⟨cls, hb, ?_⟩
  have hapart : ∀ cls ∈ currency.classes, ∀ cls' ∈ (part .amount amount ++ blanks).classes,
      cls.apart cls' = true := by decide
  exact hapart cls hcls

theorem withKeyword_pos_le (h : withKeyword.search s = some m) {j : Nat} (hj : j ≤ m.start)
    {e : Cursor} (he : Fits withKeyword (.inText (s ++ r) j) e) : e.pos ≤ s.length := by
  obtain ⟨hstart, d, d', hlead, hhead, -⟩ := exists_of_search_withKeyword h
  have hamount : Fits amount d d' := fits_of_mem_ends (List.mem_of_head? hhead)
  -- Before the seam there is a digit.
  obtain ⟨a, ha, hdrop⟩ : ∃ a, isDigit a = true ∧ a ∈ s.drop m.start := by
    obtain ⟨x, hx, -⟩ := hlead.exists_reads
    obtain ⟨y, hy, -⟩ := hamount.exists_reads
    obtain ⟨a, ha, hdigit⟩ := exists_digit hamount hy
    have hrest : s.drop m.start = x ++ y ++ d'.rest := (hx.trans hy).rest
    exact ⟨a, hdigit, by rw [hrest]; simp [ha]⟩
  obtain ⟨g, g', hlead', hamount', rfl⟩ := exists_of_fits_withKeyword he
  have hj' : j ≤ s.length := hj.trans hstart
  have hin : (Cursor.inText (s ++ r) j).In (s ++ r) :=
    Cursor.inText_in (by rw [List.length_append]; omega)
  have hg := hlead'.inText hin
  by_contra hlt
  have hbehind : s.length < g.pos := by
    by_contra hle
    exact hlt (hamount'.pos_le_of_apart (by decide) hg hseam.head (Nat.le_of_not_lt hle))
  -- It would have been read before the number.
  obtain ⟨x, hx, hdigit⟩ := hlead'.has_eq_false .digit (by decide)
  have hbegins := prefix_of_behind hin hj' hg hbehind.le hx
  have hnone : isDigit a = false :=
    hdigit a (hbegins.subset ((List.drop_sublist_drop_left s hj).subset hdrop))
  rw [ha] at hnone
  cases hnone

theorem withCurrency_search_append (h : withCurrency.search s = some m) :
    withCurrency.search (s ++ r) = some (m.extend r) :=
  search_append (by decide) hseam.isWordAt h fun _ hi _ he => withCurrency_pos_le hseam h hi he

theorem withKeyword_search_append (h : withKeyword.search s = some m) :
    withKeyword.search (s ++ r) = some (m.extend r) :=
  search_append (by decide) hseam.isWordAt h fun _ hi _ he => withKeyword_pos_le hseam h hi he

/-! ### Mentions across the seam -/

/-- A budget after its keyword that is found only now has its number behind the seam. -/
theorem lt_start_withKeyword (hnone : withKeyword.search s = none)
    (h : withKeyword.search (s ++ r) = some m) : s.length < (number m).start := by
  obtain ⟨hstart, d, d', hlead, hhead, hnumber, -⟩ := exists_of_search_withKeyword h
  have hamount : Fits amount d d' := fits_of_mem_ends (List.mem_of_head? hhead)
  have hfit : Fits withKeyword (.inText (s ++ r) m.start) (d'.remember .amount d) := by
    cases hlead with
    | seq hlead hqualifier => exact .seq hlead (.seq hqualifier (.part .amount hamount))
  have hbehind : s.length < (d'.remember .amount d).pos :=
    lt_pos_of_search_eq_none (by decide) hseam.isWordAt hnone hstart hfit
  have hd := hlead.inText (Cursor.inText_in hstart)
  rw [hnumber]
  by_contra hle
  exact absurd hbehind (Nat.not_lt.2
    (hamount.pos_le_of_apart (by decide) hd hseam.head (Nat.le_of_not_lt hle)))

omit hseam in
theorem start_withCurrency_lt (h : withCurrency.search s = some m) :
    (number m).start < s.length := by
  obtain ⟨hstart, d, d', e, hqualifier, hamount, -, hnumber, -⟩ := exists_of_search_withCurrency h
  have hlen := (hqualifier.inText (Cursor.inText_in hstart)).length_rest
  have hlt := hamount.length_lt (by decide)
  rw [hnumber]
  simp only
  omega

/-- A budget before its currency that is found only now has its number behind the seam or right
before it. -/
theorem start_withCurrency (hnone : withCurrency.search s = none)
    (h : withCurrency.search (s ++ r) = some m) :
    s.length < (number m).start ∨ (number m).stop = s.length := by
  obtain ⟨hstart, d, d', e, hqualifier, hamount, htail, hnumber, -⟩ :=
    exists_of_search_withCurrency h
  have hin := Cursor.inText_in hstart
  have hd := hqualifier.inText hin
  have hd' := (Fits.part .amount hamount).inText hd
  rw [hnumber]
  refine or_iff_not_imp_left.2 fun hle => ?_
  have hpos : d'.pos ≤ s.length :=
    hamount.pos_le_of_apart (by decide) hd hseam.head (Nat.le_of_not_lt hle)
  refine hpos.eq_of_not_lt fun hlt => ?_
  cases htail with
  | @seq _ _ _ k _ hblanks hcurrency =>
  have hk := hblanks.inText hd'
  have hbehind : s.length < e.pos :=
    lt_pos_of_search_eq_none (by decide) hseam.isWordAt hnone hstart
      (.seq (.seq (.seq hqualifier (.part .amount hamount)) hblanks) hcurrency)
  have hkbehind : s.length < k.pos := by
    by_contra hle
    exact absurd hbehind (Nat.not_lt.2
      (hcurrency.pos_le_of_apart (by decide) hk hseam.head (Nat.le_of_not_lt hle)))
  -- The blanks after the number would have the last character before the seam.
  obtain ⟨x, hx, hblank⟩ := hblanks.exists_reads
  have hbegins : s.drop (d'.remember .amount d).pos <+: x :=
    prefix_of_behind hd' hpos hk hkbehind.le hx
  have hne : s ≠ [] := by
    rintro rfl
    exact absurd hlt (Nat.not_lt_zero _)
  have hmem : s.getLast hne ∈ s.drop d'.pos := by
    rw [← List.getLast_drop (i := d'.pos) (by simpa using hlt)]
    exact List.getLast_mem _
  obtain ⟨cls, hcls, hlast⟩ := hblank _ (hbegins.subset hmem)
  have hclasses : ∀ cls ∈ blanks.classes, cls = .blank := by decide
  rw [hclasses cls hcls] at hlast
  have hnonblank := hseam.last _ (List.getLast?_eq_some_getLast hne)
  rw [CharClass.has, hnonblank] at hlast
  cases hlast

/-- No number before a currency begins within what leads to a number after the keyword, and one that
begins where that number does is the same. -/
theorem number_withKeyword_le {k : Match} (hnone : withCurrency.search s = none)
    (hk : withKeyword.search s = some k) (h : withCurrency.search (s ++ r) = some m) :
    (number (k.extend r)).start ≤ (number m).start ∧
      ((number m).start = (number (k.extend r)).start → number m = number (k.extend r)) := by
  have hacross := start_withCurrency hseam hnone h
  have hk' := withKeyword_search_append hseam hk
  obtain ⟨hkstart, f, f', hlead, hhead, hknumber, -⟩ := exists_of_search_withKeyword hk'
  obtain ⟨hstart, d, d', -, hqualifier, hamount, -, hnumber, -⟩ := exists_of_search_withCurrency h
  have hd := hqualifier.inText (Cursor.inText_in hstart)
  have hd' := hamount.inText hd
  have hf := hlead.inText (Cursor.inText_in hkstart)
  have hkamount : Fits amount f f' := fits_of_mem_ends (List.mem_of_head? hhead)
  have hf' := hkamount.inText hf
  have hlt : f.pos < f'.pos := hkamount.pos_lt (by decide)
  have hfpos : f'.pos ≤ s.length := by
    refine withKeyword_pos_le (e := f'.remember .amount f) hseam hk (j := (k.extend r).start)
      le_rfl ?_
    cases hlead with
    | seq hlead hqualifier => exact .seq hlead (.seq hqualifier (.part .amount hkamount))
  replace hacross : s.length < d.pos ∨ d'.pos = s.length := by rwa [hnumber] at hacross
  rw [hnumber, hknumber]
  have hle : f.pos ≤ d.pos := by
    rcases hacross with hacross | hacross
    · omega
    · exact hlead.pos_le_of_le (by decide) (Cursor.inText_in hkstart) hamount hd (by decide)
        (by omega)
  refine ⟨hle, fun hstarts => ?_⟩
  have hpos : d.pos = f.pos := hstarts
  have hrest : d.rest = f.rest := by rw [hd.rest, hf.rest, hpos]
  -- The preferred number reaches as far as the other one, which ends at the seam.
  obtain ⟨g, hg, hgrest⟩ := hamount.exists_of_rest_eq (by decide) hrest.symm
  have hlongest := length_rest_le_of_head?_amount hhead hg
  rw [hgrest] at hlongest
  have hlen := hd'.length_rest
  have hlen' := hf'.length_rest
  have hstop : d'.pos = f'.pos := by omega
  rw [hpos, hrest, hstop]

end Seam

end AmountPhrase

/-! ### The first mention -/

namespace Budget

open AmountPhrase

theorem start_number_extend (r : List Char) (m : Match) :
    (number (m.extend r)).start = (number m).start := by
  unfold number
  rw [Match.piece?_extend]
  cases m.piece? .amount <;> rfl

theorem text_number_extend {p : Pattern} {s : List Char} {m : Match} (h : p.search s = some m)
    (r : List Char) : (number (m.extend r)).text = (number m).text := by
  have htext : ∀ m' : Match,
      (number m').text = (((m'.piece? .amount).map Piece.text).getD []) := by
    intro m'
    unfold number
    cases m'.piece? .amount <;> rfl
  rw [htext, htext, text_piece?_extend h]

/-- The budget before a currency is taken unless the one after the keyword has an earlier number. -/
theorem head?_firstMentions (s : List Char) :
    (firstMentions s).head? =
      match withCurrency.search s, withKeyword.search s with
      | none, k => k
      | some c, none => some c
      | some c, some k => some (if (number c).start ≤ (number k).start then c else k) := by
  cases hc : withCurrency.search s with
  | none => cases hk : withKeyword.search s <;> simp [firstMentions, mentions, hc, hk]
  | some c =>
    cases hk : withKeyword.search s with
    | none => simp [firstMentions, mentions, hc, hk]
    | some k =>
      by_cases hle : (number c).start ≤ (number k).start
      · simp [firstMentions, mentions, hc, hk, hle]
      · simp [firstMentions, mentions, hc, hk, hle, (Nat.lt_of_not_le hle).le]

/-- The number that a budget is read from stays the same. -/
theorem exists_head?_firstMentions_append {s r : List Char} (hseam : Seam s r) {m : Match}
    (hm : (firstMentions s).head? = some m) :
    ∃ m', (firstMentions (s ++ r)).head? = some m' ∧ (number m').text = (number m).text := by
  rw [head?_firstMentions] at hm ⊢
  cases hc : withCurrency.search s with
  | none =>
    cases hk : withKeyword.search s with
    | none =>
      rw [hc, hk] at hm
      cases hm
    | some k =>
      rw [hc, hk, Option.some.injEq] at hm
      subst hm
      have htext := text_number_extend hk r
      rw [withKeyword_search_append hseam hk]
      cases hc' : withCurrency.search (s ++ r) with
      | none => exact ⟨_, rfl, htext⟩
      | some c =>
        refine ⟨_, rfl, ?_⟩
        obtain ⟨hle, heq⟩ := number_withKeyword_le hseam hc hk hc'
        split_ifs with hfirst
        · rw [heq (le_antisymm hfirst hle), htext]
        · exact htext
  | some c =>
    have htext := text_number_extend hc r
    rw [withCurrency_search_append hseam hc]
    cases hk : withKeyword.search s with
    | none =>
      rw [hc, hk, Option.some.injEq] at hm
      subst hm
      cases hk' : withKeyword.search (s ++ r) with
      | none => exact ⟨_, rfl, htext⟩
      | some k =>
        refine ⟨_, rfl, ?_⟩
        have hbehind := lt_start_withKeyword hseam hk hk'
        have hbefore := start_withCurrency_lt hc
        rw [if_pos (by rw [start_number_extend]; omega), htext]
    | some k =>
      rw [hc, hk, Option.some.injEq] at hm
      rw [withKeyword_search_append hseam hk]
      refine ⟨_, rfl, ?_⟩
      rw [start_number_extend, start_number_extend, ← hm]
      split_ifs
      · exact htext
      · exact text_number_extend hk r

/-! ### The amount -/

theorem exists_of_ofText?_eq_some {s : List Char} {b : Budget} (h : ofText? s = .ok (some b)) :
    ∃ m, (firstMentions s).head? = some m ∧ readAmount (number m).text = .ok b.amount := by
  unfold ofText? at h
  cases hfirst : firstMentions s with
  | nil =>
    rw [hfirst] at h
    cases h
  | cons m ms =>
    rw [hfirst] at h
    cases hread : readAmount (number m).text with
    | error e =>
      simp only [hread] at h
      cases h
    | ok n =>
      simp only [hread] at h
      cases h
      exact ⟨m, rfl, hread⟩

theorem exists_ofText?_of_head? {s : List Char} {m : Match} {n : Nat}
    (hm : (firstMentions s).head? = some m) (hread : readAmount (number m).text = .ok n) :
    ∃ b, ofText? s = .ok (some b) ∧ b.amount = n := by
  obtain ⟨ms, hms⟩ := List.head?_eq_some_iff.1 hm
  unfold ofText?
  rw [hms]
  simp only [hread]
  exact ⟨_, rfl, rfl⟩

/-- A budget that is found keeps its amount when the question goes on. -/
theorem exists_ofText?_of_goesOn {s s' : List Char} (h : GoesOn s s') {b : Budget}
    (hs : ofText? s = .ok (some b)) : ∃ b', ofText? s' = .ok (some b') ∧ b'.amount = b.amount := by
  obtain ⟨m, hm, hread⟩ := exists_of_ofText?_eq_some hs
  rcases h with rfl | ⟨r, rfl, hseam⟩
  · cases hm
  · obtain ⟨m', hm', htext⟩ := exists_head?_firstMentions_append hseam hm
    exact exists_ofText?_of_head? hm' (htext ▸ hread)

end Budget

end CrmQuery
