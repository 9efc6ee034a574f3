import CrmQuery.Proofs.Pattern.Phrases
import CrmQuery.Proofs.Text.Numerals
import CrmQuery.Proofs.Vocabulary.Amounts

/-!
# How numbers are written

A numeral (`IsNumeral`) is a run of digits, or a few digits and then groups of three digits after
points or commas; this is what `amount` fits (`exists_of_fits_amount`, `fits_amount`).  A text
`Writes` a natural number if it is a numeral and its digits are those of the number.
-/

namespace CrmQuery

open Text

namespace Text

/-- Points and commas. -/
def isSeparator (c : Char) : Bool := c == '.' || c == ','

/-- Some digits, and nothing else. -/
structure AreDigits (x : List Char) : Prop where
  ne_nil : x ≠ []
  digit : ∀ c ∈ x, isDigit c = true

/-- A separator and three digits. -/
def IsGroup (x : List Char) : Prop :=
  ∃ c ds, x = c :: ds ∧ isSeparator c = true ∧ AreDigits ds ∧ ds.length = 3

/-- A number is written as a run of digits, or as one to three digits and then groups of three. -/
def IsNumeral (x : List Char) : Prop :=
  AreDigits x ∨ ∃ lead groups, x = lead ++ groups.flatten ∧ AreDigits lead ∧ lead.length ≤ 3 ∧
    groups ≠ [] ∧ ∀ g ∈ groups, IsGroup g

/-- The text is a numeral for `n`: it has the digits of `n`, all of them in a row, or in groups of
three from the right, after points or commas. -/
def Writes (n : Nat) (x : List Char) : Prop :=
  IsNumeral x ∧ (x.filter fun c => !isSeparator c) = Nat.toDigits 10 n

variable {x : List Char}

theorem IsGroup.exists_last_digit (h : IsGroup x) : ∃ y d, x = y ++ [d] ∧ isDigit d = true := by
  obtain ⟨c, ds, rfl, -, hds, -⟩ := h
  refine ⟨c :: ds.dropLast, ds.getLast hds.ne_nil, ?_, hds.digit _ (List.getLast_mem _)⟩
  rw [List.cons_append, List.dropLast_append_getLast]

/-- A numeral begins with a digit. -/
theorem IsNumeral.exists_first_digit (h : IsNumeral x) : ∃ d y, x = d :: y ∧ isDigit d = true := by
  have hdigits : ∀ {x}, AreDigits x → ∃ d y, x = d :: y ∧ isDigit d = true := by
    intro x hx
    obtain ⟨d, y, rfl⟩ := List.exists_cons_of_ne_nil hx.ne_nil
    exact ⟨d, y, rfl, hx.digit d List.mem_cons_self⟩
  rcases h with h | ⟨lead, groups, rfl, hlead, -⟩
  · exact hdigits h
  · obtain ⟨d, y, rfl, hd⟩ := hdigits hlead
    exact ⟨d, y ++ groups.flatten, rfl, hd⟩

/-- A numeral ends with a digit. -/
theorem IsNumeral.exists_last_digit (h : IsNumeral x) : ∃ y d, x = y ++ [d] ∧ isDigit d = true := by
  rcases h with h | ⟨lead, groups, rfl, -, -, hne, hgroups⟩
  · exact ⟨x.dropLast, x.getLast h.ne_nil, (List.dropLast_append_getLast _).symm,
      h.digit _ (List.getLast_mem _)⟩
  · obtain ⟨y, d, hlast, hd⟩ := (hgroups _ (List.getLast_mem hne)).exists_last_digit
    refine ⟨lead ++ (groups.dropLast.flatten ++ y), d, ?_, hd⟩
    conv_lhs => rw [← List.dropLast_append_getLast hne]
    simp [hlast]

/-! ### Ways to write a number -/

theorem isSeparator_of_isDigit {c : Char} (h : c.isDigit = true) : isSeparator c = false := by
  rw [Bool.eq_false_iff]
  intro hc
  rcases Bool.or_eq_true_iff.1 hc with hc | hc
  · rw [eq_of_beq hc] at h
    cases h
  · rw [eq_of_beq hc] at h
    cases h

theorem areDigits_of_forall {ds : List Char} (hne : ds ≠ []) (h : ∀ c ∈ ds, c.isDigit = true) :
    AreDigits ds :=
  ⟨hne, fun c hc => isDigit_of_isDigit (h c hc)⟩

theorem filter_isSeparator {ds : List Char} (h : ∀ c ∈ ds, c.isDigit = true) :
    (ds.filter fun c => !isSeparator c) = ds := by
  rw [List.filter_eq_self]
  intro c hc
  rw [isSeparator_of_isDigit (h c hc)]
  rfl

/-- Every number is written in digits. -/
theorem writes_toDigits (n : Nat) : Writes n (Nat.toDigits 10 n) := by
  have hdigits : ∀ c ∈ Nat.toDigits 10 n, c.isDigit = true := fun c hc => isDigit_of_mem hc
  exact ⟨Or.inl (areDigits_of_forall Nat.toDigits_ne_nil hdigits), filter_isSeparator hdigits⟩

/-- A number is written in any groups of three of its digits, after any separators. -/
theorem writes_of_groups {n : Nat} {lead : List Char} {groups : List (Char × List Char)}
    (hdigits : lead ++ (groups.map Prod.snd).flatten = Nat.toDigits 10 n) (hlead : lead ≠ [])
    (hlength : lead.length ≤ 3) (hgroups : groups ≠ [])
    (hgroup : ∀ g ∈ groups, isSeparator g.1 = true ∧ g.2.length = 3) :
    Writes n (lead ++ (groups.map fun g => g.1 :: g.2).flatten) := by
  have hmem : ∀ c ∈ lead ++ (groups.map Prod.snd).flatten, c.isDigit = true :=
    fun c hc => isDigit_of_mem (hdigits ▸ hc)
  rw [List.forall_mem_append] at hmem
  have hdigit : ∀ g ∈ groups, ∀ c ∈ g.2, c.isDigit = true :=
    fun g hg c hc => hmem.2 c (List.mem_flatten_of_mem (List.mem_map_of_mem hg) hc)
  constructor
  · refine Or.inr ⟨lead, groups.map fun g => g.1 :: g.2, rfl, areDigits_of_forall hlead hmem.1,
      hlength, by simpa using hgroups, List.forall_mem_map.2 fun g hg => ?_⟩
    obtain ⟨hseparator, hthree⟩ := hgroup g hg
    refine ⟨g.1, g.2, rfl, hseparator, areDigits_of_forall ?_ (hdigit g hg), hthree⟩
    exact List.ne_nil_of_length_eq_add_one hthree
  · rw [List.filter_append, filter_isSeparator hmem.1, List.filter_flatten, List.map_map, ← hdigits]
    congr 2
    apply List.map_congr_left
    intro g hg
    have hcons : (g.1 :: g.2).filter (fun c => !isSeparator c) = g.2 := by
      rw [List.filter_cons_of_neg (by simp [(hgroup g hg).1]), filter_isSeparator (hdigit g hg)]
    exact hcons

end Text

namespace Pattern

/-! ### Repetitions -/

theorem Fits.one_reads {cls : CharClass} {c d : Cursor} (h : Fits (Pattern.one cls) c d) :
    ∃ a, cls.has a = true ∧ c.Reads [a] d := by
  cases h with
  | one hrest ha => exact ⟨_, ha, hrest, rfl⟩

/-- Repetitions read a row of what is repeated. -/
theorem Fits.exists_flatten {p : Pattern} {P : List Char → Prop} {c d : Cursor}
    (h : Fits (many p) c d) (hp : ∀ {c d}, Fits p c d → ∃ x, P x ∧ c.Reads x d) :
    ∃ xs, xs ≠ [] ∧ (∀ x ∈ xs, P x) ∧ c.Reads xs.flatten d := by
  generalize hq : many p = q at h
  induction h with
  | empty | one | edge | seq | left | right | part => cases hq
  | once h =>
    cases hq
    obtain ⟨x, hx, hr⟩ := hp h
    exact ⟨[x], by simp, by simpa using hx, by simpa using hr⟩
  | more h _ _ ih =>
    cases hq
    obtain ⟨x, hx, hr⟩ := hp h
    obtain ⟨xs, -, hxs, hrs⟩ := ih rfl
    exact ⟨x :: xs, by simp, List.forall_mem_cons.2 ⟨hx, hxs⟩, hr.trans hrs⟩

/-- Repetitions fit a row of what is repeated. -/
theorem fits_many_flatten {p : Pattern} {P : List Char → Prop}
    (hp : ∀ {c : Cursor} {x rest : List Char}, P x → c.rest = x ++ rest → Fits p c (c.advance x)) :
    ∀ {xs : List (List Char)} {c : Cursor} {rest : List Char}, xs ≠ [] → (∀ x ∈ xs, P x) →
      c.rest = xs.flatten ++ rest → Fits (many p) c (c.advance xs.flatten)
  | [x], c, rest, _, hx, hrest => by
    rw [List.flatten_singleton] at hrest ⊢
    exact .once (hp (hx x List.mem_cons_self) hrest)
  | x :: y :: xs, c, rest, _, hx, hrest => by
    rw [List.flatten_cons] at hrest ⊢
    rw [List.append_assoc] at hrest
    rw [← Cursor.advance_append]
    apply Fits.more (hp (hx x List.mem_cons_self) hrest)
    exact fits_many_flatten hp (List.cons_ne_nil y xs)
      (fun z hz => hx z (List.mem_cons_of_mem x hz)) (Cursor.reads_advance hrest).2

end Pattern

namespace AmountPhrase

open Pattern

theorem has_separator (c : Char) : separator.has c = isSeparator c := by
  have hsign : ∀ k ∈ ['.', ','], k.toNat < 0x80 ∧ k.isLower = false := by decide
  have hself : ∀ k ∈ ['.', ','], caseKey k = k := by decide
  have hkeys : ∀ k ∈ ['.', ','], caseKey c = k ↔ c = k := by
    intro k hk
    constructor
    · intro h
      obtain ⟨hascii, hlower⟩ := hsign k hk
      exact eq_of_caseKey_eq h hascii hlower
    · rintro rfl
      exact hself c hk
  have hdot := hkeys '.' (by decide)
  have hcomma := hkeys ',' (by decide)
  show (['.', ','].contains (caseKey c)) = _
  rw [Bool.eq_iff_iff]
  simp [isSeparator, hdot, hcomma]

variable {c d : Cursor} {x rest : List Char}

/-! ### What is read of a number -/

theorem exists_of_fits_group (h : Fits group c d) : ∃ x, IsGroup x ∧ c.Reads x d := by
  cases h with
  | seq h h₄ =>
  cases h with
  | seq h h₃ =>
  cases h with
  | seq h₁ h₂ =>
  obtain ⟨a, ha, hr₁⟩ := Fits.one_reads h₁
  obtain ⟨x, hx, hr₂⟩ := Fits.one_reads h₂
  obtain ⟨y, hy, hr₃⟩ := Fits.one_reads h₃
  obtain ⟨z, hz, hr₄⟩ := Fits.one_reads h₄
  refine ⟨[a, x, y, z], ⟨a, [x, y, z], rfl, has_separator a ▸ ha, ⟨by simp, ?_⟩, rfl⟩,
    ((hr₁.trans hr₂).trans hr₃).trans hr₄⟩
  simpa using ⟨hx, hy, hz⟩

theorem exists_of_fits_leadingDigits (h : Fits leadingDigits c d) :
    ∃ x, AreDigits x ∧ x.length ≤ 3 ∧ c.Reads x d := by
  cases h with
  | seq h₁ h =>
  obtain ⟨x, hx, hr₁⟩ := Fits.one_reads h₁
  cases h with
  | right _ h =>
    cases h with
    | empty => exact ⟨[x], ⟨by simp, List.forall_mem_singleton.2 hx⟩, by simp, hr₁⟩
  | left _ h =>
    cases h with
    | seq h₂ h =>
    obtain ⟨y, hy, hr₂⟩ := Fits.one_reads h₂
    cases h with
    | right _ h =>
      cases h with
      | empty => exact ⟨[x, y], ⟨by simp, by simpa using ⟨hx, hy⟩⟩, by simp, hr₁.trans hr₂⟩
    | left _ h₃ =>
      obtain ⟨z, hz, hr₃⟩ := Fits.one_reads h₃
      exact ⟨[x, y, z], ⟨by simp, by simpa using ⟨hx, hy, hz⟩⟩, by simp,
        (hr₁.trans hr₂).trans hr₃⟩

theorem exists_of_fits_amount (h : Fits amount c d) : ∃ x, IsNumeral x ∧ c.Reads x d := by
  rw [amount_eq] at h
  cases h with
  | left _ h =>
    cases h with
    | seq hlead hgroups =>
    obtain ⟨lead, hdigits, hlength, hr⟩ := exists_of_fits_leadingDigits hlead
    obtain ⟨groups, hne, hgroup, hrs⟩ := hgroups.exists_flatten exists_of_fits_group
    exact ⟨_, Or.inr ⟨lead, groups, rfl, hdigits, hlength, hne, hgroup⟩, hr.trans hrs⟩
  | right _ h =>
    obtain ⟨x, hne, hdigit, hr⟩ := h.exists_run
    exact ⟨x, Or.inl ⟨hne, hdigit⟩, hr⟩

/-! ### Every numeral is read -/

theorem fits_group (hx : IsGroup x) (hrest : c.rest = x ++ rest) : Fits group c (c.advance x) := by
  obtain ⟨a, ds, rfl, ha, hds, hlength⟩ := hx
  obtain ⟨x, y, z, rfl⟩ := List.length_eq_three.1 hlength
  obtain ⟨hx, hy, hz⟩ : isDigit x = true ∧ isDigit y = true ∧ isDigit z = true := by
    simpa using hds.digit
  rw [← Cursor.advance_step hrest, ← Cursor.advance_step rfl, ← Cursor.advance_step rfl,
    ← Cursor.advance_step rfl, Cursor.advance_nil]
  exact .seq (.seq (.seq (.one hrest (has_separator a ▸ ha)) (.one rfl hx)) (.one rfl hy))
    (.one rfl hz)

theorem fits_leadingDigits (hx : AreDigits x) (hlength : x.length ≤ 3)
    (hrest : c.rest = x ++ rest) : Fits leadingDigits c (c.advance x) := by
  obtain ⟨hne, hdigit⟩ := hx
  rcases x with - | ⟨x, - | ⟨y, - | ⟨z, - | ⟨v, x'⟩⟩⟩⟩
  · exact absurd rfl hne
  · rw [← Cursor.advance_step hrest, Cursor.advance_nil]
    exact .seq (.one hrest (hdigit x (by simp))) (.right _ (.empty _))
  · rw [← Cursor.advance_step hrest, ← Cursor.advance_step rfl, Cursor.advance_nil]
    exact .seq (.one hrest (hdigit x (by simp)))
      (.left _ (.seq (.one rfl (hdigit y (by simp))) (.right _ (.empty _))))
  · rw [← Cursor.advance_step hrest, ← Cursor.advance_step rfl, ← Cursor.advance_step rfl,
      Cursor.advance_nil]
    exact .seq (.one hrest (hdigit x (by simp)))
      (.left _ (.seq (.one rfl (hdigit y (by simp))) (.left _ (.one rfl (hdigit z (by simp))))))
  · simp only [List.length_cons] at hlength
    omega

theorem fits_amount (hx : IsNumeral x) (hrest : c.rest = x ++ rest) :
    Fits amount c (c.advance x) := by
  rw [amount_eq]
  rcases hx with hx | ⟨lead, groups, rfl, hlead, hlength, hne, hgroups⟩
  · have hclass : ∀ e ∈ x, CharClass.digit.has e = true := hx.digit
    exact .right _ (fits_many_one hx.ne_nil hclass hrest)
  · rw [List.append_assoc] at hrest
    rw [← Cursor.advance_append]
    exact .left _ (.seq (fits_leadingDigits hlead hlength hrest)
      (fits_many_flatten fits_group hne hgroups (Cursor.reads_advance hrest).2))

end AmountPhrase

end CrmQuery
