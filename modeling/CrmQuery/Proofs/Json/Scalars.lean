import CrmQuery.Json.Reader
import CrmQuery.Json.Writer
import CrmQuery.Proofs.Text.Blank
import CrmQuery.Proofs.Text.Numerals

/-!
# Numbers read back

A number or a word is read in the same way whatever follows it, as long as a number does not go on
(`Json.readScalar_append`).
-/

namespace CrmQuery.Json

open Text

/-- A number that comes before the text ends there. -/
def Stops (rest : List Char) : Prop :=
  ∀ c ∈ rest.head?, c.isDigit = false ∧ c ∉ ['.', 'e', 'E', '+', '-']

theorem skip_append {b : List Char} {k : Nat} (h : k ≤ b.length) (pos : Nat) (rest : List Char) :
    Input.skip k ⟨pos, b ++ rest⟩ = ⟨pos + k, b.drop k ++ rest⟩ := by
  unfold Input.skip
  rw [List.drop_append_of_le_length h]

/-- An exponent without a sign. -/
theorem exponent?_unsigned {e : Char} (he : e = 'e' ∨ e = 'E') {t : List Char}
    (hminus : t.head? ≠ some '-') (hplus : t.head? ≠ some '+') : exponent? (e :: t) =
      if (t.takeWhile Char.isDigit).isEmpty then none
      else some ((numeral (t.takeWhile Char.isDigit) : Int),
        1 + (t.takeWhile Char.isDigit).length) := by
  rw [exponent?, if_pos he]
  · rfl
  · rintro r rfl
    exact hminus rfl
  · rintro r rfl
    exact hplus rfl

section Append

variable {rest : List Char} (hrest : Stops rest)
include hrest

theorem takeWhile_isDigit_append (b : List Char) :
    (b ++ rest).takeWhile Char.isDigit = b.takeWhile Char.isDigit :=
  takeWhile_append_of_head? b fun c hc => (hrest c hc).1

theorem fraction?_append (b : List Char) : fraction? (b ++ rest) = fraction? b := by
  cases b with
  | nil =>
    have hnone : fraction? rest = none := by
      unfold fraction?
      split
      · exact absurd (hrest '.' rfl).2 (by decide)
      · rfl
    exact hnone
  | cons c b =>
    by_cases hc : c = '.'
    · subst hc
      simp only [List.cons_append, fraction?, takeWhile_isDigit_append hrest]
    · have hnone : ∀ t, fraction? (c :: t) = none := by
        intro t
        unfold fraction?
        split
        · rename_i h
          exact absurd (List.cons.inj h).1 hc
        · rfl
      rw [List.cons_append, hnone, hnone]

theorem head?_append_ne {c : Char} (hc : c ∈ ['.', 'e', 'E', '+', '-']) {b : List Char}
    (hb : b.head? ≠ some c) : (b ++ rest).head? ≠ some c := by
  cases b with
  | nil => exact fun h => (hrest c h).2 hc
  | cons d b => exact hb

theorem exponent?_append (b : List Char) : exponent? (b ++ rest) = exponent? b := by
  have hnone : ∀ t : List Char, t.head? ≠ some 'e' → t.head? ≠ some 'E' → exponent? t = none := by
    intro t h h'
    cases t with
    | nil => rfl
    | cons c t =>
      have hc : ¬ (c = 'e' ∨ c = 'E') := by simpa using And.intro h h'
      show (if c = 'e' ∨ c = 'E' then _ else none) = none
      rw [if_neg hc]
  by_cases he : b.head? = some 'e' ∨ b.head? = some 'E'
  · obtain ⟨e, t, rfl⟩ : ∃ e t, b = e :: t := by
      cases b with
      | nil => simp at he
      | cons e t => exact ⟨e, t, rfl⟩
    have hexp : e = 'e' ∨ e = 'E' := by simpa using he
    rw [List.cons_append]
    by_cases hminus : t.head? = some '-'
    · obtain ⟨t, rfl⟩ := List.head?_eq_some_iff.1 hminus
      simp only [exponent?, if_pos hexp, List.cons_append, takeWhile_isDigit_append hrest]
    · by_cases hplus : t.head? = some '+'
      · obtain ⟨t, rfl⟩ := List.head?_eq_some_iff.1 hplus
        simp only [exponent?, if_pos hexp, List.cons_append, takeWhile_isDigit_append hrest]
      · rw [exponent?_unsigned hexp hminus hplus,
          exponent?_unsigned hexp (head?_append_ne hrest (by decide) hminus)
            (head?_append_ne hrest (by decide) hplus), takeWhile_isDigit_append hrest]
  · rw [not_or] at he
    rw [hnone b he.1 he.2, hnone _ (head?_append_ne hrest (by decide) he.1)
      (head?_append_ne hrest (by decide) he.2)]

end Append

/-! ### Widths -/

theorem length_fraction?_lt {b ds : List Char} (h : fraction? b = some ds) :
    ds.length + 1 ≤ b.length := by
  unfold fraction? at h
  split at h
  · dsimp only at h
    split_ifs at h
    cases h
    exact Nat.succ_le_succ (List.takeWhile_sublist _).length_le
  · cases h

theorem width_exponent?_le {b : List Char} {e : Int} {width : Nat}
    (h : exponent? b = some (e, width)) : width ≤ b.length := by
  unfold exponent? at h
  split at h
  · rename_i c cs
    split_ifs at h
    split at h
    rename_i negative w t hsign
    have hwidth : w + t.length = (c :: cs).length := by
      split at hsign <;> cases hsign <;> simp only [List.length_cons] <;> omega
    have hdigits := (List.takeWhile_sublist (p := Char.isDigit) (l := t)).length_le
    dsimp only at h
    split_ifs at h
    all_goals
      cases h
      omega
  · cases h

/-! ### Numbers -/

/-- A number begins with a digit. -/
theorem exists_digit_of_readUnsigned {start : Input} {negative : Bool} {pos : Nat} {b : List Char}
    {r : Json × Input} (h : readUnsigned start negative ⟨pos, b⟩ = .ok r) :
    ∃ d cs, b = d :: cs ∧ d.isDigit = true := by
  cases b with
  | nil => cases h
  | cons d cs =>
    refine ⟨d, cs, rfl, ?_⟩
    by_contra hd
    simp [readUnsigned, hd, Input.fail] at h

/-- A number is read in the same way whatever follows it. -/
theorem readUnsigned_append {rest : List Char} (hrest : Stops rest) {start : Input}
    {negative : Bool} {pos : Nat} {b : List Char} {v : Json} {s : Input}
    (h : readUnsigned start negative ⟨pos, b⟩ = .ok (v, s)) (start' : Input) (pos' : Nat) :
    ∃ pos'', readUnsigned start' negative ⟨pos', b ++ rest⟩ = .ok (v, ⟨pos'', s.rest ++ rest⟩) := by
  obtain ⟨d, cs, rfl, hd⟩ := exists_digit_of_readUnsigned h
  -- The parts of the number and their widths are the same in both texts.
  obtain ⟨whole, hw, hw', hwidth⟩ : ∃ whole,
      (if d = '0' then ['0'] else (d :: cs).takeWhile Char.isDigit) = whole ∧
      (if d = '0' then ['0'] else (d :: cs ++ rest).takeWhile Char.isDigit) = whole ∧
      whole.length ≤ (d :: cs).length := by
    refine ⟨_, rfl, by rw [takeWhile_isDigit_append hrest], ?_⟩
    split_ifs
    · exact Nat.succ_le_succ (Nat.zero_le _)
    · exact (List.takeWhile_sublist _).length_le
  obtain ⟨t, ht⟩ : ∃ t, (d :: cs).drop whole.length = t := ⟨_, rfl⟩
  obtain ⟨f, hf⟩ : ∃ f, fraction? t = f := ⟨_, rfl⟩
  obtain ⟨k, hk, hkwidth⟩ : ∃ k, (if f.isSome then (f.getD []).length + 1 else 0) = k ∧
      k ≤ t.length := by
    refine ⟨_, rfl, ?_⟩
    cases f with
    | none => exact Nat.zero_le _
    | some ds => exact length_fraction?_lt hf
  obtain ⟨u, hu⟩ : ∃ u, t.drop k = u := ⟨_, rfl⟩
  obtain ⟨e, he⟩ : ∃ e, exponent? u = e := ⟨_, rfl⟩
  have hewidth : (e.map (·.2)).getD 0 ≤ u.length := by
    cases e with
    | none => exact Nat.zero_le _
    | some e => exact width_exponent?_le he
  unfold readUnsigned at h ⊢
  simp only [if_pos hd, hw, Input.skip, ht, hf, hk, hu, he] at h
  simp only [List.cons_append, if_pos hd]
  rw [← List.cons_append, hw']
  simp only [skip_append hwidth, ht, fraction?_append hrest, hf, hk, skip_append hkwidth, hu,
    exponent?_append hrest, he, skip_append hewidth]
  split_ifs at h ⊢
  all_goals
    cases h
    exact ⟨_, rfl⟩

theorem readWord_append {rest : List Char} {word : String} {value v : Json} {pos : Nat}
    {b : List Char} {s : Input} (h : readWord word value ⟨pos, b⟩ = .ok (v, s)) (pos' : Nat) :
    ∃ pos'', readWord word value ⟨pos', b ++ rest⟩ = .ok (v, ⟨pos'', s.rest ++ rest⟩) := by
  unfold readWord at h ⊢
  split_ifs at h with hword
  · obtain ⟨t, rfl⟩ := List.isPrefixOf_iff_prefix.1 hword
    have hword' : word.toList.isPrefixOf (word.toList ++ t ++ rest) = true := by
      rw [List.isPrefixOf_iff_prefix, List.append_assoc]
      exact List.prefix_append _ _
    have hwidth : word.length ≤ (word.toList ++ t).length := by
      rw [List.length_append, String.length_toList]
      exact Nat.le_add_right _ _
    cases h
    exact ⟨_, by rw [if_pos hword', skip_append hwidth]; rfl⟩
  · cases h

theorem readScalar_digit {d : Char} (hd : d.isDigit = true) (pos : Nat) (t : List Char) :
    readScalar ⟨pos, d :: t⟩ = readUnsigned ⟨pos, d :: t⟩ false ⟨pos, d :: t⟩ := by
  unfold readScalar
  dsimp only
  split
  case h_8 => rfl
  all_goals
    rename_i h
    obtain ⟨rfl, -⟩ := List.cons.inj h
    cases hd

theorem readScalar_minus {d : Char} (hd : d.isDigit = true) (pos : Nat) (t : List Char) :
    readScalar ⟨pos, '-' :: d :: t⟩ =
      readUnsigned ⟨pos, '-' :: d :: t⟩ true ⟨pos + 1, d :: t⟩ := by
  unfold readScalar
  dsimp only
  split
  case h_6 =>
    rename_i h
    obtain ⟨-, h⟩ := List.cons.inj h
    obtain ⟨rfl, -⟩ := List.cons.inj h
    cases hd
  case h_7 => rfl
  case h_8 =>
    rename_i hnot
    exact (hnot _ rfl).elim
  all_goals
    rename_i h
    cases h

/-- A number or a word is read in the same way whatever follows it. -/
theorem readScalar_append {rest : List Char} (hrest : Stops rest) {pos : Nat} {b : List Char}
    {v : Json} {s : Input} (h : readScalar ⟨pos, b⟩ = .ok (v, s)) (pos' : Nat) :
    ∃ pos'', readScalar ⟨pos', b ++ rest⟩ = .ok (v, ⟨pos'', s.rest ++ rest⟩) := by
  unfold readScalar at h
  dsimp only at h
  split at h
  · exact readWord_append h pos'
  · exact readWord_append h pos'
  · exact readWord_append h pos'
  · exact readWord_append h pos'
  · exact readWord_append h pos'
  · exact readWord_append h pos'
  · rename_i cs _
    obtain ⟨d, t, rfl, hd⟩ := exists_digit_of_readUnsigned (b := cs) h
    obtain ⟨pos'', hread⟩ := readUnsigned_append hrest h ⟨pos', '-' :: d :: t ++ rest⟩ (pos' + 1)
    exact ⟨pos'', (readScalar_minus hd pos' (t ++ rest)).trans hread⟩
  · obtain ⟨d, t, rfl, hd⟩ := exists_digit_of_readUnsigned h
    obtain ⟨pos'', hread⟩ := readUnsigned_append hrest h ⟨pos', d :: t ++ rest⟩ pos'
    exact ⟨pos'', (readScalar_digit hd pos' (t ++ rest)).trans hread⟩

/-! ### Written values -/

/-- A single value is read from its own text, to the end of it. -/
def ReadsBack (v : Json) : Prop := ∃ pos, readScalar ⟨0, (write v).toList⟩ = .ok (v, ⟨pos, []⟩)

/-- A single value is read from its text, and what follows it is left. -/
theorem ReadsBack.append {v : Json} (h : ReadsBack v) {rest : List Char} (hrest : Stops rest)
    (pos : Nat) : ∃ pos', readScalar ⟨pos, (write v).toList ++ rest⟩ = .ok (v, ⟨pos', rest⟩) := by
  obtain ⟨pos', hread⟩ := h
  exact readScalar_append hrest hread pos

theorem readsBack_null : ReadsBack null := ⟨4, rfl⟩

theorem readsBack_bool (b : Bool) : ReadsBack (bool b) := by
  cases b
  · exact ⟨5, rfl⟩
  · exact ⟨4, rfl⟩

/-- Only the text of zero begins with a zero. -/
theorem eq_zero_of_head?_toDigits {n : Nat} (h : (Nat.toDigits 10 n).head? = some '0') : n = 0 := by
  induction n using Nat.strong_induction_on with
  | _ n ih =>
    by_cases hn : n < 10
    · have hdigit : ∀ k : Fin 10, k.val.digitChar = '0' → k.val = 0 := by decide
      rw [Nat.toDigits_of_lt_base hn] at h
      exact hdigit ⟨n, hn⟩ (Option.some.inj h)
    · rw [Nat.toDigits_of_base_le (by decide) (by omega),
        List.head?_append_of_ne_nil _ Nat.toDigits_ne_nil] at h
      have := ih (n / 10) (by omega) h
      omega

/-- The digits of a number are read as the number. -/
theorem readUnsigned_toDigits {n : Nat} (h : n < 10 ^ maxNumeralDigits) (start : Input)
    (negative : Bool) (pos : Nat) : ∃ pos',
      readUnsigned start negative ⟨pos, Nat.toDigits 10 n⟩ =
        .ok (int (if negative then -(n : Int) else n), ⟨pos', []⟩) := by
  obtain ⟨ds, hds⟩ : ∃ ds, Nat.toDigits 10 n = ds := ⟨_, rfl⟩
  have hdigits : ∀ c ∈ ds, c.isDigit = true := fun c hc => isDigit_of_mem (hds ▸ hc)
  have hnumeral : numeral ds = n := hds ▸ numeral_toDigits n
  have hshort : ¬ maxNumeralDigits < ds.length := by
    rw [Nat.not_lt, ← hds]
    exact (Nat.length_toDigits_le_iff (by decide) (by decide)).2 h
  obtain ⟨d, cs, rfl⟩ : ∃ d cs, ds = d :: cs :=
    List.exists_cons_of_ne_nil (hds ▸ Nat.toDigits_ne_nil)
  have hwhole : (if d = '0' then ['0'] else (d :: cs).takeWhile Char.isDigit) = d :: cs := by
    split_ifs with hd
    · have hzero : n = 0 := eq_zero_of_head?_toDigits (by rw [hds, hd]; rfl)
      rw [← hds, hzero]
      rfl
    · exact List.takeWhile_eq_self_iff.2 hdigits
  refine ⟨pos + (d :: cs).length, ?_⟩
  rw [hds, readUnsigned]
  simp only [if_pos (hdigits d List.mem_cons_self), hwhole, Input.skip, List.drop_length, fraction?,
    exponent?, Option.isSome_none, Option.map_none, Option.getD_none, Bool.or_self, if_neg hshort,
    hnumeral, List.drop_nil]
  rfl

theorem readsBack_int {i : Int} (h : i.natAbs < 10 ^ maxNumeralDigits) : ReadsBack (int i) := by
  have hdigit : ∀ n, ∃ d t, Nat.toDigits 10 n = d :: t ∧ d.isDigit = true := by
    intro n
    obtain ⟨d, t, hdt⟩ := List.exists_cons_of_ne_nil (Nat.toDigits_ne_nil (b := 10) (n := n))
    exact ⟨d, t, hdt, isDigit_of_mem (hdt ▸ List.mem_cons_self)⟩
  cases i with
  | ofNat n =>
    have htext : (write (int (.ofNat n))).toList = Nat.toDigits 10 n := toList_toString n
    obtain ⟨d, t, hdt, hd⟩ := hdigit n
    obtain ⟨pos, hread⟩ := readUnsigned_toDigits (n := n) h ⟨0, Nat.toDigits 10 n⟩ false 0
    refine ⟨pos, ?_⟩
    rw [htext]
    rw [hdt] at hread ⊢
    exact (readScalar_digit hd 0 t).trans hread
  | negSucc m =>
    have htext : (write (int (.negSucc m))).toList = '-' :: Nat.toDigits 10 (m + 1) := by
      show ("-" ++ toString (m + 1)).toList = _
      rw [String.toList_append, toList_toString]
      rfl
    obtain ⟨d, t, hdt, hd⟩ := hdigit (m + 1)
    obtain ⟨pos, hread⟩ := readUnsigned_toDigits (n := m + 1) h
      ⟨0, '-' :: Nat.toDigits 10 (m + 1)⟩ true 1
    refine ⟨pos, ?_⟩
    rw [htext]
    rw [hdt] at hread ⊢
    exact (readScalar_minus hd 0 t).trans hread

end CrmQuery.Json
