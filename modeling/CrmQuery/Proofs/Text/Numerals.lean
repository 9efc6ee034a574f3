import CrmQuery.Text.Digit
import CrmQuery.Proofs.Text.Words
import Mathlib.Algebra.GroupWithZero.Nat
import Mathlib.Tactic.Ring

/-!
# Decimal numerals

The text of a natural number consists of digits, and `readNumeral` reads it back
(`readNumeral_toDigits`) unless it has too many of them.
-/

namespace CrmQuery.Text

/-! ### Digits of ASCII -/

section Digit

variable {c : Char}

theorem isDigit_bounds (h : c.isDigit = true) : 48 ≤ c.toNat ∧ c.toNat ≤ 57 := by
  simpa [Char.isDigit, UInt32.le_iff_toNat_le] using h

theorem digit?_of_isDigit (h : c.isDigit = true) : digit? c = some (c.toNat - 48) := by
  obtain ⟨h₁, h₂⟩ := isDigit_bounds h
  unfold digit? zeros
  rw [digitFrom?, if_neg (by omega), if_pos (by omega)]

theorem isDigit_of_isDigit (h : c.isDigit = true) : isDigit c = true := by
  unfold isDigit
  rw [digit?_of_isDigit h]
  rfl

theorem isWord_of_isDigit (h : c.isDigit = true) : isWord c = true := by
  obtain ⟨h₁, h₂⟩ := isDigit_bounds h
  unfold isWord wordRanges
  rw [Ranges.has, if_neg (by omega), Bool.or_eq_true]
  exact Or.inl (decide_eq_true h₂)

theorem caseKey_of_isDigit (h : c.isDigit = true) : caseKey c = c := by
  obtain ⟨h₁, h₂⟩ := isDigit_bounds h
  have hcapital : ¬ (c.val ≥ 'A'.val ∧ c.val ≤ 'Z'.val) := by
    intro hc
    have hfirst : 65 ≤ c.toNat := UInt32.le_iff_toNat_le.1 hc.1
    omega
  unfold caseKey
  rw [if_pos (by omega)]
  exact dif_neg hcapital

end Digit

/-! ### Digits of all scripts -/

theorem exists_zero_of_digitFrom? : ∀ {zs : List Nat} {n k : Nat}, digitFrom? zs n = some k →
    ∃ z ∈ zs, k < 10 ∧ n = z + k
  | z :: zs, n, k, h => by
    unfold digitFrom? at h
    split_ifs at h with hlt hlt'
    · obtain rfl := Option.some.inj h
      exact ⟨z, List.mem_cons_self, by omega, by omega⟩
    · obtain ⟨z', hz', hk⟩ := exists_zero_of_digitFrom? h
      exact ⟨z', List.mem_cons_of_mem z hz', hk⟩

/-- The zeros that are left when those whose digits lie in one of the ranges are taken off. -/
def uncovered (rs : Ranges) (zs : List Nat) : List Nat :=
  rs.foldl (fun zs r => zs.dropWhile fun z => r.1 ≤ z && z + 9 ≤ r.2) zs

theorem exists_range_of_uncovered {rs : Ranges} {zs : List Nat} {z : Nat} (hz : z ∈ zs)
    (h : z ∉ uncovered rs zs) : ∃ r ∈ rs, r.1 ≤ z ∧ z + 9 ≤ r.2 := by
  induction rs generalizing zs with
  | nil => exact absurd hz h
  | cons r rs ih =>
    have hsplit := List.takeWhile_append_dropWhile (p := fun z => r.1 ≤ z && z + 9 ≤ r.2) (l := zs)
    rw [← hsplit, List.mem_append] at hz
    rcases hz with hz | hz
    · have hr := List.mem_takeWhile_imp hz
      simp only [Bool.and_eq_true, decide_eq_true_eq] at hr
      exact ⟨r, List.mem_cons_self, hr⟩
    · obtain ⟨r', hr', hz⟩ := ih hz h
      exact ⟨r', List.mem_cons_of_mem r hr', hz⟩

/-- Ranges in order have the code points of each of them. -/
theorem Ranges.has_of_mem {rs : Ranges} (hrs : rs.Pairwise fun r s => r.1 ≤ s.1) {r : Nat × Nat}
    (hr : r ∈ rs) {n : Nat} (hlo : r.1 ≤ n) (hhi : n ≤ r.2) : rs.has n = true := by
  induction hrs with
  | nil => cases hr
  | @cons s rs hs _ ih =>
    rcases List.mem_cons.1 hr with rfl | hr
    · simp [has, Nat.not_lt.2 hlo, hhi]
    · have hbelow : ¬ n < s.1 := Nat.not_lt.2 ((hs r hr).trans hlo)
      simp [has, hbelow, ih hr]

/-- Digits are word characters. -/
theorem isWord_of_digit {c : Char} (h : isDigit c = true) : isWord c = true := by
  obtain ⟨k, hk⟩ := Option.isSome_iff_exists.1 h
  obtain ⟨z, hz, hlt, hc⟩ := exists_zero_of_digitFrom? hk
  have hchain : wordRanges.IsChain fun r s => r.1 ≤ s.1 := by decide +kernel
  have hnone : uncovered wordRanges zeros = [] := by decide +kernel
  have hcovered : z ∉ uncovered wordRanges zeros := hnone ▸ List.not_mem_nil
  obtain ⟨r, hr, hlo, hhi⟩ := exists_range_of_uncovered hz hcovered
  rw [isWord, hc]
  exact Ranges.has_of_mem (List.isChain_iff_pairwise.1 hchain) hr (by omega) (by omega)

theorem readNumeral_eq_ok {ds : List Char} (h : ds.length ≤ maxNumeralDigits) :
    readNumeral ds = .ok (numeral ds) :=
  if_neg (Nat.not_lt.2 h)

/-! ### Numbers of digits -/

theorem numeral_concat (ds : List Char) (d : Char) :
    numeral (ds ++ [d]) = 10 * numeral ds + (digit? d).getD 0 := by
  unfold numeral
  rw [List.foldl_append]
  rfl

/-- The number that two runs of digits after one another write. -/
theorem numeral_append (ds es : List Char) :
    numeral (ds ++ es) = numeral ds * 10 ^ es.length + numeral es := by
  induction es generalizing ds with
  | nil => rw [List.append_nil, List.length_nil, pow_zero, mul_one]; rfl
  | cons e es ih =>
    have hds : numeral (ds ++ e :: es) = numeral (ds ++ [e]) * 10 ^ es.length + numeral es := by
      rw [← ih, List.append_assoc, List.singleton_append]
    have hes : numeral (e :: es) = numeral [e] * 10 ^ es.length + numeral es := ih [e]
    have hsingle : numeral [e] = (digit? e).getD 0 :=
      (numeral_concat [] e).trans (Nat.zero_add _)
    rw [hds, hes, numeral_concat, hsingle, List.length_cons, pow_succ]
    ring

theorem numeral_replicate (k : Nat) : numeral (List.replicate k '0') = 0 := by
  have hzero : (digit? '0').getD 0 = 0 := by decide
  induction k with
  | zero => rfl
  | succ k ih => rw [List.replicate_succ', numeral_concat, ih, hzero]

/-- Zeros in front of a number do not count. -/
theorem numeral_replicate_append (k : Nat) (ds : List Char) :
    numeral (List.replicate k '0' ++ ds) = numeral ds := by
  rw [numeral_append, numeral_replicate, zero_mul, zero_add]

/-- A zero after a number counts ten times. -/
theorem numeral_append_replicate (ds : List Char) (k : Nat) :
    numeral (ds ++ List.replicate k '0') = numeral ds * 10 ^ k := by
  rw [numeral_append, numeral_replicate, List.length_replicate, add_zero]

/-! ### Numerals of natural numbers -/

theorem toList_toString (n : Nat) : (toString n).toList = Nat.toDigits 10 n := by
  simp

theorem isDigit_of_mem {n : Nat} {c : Char} (h : c ∈ Nat.toDigits 10 n) : c.isDigit = true :=
  Nat.isDigit_of_mem_toDigits (by decide) (by decide) h

theorem forall_isDigit_zeros {k : Nat} : ∀ c ∈ List.replicate k '0', c.isDigit = true := by
  intro c hc
  rw [List.eq_of_mem_replicate hc]
  rfl

theorem forall_isDigit_append {ds es : List Char} (hds : ∀ c ∈ ds, c.isDigit = true)
    (hes : ∀ c ∈ es, c.isDigit = true) : ∀ c ∈ ds ++ es, c.isDigit = true := by
  intro c hc
  exact (List.mem_append.1 hc).elim (hds c) (hes c)

theorem numeral_eq_ofDigitChars {ds : List Char} (h : ∀ c ∈ ds, c.isDigit = true) (init : Nat) :
    ds.foldl (fun n d => 10 * n + (digit? d).getD 0) init = Nat.ofDigitChars 10 ds init := by
  induction ds generalizing init with
  | nil => rfl
  | cons d ds ih =>
    rw [List.foldl_cons, ih fun c hc => h c (List.mem_cons_of_mem d hc),
      digit?_of_isDigit (h d List.mem_cons_self), Nat.ofDigitChars_cons]
    rfl

theorem numeral_toDigits (n : Nat) : numeral (Nat.toDigits 10 n) = n := by
  unfold numeral
  rw [numeral_eq_ofDigitChars fun c hc => isDigit_of_mem hc]
  exact Nat.ofDigitChars_ten_toDigits

theorem readNumeral_toDigits (n : Nat) :
    readNumeral (Nat.toDigits 10 n) =
      if n < 10 ^ maxNumeralDigits then .ok n
      else .error ⟨(Nat.toDigits 10 n).length⟩ := by
  have h : (Nat.toDigits 10 n).length ≤ maxNumeralDigits ↔ n < 10 ^ maxNumeralDigits :=
    Nat.length_toDigits_le_iff (by decide) (by decide)
  unfold readNumeral
  rw [numeral_toDigits]
  by_cases hn : n < 10 ^ maxNumeralDigits
  · rw [if_neg (Nat.not_lt.2 (h.2 hn)), if_pos hn]
  · rw [if_pos (Nat.lt_of_not_le fun hle => hn (h.1 hle)), if_neg hn]

/-- A number of a few digits is not too long. -/
theorem lt_pow_maxNumeralDigits {n : Nat} (h : n < 10 ^ 3) : n < 10 ^ maxNumeralDigits :=
  Nat.lt_of_lt_of_le h (Nat.pow_le_pow_right (by decide) (by decide))

/-- A number is no word that has a letter. -/
theorem avoids_toDigits {bad : List String} (hbad : ∀ v ∈ bad, v.toList.all Char.isDigit = false)
    (n : Nat) : Avoids bad (Nat.toDigits 10 n) := by
  refine avoids_of_forall (fun c hc => isWord_of_isDigit (isDigit_of_mem hc)) fun hmem => ?_
  obtain ⟨v, hv, hvn⟩ := List.mem_map.1 hmem
  obtain ⟨c, hc, hdigit⟩ := List.all_eq_false.1 (hbad v hv)
  have hkeys : (Nat.toDigits 10 n).map caseKey = Nat.toDigits 10 n :=
    (List.map_congr_left fun d hd => caseKey_of_isDigit (isDigit_of_mem hd)).trans (List.map_id _)
  rw [hvn, hkeys] at hc
  exact hdigit (isDigit_of_mem hc)

end CrmQuery.Text
