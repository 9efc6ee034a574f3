import CrmQuery.Proofs.Decimal.Doubles

/-!
# Rounding to the nearest double

Products and quotients are rounded to the nearest double.  The numbers that are rounded to a double
are those of an interval around it (`Admits`), and `roundWithAccuracy_eq` says that rounding finds
the double from every number of its interval.
-/

namespace CrmQuery

open Float.Model (Format UnpackedFloat totalExponent)
open Float.Model.UnpackedFloat

/-! ### Rounding quotients of integers -/

/-- The integer nearest to a quotient is known by its distance. -/
theorem roundDiv_eq {num den m : Nat} (hden : 0 < den) (hlow : 2 * (m * den) ≤ 2 * num + den)
    (hhigh : 2 * num ≤ 2 * (m * den) + den)
    (hodd : m % 2 = 1 → 2 * (m * den) ≠ 2 * num + den ∧ 2 * num ≠ 2 * (m * den) + den) :
    roundDiv num den = m := by
  have hdiv : num = num / den * den + num % den := by rw [Nat.div_add_mod']
  have hmod := Nat.mod_lt num hden
  unfold roundDiv
  generalize num / den = q at *
  generalize num % den = r at *
  -- The nearest integer is the quotient or the one after it.
  obtain rfl | rfl : m = q ∨ m = q + 1 := by
    have hfloor : q ≤ m := by
      by_contra hlt
      have hstep : (m + 1) * den ≤ q * den := Nat.mul_le_mul_right den (Nat.not_le.1 hlt)
      rw [Nat.add_mul] at hstep
      omega
    have hceil : m ≤ q + 1 := by
      by_contra hlt
      have hstep : (q + 1 + 1) * den ≤ m * den := Nat.mul_le_mul_right den (Nat.not_le.1 hlt)
      rw [Nat.add_mul, Nat.add_mul] at hstep
      omega
    omega
  · dsimp only
    split_ifs <;> omega
  · rw [Nat.add_mul] at *
    dsimp only
    split_ifs <;> omega

/-- The mantissa of a quotient and what is left of it. -/
def extended (num den : Nat) : ExtendedMantissa where
  mantissa := num / den
  roundBit := den ≤ 2 * (num % den)
  stickyBit := num % den ≠ 0 ∧ 2 * (num % den) ≠ den

theorem ofMantissaAndAccuracy_eq {num den : Nat} (hden : 0 < den) :
    .ofMantissaAndAccuracy (num / den) (accuracyOfFraction (num % den) den) = extended num den := by
  unfold extended accuracyOfFraction
  generalize num % den = r
  by_cases hzero : r = 0
  · simp [hzero, ExtendedMantissa.ofMantissaAndAccuracy, hden.ne']
  · rw [if_neg hzero]
    rcases Nat.lt_trichotomy (2 * r) den with hlt | heq | hgt
    · rw [Nat.compare_eq_lt.2 hlt]
      simp [ExtendedMantissa.ofMantissaAndAccuracy, hzero, hlt.ne, hlt]
    · rw [Nat.compare_eq_eq.2 heq]
      simp [ExtendedMantissa.ofMantissaAndAccuracy, heq]
    · rw [Nat.compare_eq_gt.2 hgt]
      simp [ExtendedMantissa.ofMantissaAndAccuracy, hzero, hgt.ne', hgt.le]

theorem shiftRightOne_extended (num : Nat) {den : Nat} (hden : 0 < den) :
    (extended num den).shiftRightOne = extended num (den * 2) := by
  have hrest : num % (den * 2) = num % den + den * (num / den % 2) := Nat.mod_mul
  have hmod := Nat.mod_lt num hden
  unfold extended ExtendedMantissa.shiftRightOne
  rw [ExtendedMantissa.mk.injEq, Nat.div_div_eq_div_mul, hrest]
  generalize num % den = r at *
  have hbit := Nat.mod_lt (num / den) (show 0 < 2 by decide)
  generalize num / den % 2 = bit at *
  obtain rfl | rfl : bit = 0 ∨ bit = 1 := by omega
  · refine ⟨rfl, ?_, ?_⟩
    · rw [Bool.eq_iff_iff]
      simp only [bne_self_eq_false, decide_eq_true_eq, Bool.false_eq_true, false_iff]
      omega
    · rw [Bool.eq_iff_iff, Bool.or_eq_true]
      simp only [decide_eq_true_eq]
      omega
  · refine ⟨rfl, ?_, ?_⟩
    · rw [Bool.eq_iff_iff]
      simp only [bne_iff_ne, decide_eq_true_eq]
      omega
    · rw [Bool.eq_iff_iff, Bool.or_eq_true]
      simp only [decide_eq_true_eq]
      omega

theorem shiftRight_extended (num : Nat) {den : Nat} (hden : 0 < den) (k : Nat) :
    extended num den >>> k = extended num (den * 2 ^ k) := by
  show k.repeat ExtendedMantissa.shiftRightOne (extended num den) = _
  induction k with
  | zero => simp [Nat.repeat]
  | succ k ih =>
    rw [Nat.repeat, ih, shiftRightOne_extended num (by positivity), pow_succ, mul_assoc]

theorem roundedMantissa_extended (num : Nat) {den : Nat} (hden : 0 < den) :
    (extended num den).roundedMantissa = roundDiv num den := by
  unfold extended roundDiv
  generalize num / den = q
  generalize num % den = r
  rcases Nat.lt_trichotomy (2 * r) den with hlt | heq | hgt
  · have hbit : decide (den ≤ 2 * r) = false := decide_eq_false (Nat.not_le.2 hlt)
    rw [hbit]
    dsimp only
    rw [if_pos hlt]
    generalize decide (r ≠ 0 ∧ 2 * r ≠ den) = sticky
    cases sticky <;> rfl
  · have hbit : decide (den ≤ 2 * r) = true := decide_eq_true heq.ge
    have hsticky : decide (r ≠ 0 ∧ 2 * r ≠ den) = false := decide_eq_false fun h => h.2 heq
    rw [hbit, hsticky]
    dsimp only
    rw [if_neg heq.not_lt, if_neg heq.not_gt]
    show q + q % 2 = _
    split_ifs <;> omega
  · have hbit : decide (den ≤ 2 * r) = true := decide_eq_true hgt.le
    have hsticky : decide (r ≠ 0 ∧ 2 * r ≠ den) = true :=
      decide_eq_true ⟨by omega, hgt.ne'⟩
    rw [hbit, hsticky]
    dsimp only
    rw [if_neg hgt.not_gt, if_pos hgt]
    rfl

/-! ### Intervals -/

/-- The distance from a double to the middle between it and the next smaller one, in units of its
last place. -/
def margin (m : Nat) (e : Int) : Rat := if m = 2 ^ 52 ∧ e ≠ -1074 then 1 / 4 else 1 / 2

theorem margin_pos (m : Nat) (e : Int) : 0 < margin m e := by
  unfold margin
  split_ifs <;> norm_num

theorem margin_le (m : Nat) (e : Int) : margin m e ≤ 1 / 2 := by
  unfold margin
  split_ifs <;> norm_num

/-- The numbers that are rounded to a double with a mantissa and an exponent; the ends of the
interval belong to it if the mantissa is even. -/
structure Admits (m : Nat) (e : Int) (q : Rat) : Prop where
  low : (m - margin m e) * 2 ^ e ≤ q
  high : q ≤ (m + 1 / 2) * 2 ^ e
  odd : m % 2 = 1 → (m - margin m e) * 2 ^ e < q ∧ q < (m + 1 / 2) * 2 ^ e

theorem two_zpow_pos (e : Int) : (0 : Rat) < 2 ^ e := zpow_pos (by norm_num) e

theorem lt_of_two_zpow_lt {a b : Int} (h : (2 : Rat) ^ a < 2 ^ b) : a < b :=
  (zpow_lt_zpow_iff_right₀ (by norm_num)).1 h

theorem two_zpow_add_natCast (e : Int) (k : Nat) : (2 : Rat) ^ (e + k) = 2 ^ k * 2 ^ e := by
  rw [zpow_add₀ (by norm_num), zpow_natCast, mul_comm]

/-- A double of so many bits is not below the power of two. -/
theorem Admits.exponent_lt {m k : Nat} {e t : Int} {q : Rat} (hq : Admits m e q)
    (hk : (2 : Rat) ^ k ≤ m - margin m e) (hbelow : q < 2 ^ t) : e + k < t := by
  refine lt_of_two_zpow_lt ?_
  rw [two_zpow_add_natCast]
  calc (2 : Rat) ^ k * 2 ^ e ≤ (m - margin m e) * 2 ^ e :=
        mul_le_mul_of_nonneg_right hk (two_zpow_pos e).le
    _ ≤ q := hq.low
    _ < 2 ^ t := hbelow

/-- A double has no more than 53 bits. -/
theorem Admits.lt_exponent {m : Nat} {e t : Int} {q : Rat} (h : IsCanonical m e)
    (hq : Admits m e q) (habove : (2 : Rat) ^ t ≤ q) : t < e + (53 : Nat) := by
  have hm : (m : Rat) + 1 ≤ 2 ^ 53 := by exact_mod_cast h.lt
  refine lt_of_two_zpow_lt ?_
  rw [two_zpow_add_natCast]
  calc (2 : Rat) ^ t ≤ q := habove
    _ ≤ (m + 1 / 2) * 2 ^ e := hq.high
    _ < 2 ^ 53 * 2 ^ e := mul_lt_mul_of_pos_right (by linarith) (two_zpow_pos e)

theorem targetExponent_eq (t : Int) : Format.binary64.targetExponent t = max (t - 53) (-1074) := rfl

section Round

variable {num den : Nat} {f : Int}

/-- The exponent of a quotient bounds it from above. -/
theorem lt_two_zpow (hden : 0 < den) :
    (num / den : Rat) * 2 ^ f < 2 ^ totalExponent (num / den) f := by
  have hlog : num / den < 2 ^ ((num / den).log2 + 1) := Nat.lt_log2_self
  rw [Nat.div_lt_iff_lt_mul hden] at hlog
  have hcast : (num : Rat) < 2 ^ ((num / den).log2 + 1) * den := by exact_mod_cast hlog
  have hquotient : (num / den : Rat) < 2 ^ ((num / den).log2 + 1) :=
    (div_lt_iff₀ (by exact_mod_cast hden)).2 hcast
  have hexponent : totalExponent (num / den) f = f + ((num / den).log2 + 1 : Nat) := by
    unfold totalExponent
    push_cast
    ring
  rw [hexponent, two_zpow_add_natCast]
  exact mul_lt_mul_of_pos_right hquotient (two_zpow_pos f)

/-- The exponent of a quotient bounds it from below. -/
theorem two_zpow_le (hden : 0 < den) (hpos : num / den ≠ 0) :
    (2 : Rat) ^ (totalExponent (num / den) f - 1) ≤ (num / den : Rat) * 2 ^ f := by
  have hlog : 2 ^ (num / den).log2 ≤ num / den := Nat.log2_self_le hpos
  rw [Nat.le_div_iff_mul_le hden] at hlog
  have hcast : (2 : Rat) ^ (num / den).log2 * den ≤ num := by exact_mod_cast hlog
  have hquotient : (2 : Rat) ^ (num / den).log2 ≤ num / den :=
    (le_div_iff₀ (by exact_mod_cast hden)).2 hcast
  have hexponent : totalExponent (num / den) f - 1 = f + ((num / den).log2 : Nat) := by
    unfold totalExponent
    ring
  rw [hexponent, two_zpow_add_natCast]
  exact mul_le_mul_of_nonneg_right hquotient (two_zpow_pos f).le

variable {m : Nat} {e : Int}

/-- A number of the interval of a double is rounded with the exponent of the double, or with the
next smaller one if it lies below a power of two. -/
theorem target_cases (h : IsCanonical m e) (hden : 0 < den)
    (hq : Admits m e ((num / den : Rat) * 2 ^ f))
    (hf : f ≤ Format.binary64.targetExponent (totalExponent (num / den) f)) :
    Format.binary64.targetExponent (totalExponent (num / den) f) = e ∨
      (Format.binary64.targetExponent (totalExponent (num / den) f) = e - 1 ∧ m = 2 ^ 52 ∧
        e ≠ -1074 ∧ (num / den : Rat) * 2 ^ f ≤ 2 ^ 52 * 2 ^ e) := by
  have hleast := h.least
  have hbelow : (num / den : Rat) * 2 ^ f < 2 ^ totalExponent (num / den) f := lt_two_zpow hden
  have habove : num / den ≠ 0 →
    (2 : Rat) ^ (totalExponent (num / den) f - 1) ≤ (num / den : Rat) * 2 ^ f := two_zpow_le hden
  have hzero : num / den = 0 → totalExponent (num / den) f = f + 1 := by
    intro hzero
    rw [hzero]
    unfold totalExponent
    simp
    ring
  rw [targetExponent_eq] at hf ⊢
  generalize totalExponent (num / den) f = t at *
  generalize (num / den : Rat) * 2 ^ f = q at *
  have hhigh : t - 53 ≤ e ∨ t - 53 ≤ -1074 := by
    by_cases hnone : num / den = 0
    · have hexponent := hzero hnone
      omega
    · have hexponent := hq.lt_exponent h (habove hnone)
      omega
  have hlow : e ≠ -1074 → e ≤ t - 53 ∨ (e - 1 = t - 53 ∧ m = 2 ^ 52) := by
    intro he
    have hnormal : 2 ^ 52 ≤ m := h.normal.resolve_right he
    by_cases hm : m = 2 ^ 52
    · have hbits : (2 : Rat) ^ 51 ≤ m - margin m e := by
        rw [margin, if_pos ⟨hm, he⟩, hm]
        norm_num
      have hexponent := hq.exponent_lt hbits hbelow
      omega
    · have hbits : (2 : Rat) ^ 52 ≤ m - margin m e := by
        have hcast : (2 ^ 52 : Rat) + 1 ≤ m := by exact_mod_cast (show 2 ^ 52 + 1 ≤ m by omega)
        rw [margin, if_neg fun hboth => hm hboth.1]
        linarith
      have hexponent := hq.exponent_lt hbits hbelow
      omega
  by_cases he : e = -1074
  · left
    omega
  · rcases hlow he with hexponent | ⟨hexponent, hm⟩
    · left
      omega
    · right
      have ht : t = e + (52 : Nat) := by omega
      refine ⟨by omega, hm, he, ?_⟩
      rw [← two_zpow_add_natCast, ← ht]
      exact hbelow.le

/-- The mantissa that a number of the interval of a double is rounded to. -/
theorem roundDiv_eq_of_le (hden : 0 < den) (hlow : (m - 1 / 2 : Rat) ≤ num / den)
    (hhigh : (num / den : Rat) ≤ m + 1 / 2)
    (hodd : m % 2 = 1 → (m - 1 / 2 : Rat) < num / den ∧ (num / den : Rat) < m + 1 / 2) :
    roundDiv num den = m := by
  have hpos : (0 : Rat) < den := by exact_mod_cast hden
  rw [le_div_iff₀ hpos] at hlow
  rw [div_le_iff₀ hpos] at hhigh
  rw [lt_div_iff₀ hpos, div_lt_iff₀ hpos] at hodd
  refine roundDiv_eq hden ?_ ?_ ?_
  · have hcast : (2 * (m * den) : Rat) ≤ 2 * num + den := by linarith
    exact_mod_cast hcast
  · have hcast : (2 * num : Rat) ≤ 2 * (m * den) + den := by linarith
    exact_mod_cast hcast
  · intro hm
    obtain ⟨hlow, hhigh⟩ := hodd hm
    constructor
    · have hcast : (2 * (m * den) : Rat) < 2 * num + den := by linarith
      exact (by exact_mod_cast hcast : 2 * (m * den) < 2 * num + den).ne
    · have hcast : (2 * num : Rat) < 2 * (m * den) + den := by linarith
      exact (by exact_mod_cast hcast : 2 * num < 2 * (m * den) + den).ne

theorem mantissa_shift_exact (r k : Nat) :
    (ExtendedMantissa.ofMantissaAndAccuracy r .exact >>> k).mantissa = r / 2 ^ k := by
  have hone : ExtendedMantissa.ofMantissaAndAccuracy r .exact = extended r 1 := by
    simp [extended, ExtendedMantissa.ofMantissaAndAccuracy, Nat.mod_one]
  rw [hone, shiftRight_extended r Nat.one_pos, one_mul]
  rfl

/-- Rounding shifts a mantissa to its exponent, rounds it, and shifts it once more if it became too
great. -/
theorem roundWithAccuracy_of_shifts (hden : 0 < den) (s : Sign) {k i r : Nat}
    (hk : (Format.binary64.targetExponent (totalExponent (num / den) f) - f).toNat = k)
    (hr : roundDiv num (den * 2 ^ k) = r)
    (hi : (Format.binary64.targetExponent (totalExponent r (f + k)) - (f + k)).toNat = i)
    (hpos : 0 < m) (hm : r / 2 ^ i = m) (he : f + k + i = e) :
    roundWithAccuracy Format.binary64 s (num / den) f (accuracyOfFraction (num % den) den) =
      .finite s m e hpos := by
  have hpos' : 0 < den * 2 ^ k := Nat.mul_pos hden (Nat.two_pow_pos k)
  unfold roundWithAccuracy shiftToTargetExponent shiftToExponent
  dsimp only
  rw [hk, ofMantissaAndAccuracy_eq hden, shiftRight_extended num hden,
    roundedMantissa_extended num hpos', hr, hi, mantissa_shift_exact, hm]
  rw [dif_neg hpos.ne']
  exact finite_congr rfl he _ _

theorem targetExponent_self (h : IsCanonical m e) :
    Format.binary64.targetExponent (totalExponent m e) = e := by
  have hleast := h.least
  have hlt : m.log2 < 53 := (Nat.log2_lt h.pos.ne').2 h.lt
  have hnormal : 2 ^ 52 ≤ m ↔ 52 ≤ m.log2 := (Nat.le_log2 h.pos.ne').symm
  have hcases := h.normal
  rw [hnormal] at hcases
  rw [targetExponent_eq]
  unfold totalExponent
  omega

theorem div_pow_mul_zpow (num den k : Nat) (f : Int) :
    (num / (den * 2 ^ k : Nat) : Rat) * 2 ^ (f + k) = num / den * 2 ^ f := by
  have hpow : (2 : Rat) ^ k ≠ 0 := by positivity
  rw [two_zpow_add_natCast]
  push_cast
  field_simp

/-- A number of the interval of a double is rounded to it. -/
theorem roundWithAccuracy_eq (h : IsCanonical m e) (hden : 0 < den)
    (hq : Admits m e ((num / den : Rat) * 2 ^ f))
    (hf : f ≤ Format.binary64.targetExponent (totalExponent (num / den) f)) (s : Sign) :
    roundWithAccuracy Format.binary64 s (num / den) f (accuracyOfFraction (num % den) den) =
      .finite s m e h.pos := by
  obtain ⟨k, hk⟩ := Int.le.dest hf
  have hshift : (Format.binary64.targetExponent (totalExponent (num / den) f) - f).toNat = k := by
    omega
  have hden' : 0 < den * 2 ^ k := Nat.mul_pos hden (Nat.two_pow_pos k)
  have hvalue := div_pow_mul_zpow num den k f
  rcases target_cases h hden hq hf with ht | ⟨ht, hm, he, htop⟩
  · have hmargin := margin_le m e
    have hpos := two_zpow_pos e
    rw [← hvalue, hk, ht] at hq
    obtain ⟨hlow, hhigh, hodd⟩ := hq
    rw [mul_le_mul_iff_left₀ hpos] at hlow hhigh
    rw [mul_lt_mul_iff_left₀ hpos, mul_lt_mul_iff_left₀ hpos] at hodd
    have hround : roundDiv num (den * 2 ^ k) = m := by
      refine roundDiv_eq_of_le hden' (by linarith) hhigh fun hm => ⟨?_, (hodd hm).2⟩
      linarith [(hodd hm).1]
    refine roundWithAccuracy_of_shifts hden s hshift hround (i := 0) ?_ h.pos (by simp) ?_
    · rw [hk, ht, targetExponent_self h]
      omega
    · omega
  · -- The rounded mantissa has a bit more than the double, and its last bit is zero.
    have hleast := h.least
    have hpos := two_zpow_pos (e - 1)
    have hdouble : (2 : Rat) ^ e = 2 * 2 ^ (e - 1) := by
      rw [zpow_sub_one₀ (by norm_num)]
      ring
    have hlow := hq.low
    rw [margin, if_pos ⟨hm, he⟩, hm, ← hvalue, hk, ht, hdouble, ← mul_assoc,
      mul_le_mul_iff_left₀ hpos] at hlow
    rw [← hvalue, hk, ht, hdouble, ← mul_assoc, mul_le_mul_iff_left₀ hpos] at htop
    have hround : roundDiv num (den * 2 ^ k) = 2 ^ 53 := by
      refine roundDiv_eq_of_le hden' ?_ ?_ fun hodd => absurd hodd (by decide)
      · push_cast at hlow ⊢
        linarith
      · push_cast at htop ⊢
        linarith
    have htarget : Format.binary64.targetExponent (totalExponent (2 ^ 53) (f + k)) = e := by
      rw [targetExponent_eq, totalExponent, Nat.log2_two_pow]
      omega
    refine roundWithAccuracy_of_shifts hden s hshift hround (i := 1) ?_ h.pos ?_ ?_
    · rw [htarget]
      omega
    · rw [hm]
      norm_num
    · omega

end Round

/-! ### Products and quotients -/

/-- A quotient is taken with enough bits. -/
theorem le_targetExponent_div {m₁ m₂ k : Nat} {e₁ e₂ t : Int} (h₁ : 0 < m₁) (h₂ : 0 < m₂)
    (hk : t + k = e₁ - e₂)
    (ht : t ≤ Format.binary64.targetExponent (totalExponent m₁ e₁ - totalExponent m₂ e₂)) :
    t ≤ Format.binary64.targetExponent (totalExponent (m₁ * 2 ^ k / m₂) t) := by
  rw [targetExponent_eq] at ht ⊢
  by_cases hleast : t ≤ -1074
  · omega
  · unfold totalExponent at ht
    have hlogs : m₂.log2 + 1 + 52 ≤ m₁.log2 + k := by omega
    have hbits : 2 ^ 52 ≤ m₁ * 2 ^ k / m₂ := by
      rw [Nat.le_div_iff_mul_le h₂]
      calc 2 ^ 52 * m₂ ≤ 2 ^ 52 * 2 ^ (m₂.log2 + 1) := Nat.mul_le_mul_left _ Nat.lt_log2_self.le
        _ = 2 ^ (m₂.log2 + 1 + 52) := by ring
        _ ≤ 2 ^ (m₁.log2 + k) := Nat.pow_le_pow_right (by decide) hlogs
        _ = 2 ^ m₁.log2 * 2 ^ k := pow_add 2 _ _
        _ ≤ m₁ * 2 ^ k := Nat.mul_le_mul_right _ (Nat.log2_self_le h₁.ne')
    have hlog : 52 ≤ (m₁ * 2 ^ k / m₂).log2 := (Nat.le_log2 (by omega)).2 hbits
    unfold totalExponent
    omega

section Operations

variable {m m₁ m₂ : Nat} {e e₁ e₂ : Int} (h : IsCanonical m e) (h₁ : 0 < m₁) (h₂ : 0 < m₂)
include h

theorem mul_eq (hbits : 2 ^ 52 ≤ m₁ * m₂)
    (hq : Admits m e ((m₁ * 2 ^ e₁ : Rat) * (m₂ * 2 ^ e₂))) (s₁ s₂ : Sign) :
    UnpackedFloat.mul Format.binary64 (.finite s₁ m₁ e₁ h₁) (.finite s₂ m₂ e₂ h₂) =
      .finite (s₁ * s₂) m e h.pos := by
  have hvalue : (m₁ * 2 ^ e₁ : Rat) * (m₂ * 2 ^ e₂) =
      ((m₁ * m₂ : Nat) / (1 : Nat) : Rat) * 2 ^ (e₁ + e₂) := by
    rw [zpow_add₀ (by norm_num)]
    push_cast
    ring
  have hlog : 52 ≤ (m₁ * m₂).log2 := (Nat.le_log2 (by omega)).2 hbits
  have htarget : e₁ + e₂ ≤
      Format.binary64.targetExponent (totalExponent (m₁ * m₂ / 1) (e₁ + e₂)) := by
    rw [Nat.div_one, targetExponent_eq, totalExponent]
    omega
  rw [hvalue] at hq
  have hround := roundWithAccuracy_eq h Nat.one_pos hq htarget (s₁ * s₂)
  rw [Nat.div_one, Nat.mod_one] at hround
  exact hround

theorem div_eq (hq : Admits m e ((m₁ * 2 ^ e₁ : Rat) / (m₂ * 2 ^ e₂))) (s₁ s₂ : Sign) :
    UnpackedFloat.div Format.binary64 (.finite s₁ m₁ e₁ h₁) (.finite s₂ m₂ e₂ h₂) =
      .finite (s₁ / s₂) m e h.pos := by
  unfold UnpackedFloat.div divCore
  dsimp only
  have ht := min_le_right (e₁ - e₂)
    (Format.binary64.targetExponent (totalExponent m₁ e₁ - totalExponent m₂ e₂))
  have hle := min_le_left (e₁ - e₂)
    (Format.binary64.targetExponent (totalExponent m₁ e₁ - totalExponent m₂ e₂))
  generalize min (e₁ - e₂)
    (Format.binary64.targetExponent (totalExponent m₁ e₁ - totalExponent m₂ e₂)) = t at *
  obtain ⟨k, hk⟩ := Int.le.dest hle
  have hshift : (e₁ - e₂ - t).toNat = k := by omega
  have hvalue : (m₁ * 2 ^ e₁ : Rat) / (m₂ * 2 ^ e₂) = ((m₁ * 2 ^ k : Nat) / m₂ : Rat) * 2 ^ t := by
    have he : e₁ = t + k + e₂ := by omega
    have hpos := two_zpow_pos e₂
    rw [he, zpow_add₀ (by norm_num), two_zpow_add_natCast]
    push_cast
    field_simp
  rw [hvalue] at hq
  rw [hshift, Nat.shiftLeft_eq]
  exact roundWithAccuracy_eq h h₂ hq (le_targetExponent_div h₁ h₂ hk ht) _

end Operations

end CrmQuery
