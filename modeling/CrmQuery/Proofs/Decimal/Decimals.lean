import CrmQuery.Decimal.FloatText
import CrmQuery.Proofs.Decimal.Nearest
import CrmQuery.Proofs.Text.Numerals

/-!
# Decimals read as doubles

The double nearest to a decimal is the one whose interval the decimal lies in
(`floatOfDecimal_eq`).
-/

namespace CrmQuery

open Float.Model (Format UnpackedFloat totalExponent)
open Float.Model.UnpackedFloat

variable {m : Nat} {e : Int}

/-- A double lies in its interval. -/
theorem admits_self (m : Nat) (e : Int) : Admits m e (m * 2 ^ e) := by
  have hpos := two_zpow_pos e
  have hmargin := margin_pos m e
  have hlow : (m - margin m e) * 2 ^ e < m * 2 ^ e := mul_lt_mul_of_pos_right (by linarith) hpos
  have hhigh : (m * 2 ^ e : Rat) < (m + 1 / 2) * 2 ^ e := mul_lt_mul_of_pos_right (by linarith) hpos
  exact ⟨hlow.le, hhigh.le, fun _ => ⟨hlow, hhigh⟩⟩

/-! ### Integers -/

theorem le_shifted {n : Nat} (hn : 0 < n) (hlt : n < 2 ^ 53) : 2 ^ 52 ≤ n * 2 ^ (52 - n.log2) := by
  have hlog : n.log2 < 53 := (Nat.log2_lt hn.ne').2 hlt
  calc 2 ^ 52 = 2 ^ (n.log2 + (52 - n.log2)) := by congr 1; omega
    _ = 2 ^ n.log2 * 2 ^ (52 - n.log2) := pow_add 2 _ _
    _ ≤ n * 2 ^ (52 - n.log2) := Nat.mul_le_mul_right _ (Nat.log2_self_le hn.ne')

theorem isCanonical_shifted {n : Nat} (hn : 0 < n) (hlt : n < 2 ^ 53) :
    IsCanonical (n * 2 ^ (52 - n.log2)) (n.log2 - 52) := by
  have hlog : n.log2 < 53 := (Nat.log2_lt hn.ne').2 hlt
  have hhigh : n < 2 ^ (n.log2 + 1) := Nat.lt_log2_self
  have hpow : 0 < 2 ^ (52 - n.log2) := Nat.two_pow_pos _
  refine ⟨Nat.mul_pos hn hpow, ?_, by omega, by omega, Or.inl (le_shifted hn hlt)⟩
  calc n * 2 ^ (52 - n.log2) < 2 ^ (n.log2 + 1) * 2 ^ (52 - n.log2) :=
        Nat.mul_lt_mul_of_pos_right hhigh hpow
    _ = 2 ^ (n.log2 + 1 + (52 - n.log2)) := (pow_add 2 _ _).symm
    _ = 2 ^ 53 := by congr 1; omega

theorem shifted_value {n : Nat} (hn : 0 < n) (hlt : n < 2 ^ 53) :
    ((n * 2 ^ (52 - n.log2) : Nat) * 2 ^ ((n.log2 : Int) - 52) : Rat) = n := by
  have hlog : n.log2 < 53 := (Nat.log2_lt hn.ne').2 hlt
  obtain ⟨k, hk⟩ := Nat.exists_eq_add_of_le (show n.log2 ≤ 52 by omega)
  have hexponent : (n.log2 : Int) - 52 = -(k : Int) := by omega
  have hshift : 52 - n.log2 = k := by omega
  have hpos : (2 : Rat) ^ k ≠ 0 := by positivity
  rw [hexponent, hshift, zpow_neg, zpow_natCast]
  push_cast
  field_simp

theorem round_eq {n : Nat} (hn : 0 < n) (hlt : n < 2 ^ 53) :
    UnpackedFloat.round Format.binary64 .positive n 0 =
      .finite .positive (n * 2 ^ (52 - n.log2)) (n.log2 - 52) (isCanonical_shifted hn hlt).pos := by
  have hcanonical := isCanonical_shifted hn hlt
  have hlog : n.log2 < 53 := (Nat.log2_lt hn.ne').2 hlt
  have htarget : Format.binary64.targetExponent (totalExponent n 0) = n.log2 - 52 := by
    rw [targetExponent_eq, totalExponent]
    omega
  have hshift : (0 - ((n.log2 : Int) - 52)).toNat = 52 - n.log2 := by omega
  have hexponent : (0 : Int) - (52 - n.log2 : Nat) = n.log2 - 52 := by omega
  unfold UnpackedFloat.round decreaseExponent
  dsimp only
  rw [htarget, hshift, hexponent, Nat.shiftLeft_eq]
  have hself : Admits (n * 2 ^ (52 - n.log2)) (n.log2 - 52)
      (((n * 2 ^ (52 - n.log2) : Nat) / (1 : Nat) : Rat) * 2 ^ ((n.log2 : Int) - 52)) := by
    simpa using admits_self (n * 2 ^ (52 - n.log2)) (n.log2 - 52)
  have hround := roundWithAccuracy_eq hcanonical Nat.one_pos hself
    (by rw [Nat.div_one, targetExponent_self hcanonical]) .positive
  rwa [Nat.div_one, Nat.mod_one] at hround

/-- An integer of 53 bits is a double. -/
theorem toFloat_toUInt64 {n : Nat} (hn : 0 < n) (hlt : n < 2 ^ 53) :
    n.toUInt64.toFloat = double .positive (isCanonical_shifted hn hlt) := by
  have htoNat : n.toUInt64.toNat = n := by
    show n % 2 ^ 64 = n
    omega
  have hcompare : compare (n : Int) 0 = .gt := Int.compare_eq_gt.2 (by omega)
  show Float.ofModel (.pack
    (UnpackedFloat.normalize Format.binary64 (n.toUInt64.toNat : Int) 0 .positive)) = _
  rw [htoNat]
  unfold UnpackedFloat.normalize
  rw [hcompare]
  dsimp only
  rw [Int.toNat_natCast, round_eq hn hlt]
  rfl

theorem isCanonical_ten {i : Nat} (hi : i < 23) :
    IsCanonical (5 ^ i * 2 ^ (52 - (5 ^ i).log2)) ((5 ^ i).log2 - 52 + i) := by
  have hlt : 5 ^ i < 2 ^ 53 :=
    (Nat.pow_le_pow_right (by decide) (show i ≤ 22 by omega)).trans_lt (by norm_num)
  have h := isCanonical_shifted (Nat.pow_pos (by decide)) hlt
  have hlog : (5 ^ i).log2 < 53 := (Nat.log2_lt (by positivity)).2 hlt
  exact ⟨h.pos, h.lt, by omega, by omega, Or.inl (h.normal.resolve_right (by omega))⟩

theorem powersOfTen_eq : ∀ i : Fin 23, Float.exactlyRepresentablePowersOfTen[i.1] =
    double .positive (isCanonical_ten i.2) := by
  decide +kernel

/-- The small powers of ten are doubles. -/
theorem exists_powersOfTen_eq {i : Nat} (hi : i < 23) : ∃ (m : Nat) (e : Int) (h : IsCanonical m e),
    Float.exactlyRepresentablePowersOfTen[i] = double .positive h ∧ 2 ^ 52 ≤ m ∧
      (m * 2 ^ e : Rat) = 10 ^ i := by
  have hlt : 5 ^ i < 2 ^ 53 :=
    (Nat.pow_le_pow_right (by decide) (show i ≤ 22 by omega)).trans_lt (by norm_num)
  have hlog : (5 ^ i).log2 < 53 := (Nat.log2_lt (by positivity)).2 hlt
  refine ⟨_, _, isCanonical_ten hi, powersOfTen_eq ⟨i, hi⟩,
    (isCanonical_ten hi).normal.resolve_right (by omega), ?_⟩
  have hvalue := shifted_value (Nat.pow_pos (by decide)) hlt
  rw [two_zpow_add_natCast, mul_left_comm, hvalue]
  push_cast
  rw [← mul_pow]
  norm_num

/-! ### Products and quotients of doubles -/

section Operations

variable {m₁ m₂ : Nat} {e₁ e₂ : Int} (h : IsCanonical m e) (h₁ : IsCanonical m₁ e₁)
  (h₂ : IsCanonical m₂ e₂)

theorem mul_double (hbits : 2 ^ 52 ≤ m₁) (hq : Admits m e ((m₁ * 2 ^ e₁ : Rat) * (m₂ * 2 ^ e₂))) :
    double .positive h₁ * double .positive h₂ = double .positive h := by
  have hproduct : 2 ^ 52 ≤ m₁ * m₂ := hbits.trans (Nat.le_mul_of_pos_right m₁ h₂.pos)
  show Float.ofModel (.pack (UnpackedFloat.mul Format.binary64 (double .positive h₁).toModel.unpack
    (double .positive h₂).toModel.unpack)) = _
  rw [unpack_double, unpack_double, mul_eq h h₁.pos h₂.pos hproduct hq]
  rfl

theorem div_double (hq : Admits m e ((m₁ * 2 ^ e₁ : Rat) / (m₂ * 2 ^ e₂))) :
    double .positive h₁ / double .positive h₂ = double .positive h := by
  show Float.ofModel (.pack (UnpackedFloat.div Format.binary64 (double .positive h₁).toModel.unpack
    (double .positive h₂).toModel.unpack)) = _
  rw [unpack_double, unpack_double, div_eq h h₁.pos h₂.pos hq]
  rfl

end Operations

/-! ### Decimals -/

section Scientific

variable (h : IsCanonical m e) {n i : Nat} (hn : 0 < n)
include hn

/-- A decimal without a fraction is rounded to the nearest double. -/
theorem ofScientific_of_mul (hq : Admits m e (n * 10 ^ i)) (hi : i ≤ 2 ^ 11) :
    Float.ofScientific n false i = double .positive h := by
  unfold Float.ofScientific
  split
  · rename_i hsmall
    obtain ⟨m₂, e₂, h₂, hpower, -, hvalue⟩ := exists_powersOfTen_eq (show i < 23 by omega)
    refine (congrArg₂ (· * ·) (toFloat_toUInt64 hn hsmall.1) hpower).trans ?_
    refine mul_double h (isCanonical_shifted hn hsmall.1) h₂
      (le_shifted hn hsmall.1) ?_
    rw [shifted_value hn hsmall.1, hvalue]
    exact hq
  · show Float.ofModel (.pack (UnpackedFloat.ofScientific Format.binary64 n (i : Int))) = _
    have hmax : ¬ (i : Int) > 2 ^ 11 := not_lt.2 (by exact_mod_cast hi)
    have hmin : ¬ (i : Int) < -((2 ^ 11 : Int) + n.log2) := by omega
    have hbits : 2 ^ 52 ≤ n <<< 53 * 10 ^ i := by
      rw [Nat.shiftLeft_eq]
      calc 2 ^ 52 ≤ 1 * 2 ^ 53 * 1 := by norm_num
        _ ≤ n * 2 ^ 53 * 10 ^ i :=
          Nat.mul_le_mul (Nat.mul_le_mul_right _ hn) (Nat.one_le_pow _ _ (by decide))
    have hvalue : (n * 10 ^ i : Rat) =
        ((n <<< 53 : Nat) * 2 ^ (-53 : Int)) * ((10 ^ i : Nat) * 2 ^ (0 : Int)) := by
      rw [Nat.shiftLeft_eq]
      push_cast
      norm_num
      ring
    unfold UnpackedFloat.ofScientific
    rw [dif_neg hn.ne', if_neg hmax, if_neg hmin, if_pos (Int.natCast_nonneg i)]
    rw [hvalue] at hq
    have hshift : 0 < n <<< 53 := by
      rw [Nat.shiftLeft_eq]
      positivity
    exact congrArg (fun u => Float.ofModel (.pack u))
      (mul_eq h hshift (by positivity) hbits hq .positive .positive)

/-- A decimal with a fraction is rounded to the nearest double. -/
theorem ofScientific_of_div (hpos : 0 < i) (hq : Admits m e (n / 10 ^ i))
    (hi : i ≤ 2 ^ 11 + n.log2) : Float.ofScientific n true i = double .positive h := by
  unfold Float.ofScientific
  split
  · rename_i hsmall
    obtain ⟨m₂, e₂, h₂, hpower, -, hvalue⟩ := exists_powersOfTen_eq (show i < 23 by omega)
    refine (congrArg₂ (· / ·) (toFloat_toUInt64 hn hsmall.1) hpower).trans ?_
    refine div_double h (isCanonical_shifted hn hsmall.1) h₂ ?_
    rw [shifted_value hn hsmall.1, hvalue]
    exact hq
  · have hexponent : Int.negOfNat i = -(i : Int) := by
      cases i <;> rfl
    show Float.ofModel (.pack (UnpackedFloat.ofScientific Format.binary64 n (Int.negOfNat i))) = _
    have hmax : ¬ -(i : Int) > 2 ^ 11 := by omega
    have hmin : ¬ -(i : Int) < -((2 ^ 11 : Int) + n.log2) := by omega
    have hneg : ¬ 0 ≤ -(i : Int) := by omega
    have hvalue : (n / 10 ^ i : Rat) = (n * 2 ^ (0 : Int)) / ((10 ^ i : Nat) * 2 ^ (0 : Int)) := by
      push_cast
      norm_num
    unfold UnpackedFloat.ofScientific
    rw [hexponent, dif_neg hn.ne', if_neg hmax, if_neg hmin, if_neg hneg]
    rw [hvalue] at hq
    have hten : (- -(i : Int)).toNat = i := by omega
    simp only [hten]
    exact congrArg (fun u => Float.ofModel (.pack u))
      (div_eq h hn (by positivity) hq .positive .positive)

end Scientific

/-! ### Sizes -/

theorem ten_zpow_lt_half : (10 : Rat) ^ (-324 : Int) < 1 / 2 * 2 ^ (-1074 : Int) := by
  have hnat : 2 ^ 1075 < 10 ^ 324 := by decide +kernel
  have hcast : (2 : Rat) ^ 1075 < 10 ^ 324 := by exact_mod_cast hnat
  have hhalf : (1 / 2 * 2 ^ (-1074 : Int) : Rat) = (2 ^ 1075)⁻¹ := by
    rw [zpow_neg, pow_succ]
    field_simp
  rw [hhalf, zpow_neg]
  exact inv_strictAnti₀ (by positivity) hcast

theorem two_zpow_lt_ten : (2 ^ 53 * 2 ^ (971 : Int) : Rat) < 10 ^ (309 : Int) := by
  have hnat : 2 ^ 1024 < 10 ^ 309 := by decide +kernel
  have hcast : (2 : Rat) ^ 1024 < 10 ^ 309 := by exact_mod_cast hnat
  have hsum : (2 ^ 53 * 2 ^ (971 : Int) : Rat) = 2 ^ 1024 := (pow_add 2 53 971).symm
  rw [hsum]
  exact hcast

/-- A number of the interval of a double is neither too small nor too great. -/
theorem Admits.bounds {q : Rat} (h : IsCanonical m e) (hq : Admits m e q) :
    (10 : Rat) ^ (-324 : Int) < q ∧ q < 10 ^ (309 : Int) := by
  have hpos := two_zpow_pos e
  constructor
  · have hmargin := margin_le m e
    have hm : (1 : Rat) ≤ m := by exact_mod_cast h.pos
    have hleast : (2 : Rat) ^ (-1074 : Int) ≤ 2 ^ e := zpow_le_zpow_right₀ (by norm_num) h.least
    calc (10 : Rat) ^ (-324 : Int) < 1 / 2 * 2 ^ (-1074 : Int) := ten_zpow_lt_half
      _ ≤ (m - margin m e) * 2 ^ e :=
        mul_le_mul (by linarith) hleast (two_zpow_pos _).le (by linarith)
      _ ≤ q := hq.low
  · have hm : (m : Rat) + 1 ≤ 2 ^ 53 := by exact_mod_cast h.lt
    have hgreatest : (2 : Rat) ^ e ≤ 2 ^ (971 : Int) := zpow_le_zpow_right₀ (by norm_num) h.greatest
    calc q ≤ (m + 1 / 2) * 2 ^ e := hq.high
      _ ≤ 2 ^ 53 * 2 ^ (971 : Int) := mul_le_mul (by linarith) hgreatest hpos.le (by positivity)
      _ < 10 ^ (309 : Int) := two_zpow_lt_ten

theorem Admits.pos {q : Rat} (h : IsCanonical m e) (hq : Admits m e q) : 0 < q :=
  (zpow_pos (by norm_num) _).trans (hq.bounds h).1

theorem length_toString (n : Nat) : (toString n).length = (Nat.toDigits 10 n).length := by
  rw [← String.length_toList, Text.toList_toString]

/-- The number of digits of an integer. -/
theorem length_toDigits_bounds {n : Nat} (hn : 0 < n) :
    10 ^ ((Nat.toDigits 10 n).length - 1) ≤ n ∧ n < 10 ^ (Nat.toDigits 10 n).length := by
  have hpos : 0 < (Nat.toDigits 10 n).length := Nat.length_toDigits_pos
  constructor
  · by_cases hone : (Nat.toDigits 10 n).length - 1 = 0
    · rw [hone]
      exact hn
    · rw [← Nat.not_lt, ← Nat.length_toDigits_le_iff (by decide) (by omega)]
      omega
  · exact (Nat.length_toDigits_le_iff (by decide) hpos).1 le_rfl

theorem ten_zpow_lt_iff {a b : Int} : (10 : Rat) ^ a < 10 ^ b ↔ a < b :=
  zpow_lt_zpow_iff_right₀ (by norm_num)

/-- The double that a decimal of its interval is read as. -/
theorem floatOfDecimal_eq (h : IsCanonical m e) {n : Nat} (hn : 0 < n) {k : Int}
    (hq : Admits m e (n * 10 ^ k)) : floatOfDecimal n k = double .positive h := by
  obtain ⟨hlow, hhigh⟩ := hq.bounds h
  obtain ⟨hleast, hgreatest⟩ := length_toDigits_bounds hn
  have hten : (0 : Rat) < 10 ^ k := zpow_pos (by norm_num) k
  have hpos : 0 < (Nat.toDigits 10 n).length := Nat.length_toDigits_pos
  unfold floatOfDecimal
  dsimp only
  rw [length_toString]
  generalize (Nat.toDigits 10 n).length = size at *
  have habove : -324 < size + k := by
    rw [← ten_zpow_lt_iff, zpow_add₀ (by norm_num), zpow_natCast]
    exact hlow.trans (mul_lt_mul_of_pos_right (by exact_mod_cast hgreatest) hten)
  have hbelow : (size - 1 : Nat) + k < 309 := by
    rw [← ten_zpow_lt_iff, zpow_add₀ (by norm_num), zpow_natCast]
    exact (mul_le_mul_of_nonneg_right (by exact_mod_cast hleast) hten.le).trans_lt hhigh
  have hlog : size - 1 ≤ n.log2 := by
    rw [Nat.le_log2 hn.ne']
    exact (Nat.pow_le_pow_left (by decide) _).trans hleast
  rw [if_neg (by omega), if_neg (by omega)]
  rcases lt_or_ge k 0 with hneg | hnonneg
  · obtain ⟨i, rfl⟩ := Int.exists_eq_neg_ofNat hneg.le
    rw [decide_eq_true hneg, Int.natAbs_neg, Int.natAbs_natCast]
    rw [zpow_neg, zpow_natCast, ← div_eq_mul_inv] at hq
    exact ofScientific_of_div h hn (by omega) hq (by omega)
  · obtain ⟨i, rfl⟩ := Int.eq_ofNat_of_zero_le hnonneg
    rw [decide_eq_false hnonneg.not_gt, Int.natAbs_natCast]
    rw [zpow_natCast] at hq
    exact ofScientific_of_mul h hn hq (by omega)

end CrmQuery
