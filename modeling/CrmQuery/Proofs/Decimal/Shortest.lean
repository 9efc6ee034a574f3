import CrmQuery.Proofs.Decimal.Decimals

/-!
# Shortest decimals

The shortest decimal of a double lies in the interval of the double (`admits_shortest`): each of the
decimals among which it is chosen is checked to lie there, and of the two neighbours with
seventeen digits one does.
-/

namespace CrmQuery

variable {m : Nat} {e : Int} (negative : Bool)

namespace ExactValue

/-- The numerator and the denominator of a double. -/
theorem num_eq (negative : Bool) (m : Nat) (e : Int) :
    (⟨negative, m, e⟩ : ExactValue).num = m * 2 ^ e.toNat := rfl

theorem den_eq (negative : Bool) (m : Nat) (e : Int) :
    (⟨negative, m, e⟩ : ExactValue).den = 2 ^ (-e).toNat := rfl

theorem two_zpow_mul_den (e : Int) : (2 : Rat) ^ e * 2 ^ (-e).toNat = 2 ^ e.toNat := by
  have hexponent : e + ((-e).toNat : Int) = (e.toNat : Int) := by omega
  rw [← zpow_natCast, ← zpow_add₀ (by norm_num), hexponent, zpow_natCast]

section Scale

variable (x : Rat) (e : Int) (num : Nat) {den : Nat} (hden : 0 < den)
include hden

theorem scale_eq : x * 2 ^ e * (4 * den) * 2 ^ (-e).toNat = x * 2 ^ e.toNat * (4 * den) ∧
    (num / (4 * den) : Rat) * (4 * den) * 2 ^ (-e).toNat = num * 2 ^ (-e).toNat := by
  have hcast : (den : Rat) ≠ 0 := by exact_mod_cast hden.ne'
  constructor
  · rw [← two_zpow_mul_den e]
    ring
  · field_simp

theorem mul_le_div_iff : x * 2 ^ e ≤ num / (4 * den) ↔
    x * 2 ^ e.toNat * (4 * den) ≤ num * 2 ^ (-e).toNat := by
  obtain ⟨hleft, hright⟩ := scale_eq x e num hden
  rw [← hleft, ← hright, mul_le_mul_iff_left₀ (by positivity), mul_le_mul_iff_left₀ (by positivity)]

theorem mul_lt_div_iff : x * 2 ^ e < num / (4 * den) ↔
    x * 2 ^ e.toNat * (4 * den) < num * 2 ^ (-e).toNat := by
  obtain ⟨hleft, hright⟩ := scale_eq x e num hden
  rw [← hleft, ← hright, mul_lt_mul_iff_left₀ (by positivity), mul_lt_mul_iff_left₀ (by positivity)]

theorem div_le_mul_iff : (num / (4 * den) : Rat) ≤ x * 2 ^ e ↔
    num * 2 ^ (-e).toNat ≤ x * 2 ^ e.toNat * (4 * den) := by
  rw [← not_lt, mul_lt_div_iff x e num hden, not_lt]

theorem div_lt_mul_iff : (num / (4 * den) : Rat) < x * 2 ^ e ↔
    num * 2 ^ (-e).toNat < x * 2 ^ e.toNat * (4 * den) := by
  rw [← not_le, mul_le_div_iff x e num hden, not_le]

end Scale

/-- The margin below a double, in the units of the check. -/
theorem exists_margin (h : IsCanonical m e) (den : Nat) : ∃ b : Nat,
    (if (⟨negative, m, e⟩ : ExactValue).isLowest then 2 * 2 ^ e.toNat * den / 2
      else 2 * 2 ^ e.toNat * den) = b ∧
    (b : Rat) = margin m e * 2 ^ e.toNat * (4 * den) ∧ b ≤ 4 * (m * 2 ^ e.toNat) * den := by
  have hone : 1 * (2 ^ e.toNat * den) ≤ m * (2 ^ e.toNat * den) := Nat.mul_le_mul_right _ h.pos
  have hfour : 4 * (m * 2 ^ e.toNat) * den = 4 * (m * (2 ^ e.toNat * den)) := by ring
  rw [hfour]
  by_cases hlowest : m = 2 ^ 52 ∧ e ≠ -1074
  · have hcheck : (⟨negative, m, e⟩ : ExactValue).isLowest = true := by
      simp [isLowest, hlowest]
    refine ⟨2 ^ e.toNat * den, ?_, ?_, by omega⟩
    · rw [if_pos hcheck, mul_assoc, Nat.mul_div_cancel_left _ (by decide)]
    · rw [margin, if_pos hlowest]
      push_cast
      ring
  · have hcheck : ¬ (⟨negative, m, e⟩ : ExactValue).isLowest = true := by
      simpa [isLowest] using hlowest
    refine ⟨2 * 2 ^ e.toNat * den, if_neg hcheck, ?_, ?_⟩
    · rw [margin, if_neg hlowest]
      push_cast
      ring
    · rw [mul_assoc]
      omega

/-- The check whether a number is rounded to a double. -/
theorem admits_iff (h : IsCanonical m e) (num : Nat) {den : Nat} (hden : 0 < den) :
    (⟨negative, m, e⟩ : ExactValue).admits num den = true ↔ Admits m e (num / (4 * den)) := by
  have habove : 2 * (m * 2 ^ e.toNat) / m = 2 * 2 ^ e.toNat := by
    rw [mul_left_comm, Nat.mul_div_cancel_left _ h.pos]
  obtain ⟨b, hb, hbelow, hle⟩ := exists_margin negative h den
  have hleft : ((m - margin m e) * 2 ^ e.toNat * (4 * den) : Rat) =
      (4 * (m * 2 ^ e.toNat) * den - b : Nat) := by
    rw [Nat.cast_sub hle, hbelow]
    push_cast
    ring
  have hright : ((m + 1 / 2) * 2 ^ e.toNat * (4 * den) : Rat) =
      (4 * (m * 2 ^ e.toNat) * den + 2 * 2 ^ e.toNat * den : Nat) := by
    push_cast
    ring
  have hlow := mul_le_div_iff (m - margin m e) e num hden
  have hlow' := mul_lt_div_iff (m - margin m e) e num hden
  have hhigh := div_le_mul_iff (m + 1 / 2) e num hden
  have hhigh' := div_lt_mul_iff (m + 1 / 2) e num hden
  have hpoint : (num * 2 ^ (-e).toNat : Rat) = (num * 2 ^ (-e).toNat : Nat) := by push_cast; rfl
  rw [hleft, hpoint, Nat.cast_le] at hlow
  rw [hleft, hpoint, Nat.cast_lt] at hlow'
  rw [hright, hpoint, Nat.cast_le] at hhigh
  rw [hright, hpoint, Nat.cast_lt] at hhigh'
  unfold admits
  rw [num_eq, den_eq]
  dsimp only
  rw [habove, hb]
  split_ifs with heven
  · rw [Bool.and_eq_true, decide_eq_true_eq, decide_eq_true_eq, ← hlow, ← hhigh]
    exact ⟨fun hq => ⟨hq.1, hq.2, fun hodd => absurd hodd (by omega)⟩, fun hq => ⟨hq.low, hq.high⟩⟩
  · rw [Bool.and_eq_true, decide_eq_true_eq, decide_eq_true_eq, ← hlow', ← hhigh']
    exact ⟨fun hq => ⟨hq.1.le, hq.2.le, fun _ => hq⟩, fun hq => hq.odd (by omega)⟩

/-! ### Grids of decimals -/

theorem down_div_up (k : Int) :
    ((10 ^ k.toNat : Nat) / (10 ^ (-k).toNat : Nat) : Rat) = 10 ^ k := by
  have hexponent : (k.toNat : Int) - ((-k).toNat : Int) = k := by omega
  push_cast
  rw [← zpow_natCast, ← zpow_natCast, ← zpow_sub₀ (by norm_num), hexponent]

/-- The check whether a decimal is rounded to a double. -/
theorem admits_decimal_iff (h : IsCanonical m e) (d : Nat) (k : Int) :
    (⟨negative, m, e⟩ : ExactValue).admits (4 * d * 10 ^ k.toNat) (10 ^ (-k).toNat) = true ↔
      Admits m e (d * 10 ^ k) := by
  have hvalue : ((4 * d * 10 ^ k.toNat : Nat) / (4 * (10 ^ (-k).toNat : Nat)) : Rat) =
      d * 10 ^ k := by
    rw [← down_div_up k]
    push_cast
    field_simp
  rw [admits_iff negative h _ (by positivity), hvalue]

/-- The greatest decimal of a grid that is not above a double. -/
def floorOn (v : ExactValue) (k : Int) : Nat :=
  v.num * 10 ^ (-k).toNat / (v.den * 10 ^ k.toNat)

theorem floorOn_bounds (k : Int) :
    ((⟨negative, m, e⟩ : ExactValue).floorOn k : Rat) * 10 ^ k ≤ m * 2 ^ e ∧
      (m * 2 ^ e : Rat) < ((⟨negative, m, e⟩ : ExactValue).floorOn k + 1 : Nat) * 10 ^ k := by
  have hpos : 0 < 2 ^ (-e).toNat * 10 ^ k.toNat := by positivity
  have hle :=
    Nat.div_mul_le_self (m * 2 ^ e.toNat * 10 ^ (-k).toNat) (2 ^ (-e).toNat * 10 ^ k.toNat)
  have hlt := Nat.lt_mul_div_succ (m * 2 ^ e.toNat * 10 ^ (-k).toNat) hpos
  have hfloor : m * 2 ^ e.toNat * 10 ^ (-k).toNat / (2 ^ (-e).toNat * 10 ^ k.toNat) =
      (⟨negative, m, e⟩ : ExactValue).floorOn k := rfl
  rw [hfloor] at hle hlt
  generalize (⟨negative, m, e⟩ : ExactValue).floorOn k = d at hle hlt
  have hle' : (d * (2 ^ (-e).toNat * 10 ^ k.toNat) : Rat) ≤ m * 2 ^ e.toNat * 10 ^ (-k).toNat := by
    exact_mod_cast hle
  have hlt' : (m * 2 ^ e.toNat * 10 ^ (-k).toNat : Rat) <
      2 ^ (-e).toNat * 10 ^ k.toNat * ((d + 1 : Nat) : Rat) := by
    exact_mod_cast hlt
  have hscale : (0 : Rat) < 2 ^ (-e).toNat * 10 ^ (-k).toNat := by positivity
  have hgrid : (10 ^ k : Rat) * 10 ^ (-k).toNat = 10 ^ k.toNat := by
    rw [← down_div_up k]
    push_cast
    field_simp
  have hvalue : (m * 2 ^ e * (2 ^ (-e).toNat * 10 ^ (-k).toNat) : Rat) =
      m * 2 ^ e.toNat * 10 ^ (-k).toNat := by
    rw [← two_zpow_mul_den e]
    ring
  rw [← mul_le_mul_iff_left₀ hscale, ← mul_lt_mul_iff_left₀ hscale, hvalue]
  constructor
  · calc (d * 10 ^ k * (2 ^ (-e).toNat * 10 ^ (-k).toNat) : Rat)
        = d * (2 ^ (-e).toNat * (10 ^ k * 10 ^ (-k).toNat)) := by ring
      _ ≤ m * 2 ^ e.toNat * 10 ^ (-k).toNat := by rwa [hgrid]
  · calc (m * 2 ^ e.toNat * 10 ^ (-k).toNat : Rat)
        < 2 ^ (-e).toNat * (10 ^ k * 10 ^ (-k).toNat) * ((d + 1 : Nat) : Rat) := by rwa [hgrid]
      _ = (d + 1 : Nat) * 10 ^ k * (2 ^ (-e).toNat * 10 ^ (-k).toNat) := by ring

/-- A decimal that is chosen is rounded to the double. -/
theorem admits_of_withDigits (h : IsCanonical m e) {n : Nat} {d : Decimal}
    (hd : (⟨negative, m, e⟩ : ExactValue).withDigits n = some d) :
    Admits m e (d.digits * 10 ^ d.exponent) := by
  unfold withDigits at hd
  dsimp only at hd
  split at hd
  · rename_i hlow
    cases hd
    exact (admits_decimal_iff negative h _ _).1 (Bool.and_eq_true_iff.1 hlow).1
  · split at hd
    · rename_i hhigh
      cases hd
      exact (admits_decimal_iff negative h _ _).1 hhigh
    · cases hd

theorem exists_withDigits (h : IsCanonical m e) {n : Nat} {k : Int}
    (hk : (⟨negative, m, e⟩ : ExactValue).scale - n = k)
    (hsome : Admits m e ((⟨negative, m, e⟩ : ExactValue).floorOn k * 10 ^ k) ∨
      Admits m e (((⟨negative, m, e⟩ : ExactValue).floorOn k + 1 : Nat) * 10 ^ k)) :
    ∃ d, (⟨negative, m, e⟩ : ExactValue).withDigits n = some d := by
  rw [← admits_decimal_iff negative h, ← admits_decimal_iff negative h]
    at hsome
  unfold withDigits
  dsimp only
  simp only [Nat.pow_eq, hk]
  unfold floorOn at hsome
  split
  · exact ⟨_, rfl⟩
  · rename_i hlow
    split
    · exact ⟨_, rfl⟩
    · rename_i hhigh
      rcases hsome with hs | hs
      · rw [hs] at hlow
        simp [hhigh] at hlow
      · exact absurd hs hhigh

/-! ### Sizes -/

theorem num_div_den (negative : Bool) (m : Nat) (e : Int) :
    ((⟨negative, m, e⟩ : ExactValue).num / (⟨negative, m, e⟩ : ExactValue).den : Rat) =
      m * 2 ^ e := by
  rw [num_eq, den_eq, div_eq_iff (by positivity)]
  push_cast
  rw [← two_zpow_mul_den e]
  ring

theorem den_le_num_mul (h : IsCanonical m e) {k : Nat} (hk : (-e).toNat ≤ 3 * k) :
    (⟨negative, m, e⟩ : ExactValue).den ≤ (⟨negative, m, e⟩ : ExactValue).num * 10 ^ k := by
  have hnum : 0 < m * 2 ^ e.toNat := Nat.mul_pos h.pos (Nat.two_pow_pos _)
  rw [num_eq, den_eq]
  calc 2 ^ (-e).toNat ≤ 2 ^ (3 * k) := Nat.pow_le_pow_right (by decide) hk
    _ = (2 ^ 3) ^ k := Nat.pow_mul 2 3 k
    _ ≤ 10 ^ k := Nat.pow_le_pow_left (by decide) k
    _ ≤ m * 2 ^ e.toNat * 10 ^ k := Nat.le_mul_of_pos_left _ hnum

theorem exists_scale (h : IsCanonical m e) {bound : Nat}
    (hbound : (-e).toNat < 3 * bound) : ∃ z,
    ((List.range bound).find? fun z => (⟨negative, m, e⟩ : ExactValue).den ≤
      (⟨negative, m, e⟩ : ExactValue).num * Nat.pow 10 (z + 1)) = some z := by
  rw [← Option.isSome_iff_exists, List.find?_isSome]
  refine ⟨bound - 1, List.mem_range.2 (by omega), ?_⟩
  exact decide_eq_true (den_le_num_mul negative h (by omega))

/-- A double has as many digits before the point as its scale says, or more. -/
theorem scale_le (h : IsCanonical m e) :
    (10 : Rat) ^ ((⟨negative, m, e⟩ : ExactValue).scale - 1) ≤ m * 2 ^ e := by
  have hden : 0 < (⟨negative, m, e⟩ : ExactValue).den := Nat.two_pow_pos _
  rw [← num_div_den negative, le_div_iff₀ (by exact_mod_cast hden)]
  unfold scale
  split
  · rename_i hle
    have hpos : 0 < (⟨negative, m, e⟩ : ExactValue).num / (⟨negative, m, e⟩ : ExactValue).den :=
      Nat.div_pos hle hden
    have hlength := (length_toDigits_bounds hpos).1
    have hsize : 0 < (Nat.toDigits 10 ((⟨negative, m, e⟩ : ExactValue).num /
      (⟨negative, m, e⟩ : ExactValue).den)).length := Nat.length_toDigits_pos
    rw [length_toString]
    generalize (Nat.toDigits 10 ((⟨negative, m, e⟩ : ExactValue).num /
      (⟨negative, m, e⟩ : ExactValue).den)).length = size at *
    rw [Nat.le_div_iff_mul_le hden] at hlength
    have hexponent : (size : Int) - 1 = (size - 1 : Nat) := by omega
    rw [hexponent, zpow_natCast]
    exact_mod_cast hlength
  · have hleast := h.least
    obtain ⟨z, hz⟩ := exists_scale negative h (show (-e).toNat < 3 * 400 by omega)
    have hfound := List.find?_some hz
    rw [decide_eq_true_eq, Nat.pow_eq] at hfound
    have hexponent : (-(z : Int) - 1) = -((z + 1 : Nat) : Int) := by omega
    rw [hz, Option.getD_some, hexponent, zpow_neg, zpow_natCast, inv_mul_le_iff₀ (by positivity),
      mul_comm]
    exact_mod_cast hfound

/-! ### Seventeen digits -/

/-- One of the neighbours of a double on the grid of decimals with seventeen digits is rounded to
the double: the grid is finer than the doubles are. -/
theorem admits_floorOn (h : IsCanonical m e) {k : Int}
    (hk : (⟨negative, m, e⟩ : ExactValue).scale - 17 = k) :
    Admits m e ((⟨negative, m, e⟩ : ExactValue).floorOn k * 10 ^ k) ∨
      Admits m e (((⟨negative, m, e⟩ : ExactValue).floorOn k + 1 : Nat) * 10 ^ k) := by
  obtain ⟨hle, hlt⟩ := floorOn_bounds (m := m) (e := e) negative k
  have hscale := scale_le negative h
  have hpos := two_zpow_pos e
  have hgrid : (10 : Rat) ^ k * 10 ^ 16 ≤ m * 2 ^ e := by
    have hexponent : (⟨negative, m, e⟩ : ExactValue).scale - 1 = k + (16 : Nat) := by omega
    rwa [hexponent, zpow_add₀ (by norm_num), zpow_natCast] at hscale
  -- A step of the grid is less than the margins of a double together.
  have hstep : (10 : Rat) ^ k < (margin m e + 1 / 2) * 2 ^ e := by
    have hfine : (m : Rat) < (margin m e + 1 / 2) * 10 ^ 16 := by
      have hm : (m : Rat) < 2 ^ 53 := by exact_mod_cast h.lt
      unfold margin
      split_ifs with hlowest
      · rw [hlowest.1]
        norm_num
      · linarith
    have hbound := mul_lt_mul_of_pos_right hfine hpos
    linarith
  have hmargin := margin_pos m e
  rw [Nat.cast_add, Nat.cast_one] at hlt ⊢
  generalize ((⟨negative, m, e⟩ : ExactValue).floorOn k : Rat) = d at *
  by_cases hnear : (m - margin m e) * 2 ^ e < d * 10 ^ k
  · left
    have hhigh : d * 10 ^ k < (m + 1 / 2) * 2 ^ e := by linarith
    exact ⟨hnear.le, hhigh.le, fun _ => ⟨hnear, hhigh⟩⟩
  · right
    have hlow : (m - margin m e) * 2 ^ e < (d + 1) * 10 ^ k := by
      have hless := mul_pos hmargin hpos
      linarith
    have hhigh : (d + 1) * 10 ^ k < (m + 1 / 2) * 2 ^ e := by linarith
    exact ⟨hlow.le, hhigh.le, fun _ => ⟨hlow, hhigh⟩⟩

/-- The shortest decimal of a double is rounded to it. -/
theorem admits_shortest (h : IsCanonical m e) :
    Admits m e ((⟨negative, m, e⟩ : ExactValue).shortest.digits *
      10 ^ (⟨negative, m, e⟩ : ExactValue).shortest.exponent) := by
  obtain ⟨d, hd⟩ := exists_withDigits (n := 17) negative h rfl (admits_floorOn negative h rfl)
  have hsome :
      ((List.range' 1 17).findSome? (⟨negative, m, e⟩ : ExactValue).withDigits).isSome := by
    rw [List.findSome?_isSome_iff]
    exact ⟨17, by decide, by rw [hd]; rfl⟩
  obtain ⟨d', hd'⟩ := Option.isSome_iff_exists.1 hsome
  obtain ⟨n, -, hn⟩ := List.exists_of_findSome?_eq_some hd'
  unfold shortest
  rw [hd', Option.getD_some]
  exact admits_of_withDigits negative h hn

end ExactValue

end CrmQuery
