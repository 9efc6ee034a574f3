import CrmQuery.Decimal.Rounding
import Mathlib

/-!
# Doubles

A finite double other than zero has a sign, a mantissa and an exponent (`IsCanonical`).  It is
packed into 64 bits, and the bits tell all three again.
-/

namespace CrmQuery

open Float.Model (Format UnpackedFloat)
open Float.Model.UnpackedFloat

/-- The mantissa and the exponent of a double: the mantissa has 53 bits, fewer only with the least
exponent. -/
structure IsCanonical (m : Nat) (e : Int) : Prop where
  pos : 0 < m
  lt : m < 2 ^ 53
  least : -1074 ≤ e
  greatest : e ≤ 971
  normal : 2 ^ 52 ≤ m ∨ e = -1074

/-! ### Bits -/

section Bits

variable (b : BitVec Format.binary64.numBits)

theorem toNat_unpackMantissa : (unpackMantissa b).toNat = b.toNat % 2 ^ 52 := by
  simp [unpackMantissa_def]

theorem toNat_unpackExponent : (unpackExponent b).toNat = b.toNat / 2 ^ 52 % 2 ^ 11 := by
  simp [unpackExponent_def, Nat.shiftRight_eq_div_pow]

theorem toNat_unpackSign : (unpackSign b).toNat = b.toNat / 2 ^ 63 := by
  have hlt : b.toNat < 2 ^ 64 := b.isLt
  have hmod : (unpackSign b).toNat = b.toNat / 2 ^ 63 % 2 := by
    simp [unpackSign_def, Nat.shiftRight_eq_div_pow]
  omega

end Bits

/-! ### Packing -/

theorem log2_add_one_eq_iff {m e} (h : IsCanonical m e) : m.log2 + 1 = 53 ↔ 2 ^ 52 ≤ m := by
  have hlt : m.log2 < 53 := (Nat.log2_lt h.pos.ne').2 h.lt
  rw [← Nat.le_log2 h.pos.ne']
  omega

/-- The exponent of a double as it is packed. -/
def exponentField (m : Nat) (e : Int) : Nat := if 2 ^ 52 ≤ m then (e + 1075).toNat else 0

theorem exponentField_lt {m : Nat} {e : Int} (h : IsCanonical m e) : exponentField m e < 2047 := by
  have hgreatest := h.greatest
  unfold exponentField
  split_ifs <;> omega

theorem pack_eq {m : Nat} {e : Int} (h : IsCanonical m e) (s : Sign) :
    pack Format.binary64 (.finite s m e h.pos) =
      packComponents Format.binary64 s (BitVec.ofNat 11 (exponentField m e))
        (BitVec.ofNat 52 m) := by
  have hleast := h.least
  have hgreatest := h.greatest
  have hfit : ¬ 2 ^ 11 ≤ (e + (1023 : Nat) + (52 : Nat)).toNat + 1 := by omega
  show (if 2 ^ 11 ≤ (e + (1023 : Nat) + (52 : Nat)).toNat + 1 then _
    else if m.log2 + 1 = 53 then packComponents Format.binary64 s
      (BitVec.ofNat 11 (e + (1023 : Nat) + (52 : Nat)).toNat) (BitVec.ofNat 52 m)
    else packComponents Format.binary64 s 0#11 (BitVec.ofNat 52 m)) = _
  rw [if_neg hfit]
  unfold exponentField
  by_cases hnormal : 2 ^ 52 ≤ m
  · rw [if_pos ((log2_add_one_eq_iff h).2 hnormal), if_pos hnormal]
    congr 2
    omega
  · rw [if_neg (mt (log2_add_one_eq_iff h).1 hnormal), if_neg hnormal]

theorem finite_congr {s : Sign} {m m' : Nat} {e e' : Int} (hm : m = m') (he : e = e') (h : 0 < m)
    (h' : 0 < m') : UnpackedFloat.finite s m e h = .finite s m' e' h' := by
  subst hm he
  rfl

theorem toNat_implicit (m : BitVec 52) : (1#1 ++ m).toNat = 2 ^ 52 + m.toNat := by
  rw [BitVec.toNat_append, ← Nat.shiftLeft_add_eq_or_of_lt m.isLt]
  rfl

theorem unpack_pack {m : Nat} {e : Int} (h : IsCanonical m e) (s : Sign) :
    unpack Format.binary64 (pack Format.binary64 (.finite s m e h.pos)) = .finite s m e h.pos := by
  have hlt := h.lt
  have hleast := h.least
  have hfield := exponentField_lt h
  have hexponent : (BitVec.ofNat 11 (exponentField m e)).toNat = exponentField m e := by
    rw [BitVec.toNat_ofNat]
    omega
  have hfull : BitVec.ofNat 11 (exponentField m e) ≠ -1#11 := by
    intro heq
    have htoNat := congrArg BitVec.toNat heq
    rw [hexponent] at htoNat
    have hones : (-1#11 : BitVec 11).toNat = 2047 := rfl
    omega
  rw [pack_eq h]
  unfold unpack
  simp only [unpackMantissa_packComponents, unpackExponent_packComponents,
    unpackSign_packComponents, Sign.ofBitVec_toBitVec, if_neg hfull]
  by_cases hnormal : 2 ^ 52 ≤ m
  · have hvalue : exponentField m e = (e + 1075).toNat := if_pos hnormal
    have hzero : BitVec.ofNat 11 (exponentField m e) ≠ 0#11 := by
      intro heq
      have htoNat := congrArg BitVec.toNat heq
      rw [hexponent, hvalue, BitVec.toNat_zero] at htoNat
      omega
    rw [if_neg hzero]
    refine finite_congr ?_ ?_ _ _
    · rw [toNat_implicit, BitVec.toNat_ofNat]
      omega
    · rw [hexponent, hvalue]
      show ((e + 1075).toNat : Int) - ((1023 : Nat) + (52 : Nat)) = e
      omega
  · have hvalue : exponentField m e = 0 := if_neg hnormal
    have he : e = -1074 := h.normal.resolve_left hnormal
    have hmantissa : (BitVec.ofNat 52 m).toNat = m := by
      rw [BitVec.toNat_ofNat]
      omega
    have hnonzero : BitVec.ofNat 52 m ≠ 0#52 := by
      intro heq
      have htoNat := congrArg BitVec.toNat heq
      rw [hmantissa, BitVec.toNat_zero] at htoNat
      exact h.pos.ne' htoNat
    have hzero : BitVec.ofNat 11 (exponentField m e) = 0#11 := by rw [hvalue]
    rw [if_pos hzero, dif_neg hnonzero]
    refine finite_congr hmantissa ?_ _ _
    rw [hexponent, hvalue, he]
    rfl

/-! ### Unpacking -/

section Unpack

variable {b : BitVec Format.binary64.numBits} {s : Sign} {m : Nat} {e : Int}

/-- The sign, the mantissa and the exponent that the bits of a double tell. -/
theorem of_unpack_eq_finite {h : 0 < m} (hb : unpack Format.binary64 b = .finite s m e h) :
    s = Sign.ofBitVec (unpackSign b) ∧ b.toNat / 2 ^ 52 % 2 ^ 11 < 2047 ∧
      m = (if b.toNat / 2 ^ 52 % 2 ^ 11 = 0 then b.toNat % 2 ^ 52
        else b.toNat % 2 ^ 52 + 2 ^ 52) ∧
      e = (max (b.toNat / 2 ^ 52 % 2 ^ 11) 1 : Nat) - 1075 := by
  have hmantissa := toNat_unpackMantissa b
  have hexponent := toNat_unpackExponent b
  unfold unpack at hb
  dsimp only at hb
  split at hb
  · split at hb <;> cases hb
  · rename_i hfull
    have hlt : b.toNat / 2 ^ 52 % 2 ^ 11 < 2047 := by
      by_contra hge
      refine hfull (BitVec.eq_of_toNat_eq ?_)
      have hones : (-1#11 : BitVec 11).toNat = 2047 := rfl
      rw [hexponent]
      show _ = (-1#11 : BitVec 11).toNat
      omega
    split at hb
    · rename_i hzero
      split at hb
      · cases hb
      · cases hb
        have hfield : b.toNat / 2 ^ 52 % 2 ^ 11 = 0 := by
          rw [← hexponent, hzero]
          rfl
        refine ⟨rfl, hlt, ?_, ?_⟩
        · rw [if_pos hfield, hmantissa]
        · rw [hzero, hfield]
          rfl
    · rename_i hzero
      cases hb
      have hfield : b.toNat / 2 ^ 52 % 2 ^ 11 ≠ 0 := by
        intro heq
        exact hzero (BitVec.eq_of_toNat_eq (hexponent.trans heq))
      refine ⟨rfl, hlt, ?_, ?_⟩
      · rw [if_neg hfield, toNat_implicit, hmantissa, Nat.add_comm]
      · rw [hexponent]
        show ((b.toNat / 2 ^ 52 % 2 ^ 11 : Nat) : Int) - ((1023 : Nat) + (52 : Nat)) = _
        omega

theorem isCanonical_of_unpack {h : 0 < m} (hb : unpack Format.binary64 b = .finite s m e h) :
    IsCanonical m e := by
  obtain ⟨-, hfull, hm, he⟩ := of_unpack_eq_finite hb
  have hfraction : b.toNat % 2 ^ 52 < 2 ^ 52 := Nat.mod_lt _ (by decide)
  refine ⟨h, ?_, ?_, ?_, ?_⟩
  · split_ifs at hm <;> omega
  · omega
  · omega
  · split_ifs at hm <;> omega

end Unpack

/-! ### Doubles -/

/-- The double of a sign, a mantissa and an exponent. -/
def double (s : Sign) {m : Nat} {e : Int} (h : IsCanonical m e) : Float :=
  .ofModel (.pack (.finite s m e h.pos))

theorem unpack_double (s : Sign) {m : Nat} {e : Int} (h : IsCanonical m e) :
    (double s h).toModel.unpack = .finite s m e h.pos := unpack_pack h s

theorem eq_ofModel_pack (x : Float) : x = .ofModel (.pack x.toModel.unpack) := by
  obtain ⟨⟨bits, hvalid⟩⟩ := x
  congr 2
  apply UInt64.toBitVec_inj.1
  exact (pack_unpack_of_valid hvalid).symm

theorem neg_double (s : Sign) {m : Nat} {e : Int} (h : IsCanonical m e) :
    -double s h = double (-s) h := by
  show Float.ofModel (.pack (double s h).toModel.unpack.neg) = _
  rw [unpack_double]
  rfl

theorem toNat_toBits_double (s : Sign) {m : Nat} {e : Int} (h : IsCanonical m e) :
    (double s h).toBits.toNat = (pack Format.binary64 (.finite s m e h.pos)).toNat := rfl

/-- The sign of negative numbers. -/
def isMinus : Sign → Bool
  | .negative => true
  | .positive => false

theorem isMinus_ofBitVec (v : BitVec 1) : isMinus (Sign.ofBitVec v) = decide (v.toNat = 1) := by
  revert v
  decide

theorem ofFloat_double (s : Sign) {m : Nat} {e : Int} (h : IsCanonical m e) :
    ExactValue.ofFloat (double s h) = ⟨isMinus s, m, e⟩ := by
  obtain ⟨hs, -, hm, he⟩ := of_unpack_eq_finite (unpack_pack h s)
  have hbits := toNat_toBits_double s h
  generalize pack Format.binary64 (.finite s m e h.pos) = b at hs hm he hbits
  unfold ExactValue.ofFloat
  rw [hbits, hs, isMinus_ofBitVec, toNat_unpackSign, hm, he]
  rfl

end CrmQuery
