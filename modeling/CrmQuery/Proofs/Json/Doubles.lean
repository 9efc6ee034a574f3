import CrmQuery.Proofs.Decimal.Shortest
import CrmQuery.Proofs.Json.Scalars

/-!
# Doubles read back

The text of a double is read as the double (`Json.readsBack_float`): it writes the shortest decimal
that is rounded to the double, with or without an exponent.
-/

namespace CrmQuery.Json

open Text
open Float.Model (UnpackedFloat)
open Float.Model.UnpackedFloat

/-! ### Parts of a number -/

/-- The digits of a number before its point: the first of them is not zero unless it is the only
one. -/
structure IsWhole (ds : List Char) : Prop where
  ne_nil : ds ≠ []
  digits : ∀ c ∈ ds, c.isDigit = true
  zero : ds.head? = some '0' → ds = ['0']

/-- The text ends or goes on with something else than a digit. -/
def NoDigit (t : List Char) : Prop := ∀ c ∈ t.head?, c.isDigit = false

theorem takeWhile_digits {ds : List Char} (hds : ∀ c ∈ ds, c.isDigit = true) {t : List Char}
    (ht : NoDigit t) : (ds ++ t).takeWhile Char.isDigit = ds := by
  rw [takeWhile_append_of_head? ds ht]
  exact List.takeWhile_eq_self_iff.2 hds

theorem fraction?_digits {ds : List Char} (hne : ds ≠ []) (hds : ∀ c ∈ ds, c.isDigit = true)
    {t : List Char} (ht : NoDigit t) : fraction? ('.' :: (ds ++ t)) = some ds := by
  simp only [fraction?, takeWhile_digits hds ht, List.isEmpty_iff, if_neg hne]

theorem exponent?_digits {e : Int} {ds : List Char} (hne : ds ≠ [])
    (hds : ∀ c ∈ ds, c.isDigit = true) (he : numeral ds = e.natAbs) :
    exponent? ('e' :: (if e < 0 then '-' else '+') :: ds) = some (e, 2 + ds.length) := by
  have htake : ds.takeWhile Char.isDigit = ds := List.takeWhile_eq_self_iff.2 hds
  split_ifs with hneg
  · have habs : -(e.natAbs : Int) = e := by omega
    simp only [exponent?, true_or, if_true, htake, List.isEmpty_iff, if_neg hne, he, habs]
  · have habs : (e.natAbs : Int) = e := by omega
    simp only [exponent?, true_or, if_true, htake, List.isEmpty_iff, if_neg hne, he, habs]
    rfl

/-- The text is read as the double nearest to a decimal. -/
def Reads (text : List Char) (q : Rat) : Prop :=
  ∃ (n : Nat) (k : Int), (n * 10 ^ k : Rat) = q ∧ ∀ start negative pos, ∃ pos',
    readUnsigned start negative ⟨pos, text⟩ =
      .ok (float (if negative then -floatOfDecimal n k else floatOfDecimal n k), ⟨pos', []⟩)

/-- A number with a fraction or an exponent is read as a double. -/
theorem reads_parts {whole t u : List Char} {f : Option (List Char)} {p : Option (Int × Nat)}
    (hwhole : IsWhole whole) (ht : NoDigit t) (hf : fraction? t = f)
    (hu : t.drop (if f.isSome then (f.getD []).length + 1 else 0) = u) (hp : exponent? u = p)
    (hend : u.length ≤ (p.map (·.2)).getD 0) (hfloat : (f.isSome || p.isSome) = true) :
    Reads (whole ++ t) (numeral (whole ++ f.getD []) *
      10 ^ ((p.map (·.1)).getD 0 - (f.getD []).length)) := by
  refine ⟨_, _, rfl, fun start negative pos => ?_⟩
  obtain ⟨d, cs, rfl⟩ := List.exists_cons_of_ne_nil hwhole.ne_nil
  have hread : (if d = '0' then ['0'] else (d :: (cs ++ t)).takeWhile Char.isDigit) = d :: cs := by
    split_ifs with hd
    · exact (hwhole.zero (by rw [hd]; rfl)).symm
    · exact takeWhile_digits hwhole.digits ht
  have hdrop : (d :: (cs ++ t)).drop (d :: cs).length = t := List.drop_left
  rw [List.cons_append, readUnsigned]
  simp only [if_pos (hwhole.digits d List.mem_cons_self), hread, Input.skip, hdrop, hf, hu, hp,
    if_pos hfloat, List.drop_eq_nil_of_le hend]
  exact ⟨_, rfl⟩

/-! ### Decimals -/

/-- The digits of a positive number. -/
structure IsLeading (ds : List Char) : Prop where
  ne_nil : ds ≠ []
  digits : ∀ c ∈ ds, c.isDigit = true
  head : ds.head? ≠ some '0'

section Decimals

variable {ds : List Char}

theorem reads_fraction {whole : List Char} (hwhole : IsWhole whole) (hne : ds ≠ [])
    (hds : ∀ c ∈ ds, c.isDigit = true) :
    Reads (whole ++ '.' :: ds) (numeral (whole ++ ds) * 10 ^ (-ds.length : Int)) := by
  have hend : NoDigit [] := fun c hc => by cases hc
  have hfraction : fraction? ('.' :: (ds ++ [])) = some ds := fraction?_digits hne hds hend
  rw [List.append_nil] at hfraction
  have hread := reads_parts hwhole (by rintro _ ⟨⟩; rfl) hfraction (u := []) (p := none) (by simp)
    rfl (Nat.zero_le _) rfl
  simpa using hread

theorem reads_exponent {whole es : List Char} (hwhole : IsWhole whole)
    (hds : ∀ c ∈ ds, c.isDigit = true) (hne : es ≠ []) (hes : ∀ c ∈ es, c.isDigit = true) {e : Int}
    (he : numeral es = e.natAbs) :
    Reads
      (whole ++ (if ds = [] then [] else '.' :: ds) ++ 'e' :: (if e < 0 then '-' else '+') :: es)
      (numeral (whole ++ ds) * 10 ^ (e - ds.length)) := by
  have hexponent := exponent?_digits hne hes he
  have hwidth : ('e' :: (if e < 0 then '-' else '+') :: es).length ≤ 2 + es.length := by
    rw [List.length_cons, List.length_cons]
    omega
  have hletter : NoDigit ('e' :: (if e < 0 then '-' else '+') :: es) := by
    rintro _ ⟨⟩
    rfl
  rw [List.append_assoc]
  by_cases hempty : ds = []
  · subst hempty
    exact reads_parts hwhole hletter (f := none) rfl rfl hexponent hwidth rfl
  · rw [if_neg hempty]
    exact reads_parts hwhole (by rintro _ ⟨⟩; rfl) (fraction?_digits hempty hds hletter)
      List.drop_left hexponent hwidth rfl

theorem isWhole_zero : IsWhole ['0'] := ⟨by simp, by decide, fun _ => rfl⟩

variable (h : IsLeading ds)
include h

theorem IsLeading.isWhole_take {n : Nat} (hn : 0 < n) (k : Nat) :
    IsWhole (ds.take n ++ List.replicate k '0') := by
  obtain ⟨d, cs, rfl⟩ := List.exists_cons_of_ne_nil h.ne_nil
  obtain ⟨n, rfl⟩ := Nat.exists_eq_add_of_lt hn
  refine ⟨by simp, ?_, fun hhead => ?_⟩
  · exact forall_isDigit_append (fun c hc => h.digits c (List.mem_of_mem_take hc))
      forall_isDigit_zeros
  · exact absurd hhead (by simpa using h.head)

/-- All digits stand after the point. -/
theorem reads_after_point (k : Nat) :
    Reads (['0', '.'] ++ List.replicate k '0' ++ ds)
      (numeral ds * 10 ^ (-k - ds.length : Int)) := by
  have hne : List.replicate k '0' ++ ds ≠ [] := by simp [h.ne_nil]
  have hread :=
    reads_fraction isWhole_zero hne (forall_isDigit_append forall_isDigit_zeros h.digits)
  have hnumeral : numeral (['0'] ++ (List.replicate k '0' ++ ds)) = numeral ds := by
    rw [← List.append_assoc, ← List.replicate_one, List.replicate_append_replicate,
      numeral_replicate_append]
  have hexponent : -((List.replicate k '0' ++ ds).length : Int) = -k - ds.length := by
    rw [List.length_append, List.length_replicate]
    omega
  rw [hnumeral, hexponent] at hread
  exact hread

/-- All digits stand before the point, and a zero is written after it. -/
theorem reads_before_point {n : Nat} (hn : 0 < n) (hlength : ds.length ≤ n) :
    Reads (ds.take n ++ List.replicate (n - ds.length) '0' ++ '.' :: ['0'])
      (numeral ds * 10 ^ (n - ds.length : Int)) := by
  have hread := reads_fraction (h.isWhole_take hn (n - ds.length)) (List.cons_ne_nil '0' [])
    (by decide)
  have hnumeral : numeral (ds.take n ++ List.replicate (n - ds.length) '0' ++ ['0']) =
      numeral ds * 10 ^ (n - ds.length + 1) := by
    rw [List.take_of_length_le hlength, List.append_assoc, ← List.replicate_one,
      List.replicate_append_replicate, numeral_append_replicate]
  have hvalue : (numeral ds * 10 ^ (n - ds.length + 1) : Nat) * 10 ^ (-(1 : Nat) : Int) =
      (numeral ds * 10 ^ (n - ds.length : Int) : Rat) := by
    have hexponent : (n : Int) - ds.length = (n - ds.length + 1 : Nat) + -(1 : Nat) := by omega
    rw [hexponent, zpow_add₀ (by norm_num), zpow_natCast, ← mul_assoc]
    push_cast
    rfl
  rw [hnumeral] at hread
  exact hvalue ▸ hread

/-- The point stands between the digits. -/
theorem reads_across_point {n : Nat} (hn : 0 < n) (hlength : n < ds.length) :
    Reads (ds.take n ++ '.' :: ds.drop n) (numeral ds * 10 ^ (n - ds.length : Int)) := by
  have hwhole := h.isWhole_take hn 0
  rw [List.replicate_zero, List.append_nil] at hwhole
  have hdrop : ds.drop n ≠ [] := by
    rw [Ne, List.drop_eq_nil_iff]
    omega
  have hread := reads_fraction hwhole hdrop fun c hc => h.digits c (List.mem_of_mem_drop hc)
  have hexponent : -((ds.drop n).length : Int) = n - ds.length := by
    rw [List.length_drop]
    omega
  rwa [hexponent, List.take_append_drop] at hread

/-- A text without an exponent is read as the decimal. -/
theorem reads_positional (point : Int) :
    Reads (positional ds point) (numeral ds * 10 ^ (point - ds.length)) := by
  unfold positional
  split_ifs with hpoint
  · have hzeros : -((-point).toNat : Int) = point := by omega
    have hread := reads_after_point h (-point).toNat
    rwa [hzeros] at hread
  · obtain ⟨n, rfl⟩ := Int.eq_ofNat_of_zero_le (not_le.1 hpoint).le
    dsimp only
    rw [Int.toNat_natCast, List.append_assoc]
    by_cases hlength : ds.length ≤ n
    · rw [List.drop_eq_nil_of_le hlength]
      exact reads_before_point h (by omega) hlength
    · have hdrop : ¬ (ds.drop n).isEmpty = true := by
        rw [List.isEmpty_iff, List.drop_eq_nil_iff]
        exact hlength
      have hzeros : n - ds.length = 0 := by omega
      rw [hzeros, List.replicate_zero, List.append_nil, if_neg hdrop]
      exact reads_across_point h (by omega) (not_le.1 hlength)

/-- A text with an exponent is read as the decimal. -/
theorem reads_scientific (point : Int) :
    Reads (scientific ds point) (numeral ds * 10 ^ (point - ds.length)) := by
  obtain ⟨d, cs, rfl⟩ := List.exists_cons_of_ne_nil h.ne_nil
  have hwhole : IsWhole [d] := h.isWhole_take Nat.one_pos 0
  have hcs : ∀ c ∈ cs, c.isDigit = true := fun c hc => h.digits c (List.mem_cons_of_mem d hc)
  obtain ⟨e, rfl⟩ : ∃ e, e + 1 = point := ⟨point - 1, by omega⟩
  have hne : List.replicate (2 - (toString e.natAbs).toList.length) '0' ++
      (toString e.natAbs).toList ≠ [] := by
    simp [Nat.toDigits_ne_nil]
  have htext : ∀ c ∈ (toString e.natAbs).toList, c.isDigit = true := by
    rw [toList_toString]
    exact fun c => isDigit_of_mem
  have hread := reads_exponent hwhole hcs hne (forall_isDigit_append forall_isDigit_zeros htext)
    (by rw [numeral_replicate_append, toList_toString, numeral_toDigits])
  have hexponent : e + 1 - ((d :: cs).length : Int) = e - cs.length := by
    rw [List.length_cons]
    omega
  unfold scientific
  dsimp only
  rw [add_sub_cancel_right, hexponent]
  have hpoint : (if (d :: cs).length ≤ 1 then [] else '.' :: (d :: cs).drop 1) =
      if cs = [] then [] else '.' :: cs := by
    cases cs <;> simp
  rw [hpoint, List.append_assoc, List.append_assoc]
  rw [List.append_assoc] at hread
  exact hread

end Decimals

/-! ### Doubles -/

theorem exists_zeros (ds : List Char) :
    ∃ k, (ds.reverse.dropWhile (· == '0')).reverse ++ List.replicate k '0' = ds := by
  obtain ⟨zs, hzs⟩ : ∃ zs, ds.reverse.takeWhile (· == '0') = zs := ⟨_, rfl⟩
  have hzeros : zs = List.replicate zs.length '0' := by
    refine List.eq_replicate_iff.2 ⟨rfl, fun c hc => ?_⟩
    rw [← hzs] at hc
    exact beq_iff_eq.1 (List.mem_takeWhile_imp (p := (· == '0')) hc)
  refine ⟨zs.length, ?_⟩
  rw [← List.reverse_inj, List.reverse_append, List.reverse_reverse, List.reverse_replicate,
    ← hzeros, ← hzs, List.takeWhile_append_dropWhile]

/-- The significant digits of a decimal and the place of its point write the decimal. -/
theorem significant_spec {d : Decimal} (h : 0 < d.digits) : IsLeading (significant d).1 ∧
    (numeral (significant d).1 * 10 ^ ((significant d).2 - (significant d).1.length) : Rat) =
      d.digits * 10 ^ d.exponent := by
  obtain ⟨kept, hkept⟩ : ∃ kept, (significant d).1 = kept := ⟨_, rfl⟩
  have hpoint : (significant d).2 = (Nat.toDigits 10 d.digits).length + d.exponent := by
    rw [← toList_toString]
    rfl
  obtain ⟨k, hk⟩ := exists_zeros (toString d.digits).toList
  change (significant d).1 ++ List.replicate k '0' = _ at hk
  rw [hkept, toList_toString] at hk
  have hnumeral : numeral kept * 10 ^ k = d.digits := by
    rw [← numeral_append_replicate, hk, numeral_toDigits]
  have hne : kept ≠ [] := by
    rintro rfl
    exact h.ne' (hnumeral.symm.trans (Nat.zero_mul _))
  rw [hkept, hpoint, ← hk]
  refine ⟨⟨hne, fun c hc => isDigit_of_mem (hk ▸ List.mem_append_left _ hc), fun hhead => ?_⟩, ?_⟩
  · refine h.ne' (eq_zero_of_head?_toDigits ?_)
    rw [← hk, List.head?_append_of_ne_nil _ hne, hhead]
  · have hexponent : ((kept ++ List.replicate k '0').length : Int) + d.exponent - kept.length =
        k + d.exponent := by
      rw [List.length_append, List.length_replicate]
      omega
    rw [hexponent, zpow_add₀ (by norm_num), zpow_natCast, ← mul_assoc, ← hnumeral]
    push_cast
    rfl

/-- The text of a double consists of its sign and the significant digits of its shortest decimal. -/
theorem toList_write_double (s : Sign) {m : Nat} {e : Int} (h : IsCanonical m e) {d : Decimal}
    (hd : (⟨isMinus s, m, e⟩ : ExactValue).shortest = d) {body : List Char}
    (hbody : (if -4 < (significant d).2 ∧ (significant d).2 ≤ 16
      then positional (significant d).1 (significant d).2
      else scientific (significant d).1 (significant d).2) = body) :
    (write (float (double s h))).toList = if isMinus s then '-' :: body else body := by
  have hnan : (double s h).isNaN = false := by
    show (double s h).toModel.unpack.isNaN = false
    rw [unpack_double]
    rfl
  have hinf : (double s h).isInf = false := by
    show (double s h).toModel.unpack.isInf = false
    rw [unpack_double]
    rfl
  have hfinite : ¬ false = true := Bool.false_ne_true
  rw [write, hnan, if_neg hfinite, hinf, if_neg hfinite, floatText, hnan, if_neg hfinite]
  dsimp only
  rw [hinf, if_neg hfinite, ofFloat_double, if_neg h.pos.ne', hd, hbody, String.toList_ofList]

theorem readsBack_double (s : Sign) {m : Nat} {e : Int} (h : IsCanonical m e) :
    ReadsBack (float (double s h)) := by
  have hadmits := ExactValue.admits_shortest (isMinus s) h
  obtain ⟨d, hd⟩ : ∃ d, (⟨isMinus s, m, e⟩ : ExactValue).shortest = d := ⟨_, rfl⟩
  rw [hd] at hadmits
  have hpos := hadmits.pos h
  have hdigits : 0 < d.digits := by
    by_contra hzero
    simp [Nat.eq_zero_of_not_pos hzero] at hpos
  obtain ⟨hleading, hvalue⟩ := significant_spec hdigits
  obtain ⟨body, hbody⟩ : ∃ body, (if -4 < (significant d).2 ∧ (significant d).2 ≤ 16
      then positional (significant d).1 (significant d).2
      else scientific (significant d).1 (significant d).2) = body := ⟨_, rfl⟩
  obtain ⟨n, k, hq, hread⟩ : Reads body (d.digits * 10 ^ d.exponent) := by
    rw [← hvalue, ← hbody]
    split_ifs
    · exact reads_positional hleading _
    · exact reads_scientific hleading _
  rw [← hq] at hadmits hpos
  have hn : 0 < n := by
    by_contra hzero
    simp [Nat.eq_zero_of_not_pos hzero] at hpos
  rw [floatOfDecimal_eq h hn hadmits] at hread
  obtain ⟨c, t, rfl, hc⟩ := exists_digit_of_readUnsigned (hread ⟨0, []⟩ false 0).choose_spec
  unfold ReadsBack
  rw [toList_write_double s h hd hbody]
  cases s with
  | positive =>
    obtain ⟨pos, hpositive⟩ := hread ⟨0, c :: t⟩ false 0
    exact ⟨pos, (readScalar_digit hc 0 t).trans hpositive⟩
  | negative =>
    obtain ⟨pos, hnegative⟩ := hread ⟨0, '-' :: c :: t⟩ true 1
    rw [neg_double] at hnegative
    exact ⟨pos, (readScalar_minus hc 0 t).trans hnegative⟩

/-- A double is read back from its text. -/
theorem readsBack_float (x : Float) : ReadsBack (float x) := by
  have hx := eq_ofModel_pack x
  cases hu : x.toModel.unpack with
  | notANumber =>
    rw [hx, hu]
    exact ⟨3, rfl⟩
  | infinity s =>
    rw [hx, hu]
    cases s with
    | positive => exact ⟨8, rfl⟩
    | negative => exact ⟨9, rfl⟩
  | zero s =>
    rw [hx, hu]
    cases s with
    | positive => exact ⟨3, rfl⟩
    | negative => exact ⟨4, rfl⟩
  | finite s m e h =>
    rw [hx, hu]
    exact readsBack_double s (isCanonical_of_unpack hu)

end CrmQuery.Json
