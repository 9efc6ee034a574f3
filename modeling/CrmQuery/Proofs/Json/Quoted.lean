import CrmQuery.Json.Reader
import CrmQuery.Json.Writer
import Mathlib.Tactic.SplitIfs

/-!
# Quoted texts read back

The escape of a character is read as the character (`Json.readQuoted_escapeChar`), so a quoted text
is read as the text (`Json.readString_writeString`).
-/

namespace CrmQuery

open Text

/-! ### Hexadecimal digits -/

theorem hexadecimal_four {n : Nat} (h : n < 0x10000) : hexadecimal 4 n =
    [(n / 0x1000).digitChar, (n / 0x100 % 16).digitChar, (n / 16 % 16).digitChar,
      (n % 16).digitChar] := by
  have hsmall : ∀ {m}, m < 16 → Nat.toDigits 16 m = [m.digitChar] := Nat.toDigits_of_lt_base
  have hlarge : ∀ {m}, 16 ≤ m →
      Nat.toDigits 16 m = Nat.toDigits 16 (m / 16) ++ [(m % 16).digitChar] :=
    fun h => Nat.toDigits_of_base_le (by decide) h
  have hdiv : n / 16 / 16 = n / 0x100 := by omega
  have hdiv' : n / 0x100 / 16 = n / 0x1000 := by omega
  have hzero : (0 : Nat).digitChar = '0' := rfl
  unfold hexadecimal
  by_cases h₁ : n < 16
  · have h₀ : n / 0x1000 = 0 ∧ n / 0x100 % 16 = 0 ∧ n / 16 % 16 = 0 ∧ n % 16 = n := by omega
    simp [hsmall h₁, h₀, hzero, List.replicate_succ]
  · rw [hlarge (by omega)]
    by_cases h₂ : n / 16 < 16
    · have h₀ : n / 0x1000 = 0 ∧ n / 0x100 % 16 = 0 ∧ n / 16 % 16 = n / 16 := by omega
      simp [hsmall h₂, h₀, hzero, List.replicate_succ]
    · rw [hlarge (by omega), hdiv]
      by_cases h₃ : n / 0x100 < 16
      · have h₀ : n / 0x1000 = 0 ∧ n / 0x100 % 16 = n / 0x100 := by omega
        simp [hsmall h₃, h₀, hzero, List.replicate_succ]
      · have h₄ : n / 0x1000 < 16 := by omega
        rw [hlarge (by omega), hdiv', hsmall h₄]
        simp

namespace Json

theorem hexValue?_digitChar {d : Nat} (h : d < 16) : hexValue? d.digitChar = some d := by
  have key : ∀ d : Fin 16, hexValue? d.val.digitChar = some d.val := by decide
  exact key ⟨d, h⟩

/-- The four digits of a code unit are read if anything follows them. -/
theorem unit?_hexadecimal {n : Nat} (h : n < 0x10000) {rest : List Char} (hrest : rest ≠ []) :
    unit? (hexadecimal 4 n ++ rest) = some n := by
  obtain ⟨c, rest, rfl⟩ := List.exists_cons_of_ne_nil hrest
  have hvalue : 0x1000 * (n / 0x1000) + 0x100 * (n / 0x100 % 16) + 0x10 * (n / 16 % 16) + n % 16 =
      n := by omega
  rw [hexadecimal_four h]
  simp only [List.cons_append, List.nil_append, unit?,
    hexValue?_digitChar (show n / 0x1000 < 16 by omega),
    hexValue?_digitChar (show n / 0x100 % 16 < 16 by omega),
    hexValue?_digitChar (show n / 16 % 16 < 16 by omega),
    hexValue?_digitChar (show n % 16 < 16 by omega), Option.bind_eq_bind, Option.bind_some, hvalue]
  rfl

theorem drop_hexadecimal {n : Nat} (h : n < 0x10000) (rest : List Char) :
    (hexadecimal 4 n ++ rest).drop 4 = rest := by
  rw [hexadecimal_four h]
  rfl

/-! ### Escapes -/

section Escape

variable (start fuel : Nat) (acc : List Char) (pos : Nat) {rest : List Char}

/-- A character that is no sign of its own is read as it is. -/
theorem readQuoted_plain {c : Char} (hquote : c ≠ '"') (hbackslash : c ≠ '\\')
    (hc : 0x20 ≤ c.toNat) : readQuoted start (fuel + 1) acc ⟨pos, c :: rest⟩ =
      readQuoted start fuel (c :: acc) ⟨pos + 1, rest⟩ := by
  rw [readQuoted]
  split
  · rename_i h
    cases h
  · rename_i h
    exact absurd (List.cons.inj h).1 hquote
  · rename_i h
    exact absurd (List.cons.inj h).1 hbackslash
  · rename_i h
    exact absurd (List.cons.inj h).1 hbackslash
  · rename_i h
    exact absurd (List.cons.inj h).1 hbackslash
  · rename_i h
    obtain ⟨rfl, rfl⟩ := List.cons.inj h
    rw [if_neg (Nat.not_lt.2 hc)]
    rfl

/-- A code unit that is a character by itself is read as this character. -/
theorem readQuoted_unit {n : Nat} (hn : n < 0xD800 ∨ 0xDFFF < n) (h : n < 0x10000)
    (hrest : rest ≠ []) : readQuoted start (fuel + 1) acc ⟨pos, escapeUnit n ++ rest⟩ =
      readQuoted start fuel (Char.ofNat n :: acc) ⟨pos + 6, rest⟩ := by
  have hunit : unit? (hexadecimal 4 n ++ rest) = some n := unit?_hexadecimal h hrest
  have hhigh : ¬ (0xD800 ≤ n ∧ n < 0xDC00) := by omega
  have hlow : ¬ (0xDC00 ≤ n ∧ n < 0xE000) := by omega
  rw [escapeUnit, readQuoted]
  simp only [List.cons_append, hunit, if_neg hhigh, if_neg hlow, Input.skip, List.drop_succ_cons,
    drop_hexadecimal h]

/-- Two code units that are a character together are read as this character. -/
theorem readQuoted_pair {k : Nat} (h : k < 0x100000) (hrest : rest ≠ []) :
    readQuoted start (fuel + 1) acc
        ⟨pos, escapeUnit (0xD800 + k / 0x400) ++ (escapeUnit (0xDC00 + k % 0x400) ++ rest)⟩ =
      readQuoted start fuel (Char.ofNat (0x10000 + k) :: acc) ⟨pos + 12, rest⟩ := by
  have hhigh : 0xD800 ≤ 0xD800 + k / 0x400 ∧ 0xD800 + k / 0x400 < 0xDC00 := by omega
  have hlow : 0xDC00 + k % 0x400 < 0x10000 := by omega
  have hunit : unit? (hexadecimal 4 (0xD800 + k / 0x400) ++
      (escapeUnit (0xDC00 + k % 0x400) ++ rest)) = some (0xD800 + k / 0x400) :=
    unit?_hexadecimal (by omega) (by simp [escapeUnit])
  have hsecond : lowSurrogate? (escapeUnit (0xDC00 + k % 0x400) ++ rest) =
      some (0xDC00 + k % 0x400) := by
    unfold escapeUnit lowSurrogate?
    simp only [List.cons_append, unit?_hexadecimal hlow hrest]
    have hrange : (decide (0xDC00 ≤ 0xDC00 + k % 0x400) && decide (0xDC00 + k % 0x400 < 0xE000)) =
        true := by simp; omega
    simp only [Option.filter, hrange, if_true]
  have hvalue : 0x10000 + (0xD800 + k / 0x400 - 0xD800) * 0x400 + (0xDC00 + k % 0x400 - 0xDC00) =
      0x10000 + k := by omega
  have hdrop : (hexadecimal 4 (0xD800 + k / 0x400) ++
      (escapeUnit (0xDC00 + k % 0x400) ++ rest)).drop 4 = escapeUnit (0xDC00 + k % 0x400) ++ rest :=
    drop_hexadecimal (by omega) _
  have hdrop' : (hexadecimal 4 (0xD800 + k / 0x400) ++
      (escapeUnit (0xDC00 + k % 0x400) ++ rest)).drop 10 = rest := by
    rw [show 10 = 4 + 6 from rfl, ← List.drop_drop, hdrop]
    exact drop_hexadecimal hlow rest
  rw [escapeUnit, List.cons_append, List.cons_append, readQuoted]
  simp only [hunit, if_pos hhigh, hdrop, hsecond, hvalue, Input.skip, List.drop_succ_cons, hdrop']

/-- The escape of a character is read as the character, if anything follows it. -/
theorem readQuoted_escapeChar (c : Char) (hrest : rest ≠ []) : ∃ pos',
    readQuoted start (fuel + 1) acc ⟨pos, escapeChar c ++ rest⟩ =
      readQuoted start fuel (c :: acc) ⟨pos', rest⟩ := by
  have hvalid : c.toNat < 0xD800 ∨ 0xDFFF < c.toNat ∧ c.toNat < 0x110000 := c.valid
  unfold escapeChar
  simp only
  split_ifs with hquote hbackslash hplain hunit
  · subst hquote
    exact ⟨pos + 2, rfl⟩
  · subst hbackslash
    exact ⟨pos + 2, rfl⟩
  · exact ⟨pos + 1, readQuoted_plain start fuel acc pos hquote hbackslash hplain.1⟩
  · refine ⟨pos + 6, ?_⟩
    rw [readQuoted_unit start fuel acc pos (hvalid.imp_right And.left) hunit hrest,
      Char.ofNat_toNat]
  · refine ⟨pos + 12, ?_⟩
    have hk : 0x10000 + (c.toNat - 0x10000) = c.toNat := by omega
    rw [List.append_assoc, readQuoted_pair start fuel acc pos (by omega) hrest, hk,
      Char.ofNat_toNat]

end Escape

theorem escapeChar_ne_nil (c : Char) : escapeChar c ≠ [] := by
  unfold escapeChar
  dsimp only
  split_ifs
  all_goals exact List.cons_ne_nil _ _

/-- The escapes of a text and a quote are read as the text. -/
theorem readQuoted_flatMap (start : Nat) :
    ∀ (cs acc : List Char) (fuel pos : Nat) (rest : List Char),
      (cs.flatMap escapeChar).length < fuel → ∃ pos',
        readQuoted start fuel acc ⟨pos, cs.flatMap escapeChar ++ '"' :: rest⟩ =
          .ok (String.ofList (acc.reverse ++ cs), ⟨pos', rest⟩)
  | [], acc, fuel, pos, rest, h => by
    obtain ⟨fuel, rfl⟩ := Nat.exists_eq_succ_of_ne_zero (Nat.ne_of_gt h)
    exact ⟨pos + 1, by rw [List.append_nil]; rfl⟩
  | c :: cs, acc, fuel, pos, rest, h => by
    obtain ⟨fuel, rfl⟩ := Nat.exists_eq_succ_of_ne_zero (Nat.ne_of_gt (Nat.zero_lt_of_lt h))
    rw [List.flatMap_cons, List.length_append] at h
    have hpos := List.length_pos_iff.2 (escapeChar_ne_nil c)
    have hrest : cs.flatMap escapeChar ++ '"' :: rest ≠ [] := by simp
    obtain ⟨pos', hc⟩ := readQuoted_escapeChar start fuel acc pos c hrest
    obtain ⟨pos'', hcs⟩ := readQuoted_flatMap start cs (c :: acc) fuel pos' rest (by omega)
    refine ⟨pos'', ?_⟩
    rw [List.flatMap_cons, List.append_assoc, hc, hcs, List.reverse_cons, List.append_assoc]
    rfl

/-- A quoted text is read, and what follows it is left. -/
theorem readString_writeString (t : String) (pos : Nat) (rest : List Char) : ∃ pos',
    readString ⟨pos, (writeString t).toList ++ rest⟩ = .ok (t, ⟨pos', rest⟩) := by
  have htext : (writeString t).toList ++ rest =
      '"' :: (t.toList.flatMap escapeChar ++ '"' :: rest) := by
    simp [writeString]
  have hlt : (t.toList.flatMap escapeChar).length <
      ('"' :: (t.toList.flatMap escapeChar ++ '"' :: rest)).length := by
    simp only [List.length_cons, List.length_append]
    omega
  obtain ⟨pos', h⟩ := readQuoted_flatMap pos t.toList [] _ (pos + 1) rest hlt
  refine ⟨pos', ?_⟩
  rw [htext]
  exact h.trans (by rw [List.reverse_nil, List.nil_append, String.ofList_toList])

end Json

end CrmQuery
