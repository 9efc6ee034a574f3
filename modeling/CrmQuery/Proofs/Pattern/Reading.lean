import CrmQuery.Proofs.Pattern.Words
import CrmQuery.Proofs.Text.Blank

/-!
# What fits read

A fit reads the text between its ends, and each character of it belongs to a class of the pattern
(`Fits.exists_reads`).  Two classes are `apart` if no character belongs to both, and a pattern that
is apart from a class reads none of its characters (`Fits.has_eq_false`).
-/

namespace CrmQuery

open Text

/-! ### Classes -/

theorem isDigit_caseKey (c : Char) : isDigit (caseKey c) = isDigit c :=
  eq_of_caseKey (by decide +kernel) (by decide +kernel) c

theorem isBlank_caseKey (c : Char) : isBlank (caseKey c) = isBlank c :=
  eq_of_caseKey (by decide +kernel) (by decide +kernel) c

theorem isDigit_of_isBlank {c : Char} (h : isBlank c = true) : isDigit c = false := by
  have key : ∀ n ∈ blankPoints, (digitFrom? zeros n).isSome = false := by decide +kernel
  exact key c.toNat (toNat_mem_blankPoints h)

namespace CharClass

/-- All spellings of a character belong to the same classes. -/
theorem has_caseKey (cls : CharClass) (c : Char) : cls.has (caseKey c) = cls.has c := by
  cases cls with
  | oneOf keys => rw [has, has, caseKey_caseKey]
  | digit => exact isDigit_caseKey c
  | blank => exact isBlank_caseKey c
  | nonBlank => exact congrArg (!·) (isBlank_caseKey c)

/-- No character belongs to both classes. -/
def apart : CharClass → CharClass → Bool
  | oneOf keys, cls | cls, oneOf keys => keys.all fun k => !cls.has k
  | digit, blank | blank, digit => true
  | _, _ => false

theorem false_of_all {keys : List Char} {cls : CharClass} {c : Char}
    (h : (keys.all fun k => !cls.has k) = true) (hc : (oneOf keys).has c = true)
    (hc' : cls.has c = true) : False := by
  have hkey := List.all_eq_true.1 h (caseKey c) (List.contains_iff_mem.1 hc)
  rw [has_caseKey, hc'] at hkey
  cases hkey

theorem has_eq_false {cls cls' : CharClass} (h : cls.apart cls' = true) {c : Char}
    (hc : cls.has c = true) : cls'.has c = false := by
  refine Bool.eq_false_iff.2 fun hc' => ?_
  cases cls with
  | oneOf keys => exact false_of_all h hc hc'
  | digit =>
    cases cls' with
    | oneOf keys => exact false_of_all h hc' hc
    | blank => exact absurd hc (Bool.eq_false_iff.1 (isDigit_of_isBlank hc'))
    | digit | nonBlank => cases h
  | blank =>
    cases cls' with
    | oneOf keys => exact false_of_all h hc' hc
    | digit => exact absurd hc' (Bool.eq_false_iff.1 (isDigit_of_isBlank hc))
    | blank | nonBlank => cases h
  | nonBlank =>
    cases cls' with
    | oneOf keys => exact false_of_all h hc' hc
    | digit | blank | nonBlank => cases h

end CharClass

/-! ### Readings -/

theorem Cursor.Reads.trans {c d e : Cursor} {x y : List Char} (h : c.Reads x d)
    (h' : d.Reads y e) : c.Reads (x ++ y) e := by
  refine ⟨by rw [h.rest, h'.rest, List.append_assoc], ?_⟩
  rw [h'.before, h.before, List.getLast?_append, Option.or_assoc]

theorem Cursor.Reads.remember {c d : Cursor} {x : List Char} (h : c.Reads x d) (name : Part)
    (since : Cursor) : c.Reads x (d.remember name since) :=
  ⟨h.rest, h.before⟩

namespace Pattern

/-- The classes of the characters that a pattern reads. -/
def classes : Pattern → List CharClass
  | empty | edge => []
  | one cls => [cls]
  | seq p q | either p q => p.classes ++ q.classes
  | many p | part _ p => p.classes

/-- No fit of the pattern reads a character of the class. -/
def apart (p : Pattern) (cls : CharClass) : Bool := p.classes.all (·.apart cls)

theorem Fits.pos_add {p : Pattern} {c d : Cursor} (h : Fits p c d) :
    d.pos + d.rest.length = c.pos + c.rest.length := by
  induction h with
  | empty | edge => rfl
  | @one _ _ _ _ hrest _ =>
    simp only [Cursor.step, hrest, List.length_cons]
    omega
  | seq _ _ ihp ihq => exact ihq.trans ihp
  | more _ _ ihp ihm => exact ihm.trans ihp
  | left _ _ ih | right _ _ ih | once _ ih => exact ih
  | part _ _ ih => exact ih

/-- A fit reads a text of characters of the classes of the pattern. -/
theorem Fits.exists_reads {p : Pattern} {c d : Cursor} (h : Fits p c d) :
    ∃ x, c.Reads x d ∧ ∀ e ∈ x, ∃ cls ∈ p.classes, cls.has e = true := by
  induction h with
  | empty | edge => exact ⟨[], ⟨rfl, rfl⟩, by simp⟩
  | @one cls c x rest hrest hx => exact ⟨[x], ⟨hrest, rfl⟩, by simpa [classes] using hx⟩
  | seq _ _ ihp ihq =>
    obtain ⟨x, hx, hxc⟩ := ihp
    obtain ⟨y, hy, hyc⟩ := ihq
    refine ⟨x ++ y, hx.trans hy, fun e he => ?_⟩
    simp only [classes, List.mem_append, or_and_right, exists_or]
    exact (List.mem_append.1 he).imp (hxc e) (hyc e)
  | left q _ ih =>
    obtain ⟨x, hx, hxc⟩ := ih
    refine ⟨x, hx, fun e he => ?_⟩
    simp only [classes, List.mem_append, or_and_right, exists_or]
    exact Or.inl (hxc e he)
  | right p _ ih =>
    obtain ⟨x, hx, hxc⟩ := ih
    refine ⟨x, hx, fun e he => ?_⟩
    simp only [classes, List.mem_append, or_and_right, exists_or]
    exact Or.inr (hxc e he)
  | once _ ih => exact ih
  | more _ _ ihp ihm =>
    obtain ⟨x, hx, hxc⟩ := ihp
    obtain ⟨y, hy, hyc⟩ := ihm
    exact ⟨x ++ y, hx.trans hy, fun e he => (List.mem_append.1 he).elim (hxc e) (hyc e)⟩
  | part name _ ih =>
    obtain ⟨x, hx, hxc⟩ := ih
    exact ⟨x, hx.remember name _, hxc⟩

/-- A fit reads no character of a class that the pattern is apart from. -/
theorem Fits.has_eq_false {p : Pattern} {c d : Cursor} (h : Fits p c d) (cls : CharClass)
    (hp : p.apart cls = true) : ∃ x, c.Reads x d ∧ ∀ e ∈ x, cls.has e = false := by
  obtain ⟨x, hx, hxc⟩ := h.exists_reads
  refine ⟨x, hx, fun e he => ?_⟩
  obtain ⟨cls', hcls', he'⟩ := hxc e he
  exact CharClass.has_eq_false (List.all_eq_true.1 hp cls' hcls') he'

end Pattern

/-! ### Fits along a text -/

namespace Cursor

/-- The place after the text `x` from a place on. -/
def advance (c : Cursor) (x : List Char) : Cursor :=
  { c with
    pos := c.pos + x.length
    before := x.getLast?.or c.before
    rest := c.rest.drop x.length }

theorem advance_nil (c : Cursor) : c.advance [] = c := rfl

theorem advance_step {c : Cursor} {x : Char} {rest : List Char} (h : c.rest = x :: rest)
    (xs : List Char) : (c.step x rest).advance xs = c.advance (x :: xs) := by
  have hlast : xs.getLast?.or (some x) = (x :: xs).getLast?.or c.before := by
    cases xs <;> simp [List.getLast?_cons]
  simp only [advance, step, hlast, h, List.length_cons, List.drop_succ_cons, Cursor.mk.injEq,
    and_true]
  omega

theorem reads_advance {c : Cursor} {x rest : List Char} (h : c.rest = x ++ rest) :
    c.Reads x (c.advance x) ∧ (c.advance x).rest = rest := by
  have hrest : (c.advance x).rest = rest := by simp [advance, h]
  exact ⟨⟨by rw [hrest, h], rfl⟩, hrest⟩

end Cursor

namespace Pattern

theorem fits_lit {w : String} {c : Cursor} {x rest : List Char}
    (hx : x.map caseKey = w.toList.map caseKey) (hrest : c.rest = x ++ rest) :
    Fits (lit w) c (c.advance x) := by
  unfold lit
  generalize w.toList = ks at hx
  induction ks generalizing c x with
  | nil =>
    rw [List.map_nil, List.map_eq_nil_iff] at hx
    rw [hx, Cursor.advance_nil]
    exact .empty c
  | cons k ks ih =>
    cases x with
    | nil => cases hx
    | cons y x =>
      rw [List.map_cons, List.map_cons, List.cons.injEq] at hx
      rw [← Cursor.advance_step hrest]
      refine .seq (.one hrest ?_) (ih rfl hx.2)
      simpa [CharClass.has] using hx.1

/-- Repetitions of a class fit every run of its characters. -/
theorem fits_many_one {cls : CharClass} {x : List Char} (hne : x ≠ [])
    (hx : ∀ e ∈ x, cls.has e = true) {c : Cursor} {rest : List Char} (hrest : c.rest = x ++ rest) :
    Fits (many (one cls)) c (c.advance x) := by
  induction x generalizing c with
  | nil => exact absurd rfl hne
  | cons y x ih =>
    have hy := hx y List.mem_cons_self
    rw [← Cursor.advance_step hrest]
    by_cases hnil : x = []
    · subst hnil
      exact .once (.one hrest hy)
    · apply Fits.more (.one hrest hy)
      exact ih hnil (fun e he => hx e (List.mem_cons_of_mem y he)) rfl

theorem fits_blanks {c : Cursor} {x rest : List Char} (hx : ∀ e ∈ x, isBlank e = true)
    (hrest : c.rest = x ++ rest) : Fits blanks c (c.advance x) := by
  cases x with
  | nil =>
    rw [Cursor.advance_nil]
    exact .right _ (.empty c)
  | cons y x =>
    have hclass : ∀ e ∈ y :: x, CharClass.blank.has e = true := hx
    exact .left _ (fits_many_one (List.cons_ne_nil y x) hclass hrest)

end Pattern

end CrmQuery
