import CrmQuery.Text.Word
import Mathlib.Data.List.TakeWhile

/-!
# Blanks at the ends of a text

No blank is a word character (`isWord_of_isBlank`).  Stripping a text cuts off the blanks at its
ends (`exists_eq_strip`), and only those at its end if it begins with a word (`exists_strip_eq`).  A
gap (`IsGap`) is a run of blanks between two words, and a run is known from the text that begins
with it (`eq_of_append_runs`).
-/

namespace CrmQuery.Text

/-- The code points of blanks. -/
def blankPoints : List Nat := [
  0x9, 0xA, 0xB, 0xC, 0xD, 0x1C, 0x1D, 0x1E, 0x1F, 0x20, 0x85, 0xA0, 0x1680, 0x2000, 0x2001, 0x2002,
  0x2003, 0x2004, 0x2005, 0x2006, 0x2007, 0x2008, 0x2009, 0x200A, 0x2028, 0x2029, 0x202F, 0x205F,
  0x3000]

theorem toNat_mem_blankPoints {c : Char} (h : isBlank c = true) : c.toNat ∈ blankPoints := by
  simp only [isBlank, isSpace, Bool.or_eq_true, Bool.and_eq_true, decide_eq_true_eq] at h
  simp only [blankPoints, List.mem_cons, List.not_mem_nil, or_false]
  split_ifs at h with hc
  · simp only [Bool.or_eq_true, Bool.and_eq_true, beq_iff_eq, decide_eq_true_eq] at h
    omega
  · simp only [Bool.or_eq_true, Bool.and_eq_true, beq_iff_eq, decide_eq_true_eq] at h
    omega

theorem isWord_of_isBlank {c : Char} (h : isBlank c = true) : isWord c = false := by
  have key : ∀ n ∈ blankPoints, wordRanges.has n = false := by decide +kernel
  exact key c.toNat (toNat_mem_blankPoints h)

theorem isBlank_of_isWord {c : Char} (h : isWord c = true) : isBlank c = false := by
  rw [Bool.eq_false_iff]
  intro hblank
  rw [isWord_of_isBlank hblank] at h
  cases h

theorem dropWhile_append_eq {p : Char → Bool} {a b : List Char} (hb : b.dropWhile p = b) :
    (a ++ b).dropWhile p = a.dropWhile p ++ b := by
  rw [List.dropWhile_append, hb]
  split_ifs with h
  · rw [List.isEmpty_iff.1 h, List.nil_append]
  · rfl

/-- Stripping a text cuts off blanks at its ends. -/
theorem exists_eq_strip (s : List Char) : ∃ a b, s = a ++ strip s ++ b ∧
    (∀ c ∈ a, isBlank c = true) ∧ ∀ c ∈ b, isBlank c = true := by
  refine ⟨s.takeWhile isBlank, ((s.dropWhile isBlank).reverse.takeWhile isBlank).reverse,
    ?_, fun c hc => List.mem_takeWhile_imp hc,
    fun c hc => List.mem_takeWhile_imp (List.mem_reverse.1 hc)⟩
  rw [strip, stripBy, List.append_assoc, ← List.reverse_append, List.takeWhile_append_dropWhile,
    List.reverse_reverse, List.takeWhile_append_dropWhile]

theorem isBlank_of_mem_getLast?_strip {s : List Char} {c : Char} (h : c ∈ (strip s).getLast?) :
    isBlank c = false := by
  rw [strip, stripBy, List.getLast?_reverse] at h
  have hhead := List.head?_dropWhile_not isBlank (s.dropWhile isBlank).reverse
  rw [Option.mem_def.1 h] at hhead
  simpa using hhead

theorem isBlank_of_mem_head?_strip {s : List Char} {c : Char} (h : c ∈ (strip s).head?) :
    isBlank c = false := by
  have hbegins : strip s <+: s.dropWhile isBlank := by
    rw [← List.reverse_suffix, strip, stripBy, List.reverse_reverse]
    exact List.dropWhile_suffix _
  obtain ⟨t, ht⟩ := hbegins
  have hhead := List.head?_dropWhile_not isBlank s
  rw [← ht, List.head?_append, Option.mem_def.1 h] at hhead
  simpa using hhead

theorem dropWhile_isBlank_eq_self {l : List Char} (h : ∀ c ∈ l.head?, isBlank c = false) :
    l.dropWhile isBlank = l := by
  cases l with
  | nil => rfl
  | cons c l => rw [List.dropWhile_cons_of_neg (by simp [h c rfl])]

/-- Around a text without blanks at its ends, stripping cuts off blanks before it and at the end of
what follows it. -/
theorem exists_strip_append_eq {a u v : List Char} (ha : ∀ c ∈ a, isBlank c = true) (hne : u ≠ [])
    (hhead : ∀ c ∈ u.head?, isBlank c = false) (hlast : ∀ c ∈ u.getLast?, isBlank c = false) :
    ∃ v' w, v = v' ++ w ∧ (∀ c ∈ w, isBlank c = true) ∧ strip (a ++ (u ++ v)) = u ++ v' := by
  have hfront : (a ++ (u ++ v)).dropWhile isBlank = u ++ v := by
    rw [List.dropWhile_append_of_pos ha]
    refine dropWhile_isBlank_eq_self fun c hc => hhead c ?_
    rwa [List.head?_append, List.head?_eq_some_head hne, Option.some_or,
      ← List.head?_eq_some_head hne] at hc
  have hback : u.reverse.dropWhile isBlank = u.reverse :=
    dropWhile_isBlank_eq_self fun c hc => hlast c (List.head?_reverse ▸ hc)
  refine ⟨(v.reverse.dropWhile isBlank).reverse, (v.reverse.takeWhile isBlank).reverse, ?_, ?_, ?_⟩
  · rw [← List.reverse_append, List.takeWhile_append_dropWhile, List.reverse_reverse]
  · intro c hc
    exact List.mem_takeWhile_imp (List.mem_reverse.1 hc)
  · unfold strip stripBy
    rw [hfront, List.reverse_append, dropWhile_append_eq hback, List.reverse_append,
      List.reverse_reverse]

/-- Stripping a text that begins with other characters than blanks cuts off blanks after them. -/
theorem exists_strip_eq {u v : List Char} (hne : u ≠ []) (hu : ∀ c ∈ u, isBlank c = false) :
    ∃ v' w, v = v' ++ w ∧ (∀ c ∈ w, isBlank c = true) ∧ strip (u ++ v) = u ++ v' :=
  exists_strip_append_eq (a := []) (by simp) hne (fun c hc => hu c (List.mem_of_head? hc))
    fun c hc => hu c (List.mem_of_getLast? hc)

/-! ### Runs -/

/-- A run ends where the next character is none of it. -/
theorem takeWhile_append_of_head? {p : Char → Bool} (a : List Char) {b : List Char}
    (hb : ∀ c ∈ b.head?, p c = false) : (a ++ b).takeWhile p = a.takeWhile p := by
  induction a with
  | nil =>
    cases b with
    | nil => rfl
    | cons c b => simp [hb c rfl]
  | cons c a ih => simp [List.takeWhile_cons, ih]

/-- A text begins with one run only, if the next character is none of it. -/
theorem eq_of_append_runs {p : Char → Bool} {x y a b : List Char} (h : x ++ a = y ++ b)
    (hx : ∀ c ∈ x, p c = true) (hy : ∀ c ∈ y, p c = true) (ha : ∀ c ∈ a.head?, p c = false)
    (hb : ∀ c ∈ b.head?, p c = false) : x = y ∧ a = b := by
  have hxy : x = y := by
    rw [← List.takeWhile_eq_self_iff.2 hx, ← List.takeWhile_eq_self_iff.2 hy,
      ← takeWhile_append_of_head? x ha, ← takeWhile_append_of_head? y hb, h]
  subst hxy
  exact ⟨rfl, List.append_cancel_left h⟩

/-! ### Gaps -/

/-- One blank or more, and nothing else. -/
structure IsGap (z : List Char) : Prop where
  ne_nil : z ≠ []
  blank : ∀ c ∈ z, isBlank c = true

/-- A text that begins with a gap begins with a blank. -/
theorem IsGap.isBlank_head? {z : List Char} (h : IsGap z) (v : List Char) :
    ∀ c ∈ (z ++ v).head?, isBlank c = true := by
  obtain ⟨d, z, rfl⟩ := List.exists_cons_of_ne_nil h.ne_nil
  intro c hc
  obtain rfl : d = c := Option.some.inj hc
  exact h.blank d List.mem_cons_self

theorem IsGap.isWordAt_head? {z : List Char} (h : IsGap z) : isWordAt z.head? = false := by
  obtain ⟨c, z, rfl⟩ := List.exists_cons_of_ne_nil h.ne_nil
  exact isWord_of_isBlank (h.blank c List.mem_cons_self)

theorem IsGap.isWordAt_getLast? {z : List Char} (h : IsGap z) : isWordAt z.getLast? = false := by
  rw [List.getLast?_eq_some_getLast h.ne_nil]
  exact isWord_of_isBlank (h.blank _ (List.getLast_mem _))

/-- The blanks at the end of a text are cut off in one way only. -/
theorem eq_of_append_blanks {u v y z : List Char} (h : u ++ y = v ++ z)
    (hy : ∀ c ∈ y, isBlank c = true) (hz : ∀ c ∈ z, isBlank c = true)
    (hu : ∀ c ∈ u.getLast?, isBlank c = false) (hv : ∀ c ∈ v.getLast?, isBlank c = false) :
    u = v ∧ y = z := by
  have hcut : ∀ {u y : List Char}, (∀ c ∈ y, isBlank c = true) →
      (∀ c ∈ u.getLast?, isBlank c = false) → (u ++ y).reverse.dropWhile isBlank = u.reverse := by
    intro u y hy hu
    rw [List.reverse_append, List.dropWhile_append_of_pos fun c hc => hy c (List.mem_reverse.1 hc)]
    apply dropWhile_isBlank_eq_self
    rwa [List.head?_reverse]
  have huv : u = v := by
    rw [← List.reverse_inj, ← hcut hy hu, ← hcut hz hv, h]
  subst huv
  exact ⟨rfl, List.append_cancel_left h⟩

end CrmQuery.Text
