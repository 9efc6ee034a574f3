import Mathlib.Tactic.Common

/-!
# Pieces and clauses of a text

`pieces sep s` cuts a text at the occurrences of a separator, which are looked for from left to
right.  `clauses s` cuts it at the line breaks after which the text is not indented: an indented
line continues the clause before it.  Texts that were put together are cut into what they were put
together from (`pieces_intercalate`, `clauses_intercalate`).
-/

namespace CrmQuery.Text

/-! ### Pieces -/

/-- The pieces of a text between the occurrences of a separator, of which the first `skip`
characters have been read. -/
def piecesFrom (sep : List Char) : Nat → List Char → List (List Char)
  | _, [] => [[]]
  | skip + 1, _ :: rest => piecesFrom sep skip rest
  | 0, c :: rest =>
    if sep.isPrefixOf (c :: rest) then [] :: piecesFrom sep (sep.length - 1) rest
    else (piecesFrom sep 0 rest).modifyHead (c :: ·)

/-- The pieces of a text between the occurrences of a separator. -/
def pieces (sep : List Char) (s : List Char) : List (List Char) := piecesFrom sep 0 s

section Pieces

variable {x : Char} {sep : List Char}

theorem piecesFrom_append (l s : List Char) :
    piecesFrom sep l.length (l ++ s) = piecesFrom sep 0 s := by
  induction l with
  | nil => rfl
  | cons c l ih => exact ih

/-- A character that does not begin the separator belongs to the first piece. -/
theorem pieces_cons {c : Char} (hc : c ≠ x) (s : List Char) :
    pieces (x :: sep) (c :: s) = (pieces (x :: sep) s).modifyHead (c :: ·) := by
  have h : (x :: sep).isPrefixOf (c :: s) = false := by simp [List.isPrefixOf, hc.symm]
  simp only [pieces, piecesFrom, h, Bool.false_eq_true, if_false]

theorem pieces_eq_singleton {l : List Char} (hl : x ∉ l) : pieces (x :: sep) l = [l] := by
  induction l with
  | nil => rfl
  | cons c l ih =>
    have hc : c ≠ x := fun e => hl (e ▸ List.mem_cons_self)
    rw [pieces_cons hc, ih fun h => hl (List.mem_cons_of_mem c h)]
    rfl

theorem pieces_append {l : List Char} (hl : x ∉ l) (s : List Char) :
    pieces (x :: sep) (l ++ (x :: sep ++ s)) = l :: pieces (x :: sep) s := by
  induction l with
  | nil =>
    have h : (x :: sep).isPrefixOf (x :: (sep ++ s)) = true := by simp [List.isPrefixOf]
    rw [List.nil_append, List.cons_append]
    unfold pieces
    rw [piecesFrom, if_pos h]
    exact congrArg _ (piecesFrom_append sep s)
  | cons c l ih =>
    have hc : c ≠ x := fun e => hl (e ▸ List.mem_cons_self)
    rw [List.cons_append, pieces_cons hc, ih fun h => hl (List.mem_cons_of_mem c h)]
    rfl

theorem pieces_intercalate : ∀ {ls : List (List Char)}, ls ≠ [] → (∀ l ∈ ls, x ∉ l) →
    pieces (x :: sep) ((x :: sep).intercalate ls) = ls
  | [], h, _ => absurd rfl h
  | [l], _, h => by
    rw [List.intercalate_singleton]
    exact pieces_eq_singleton (h l (List.mem_singleton_self l))
  | l :: l' :: ls, _, h => by
    rw [List.intercalate_cons_cons, List.append_assoc, pieces_append (h l List.mem_cons_self),
      pieces_intercalate (List.cons_ne_nil l' ls) fun m hm => h m (List.mem_cons_of_mem l hm)]

end Pieces

/-! ### Clauses -/

/-- The parts of a text that begin with its lines that are not indented. -/
def clauses : List Char → List (List Char)
  | [] => [[]]
  | c :: rest =>
    if c = '\n' ∧ rest.head? ≠ some ' ' then [] :: clauses rest
    else (clauses rest).modifyHead (c :: ·)

/-- What follows a keyword and a blank in the clauses that begin with them. -/
def bodies (keyword : List Char) (s : List Char) : List (List Char) :=
  ((clauses s).filter (keyword ++ [' ']).isPrefixOf).map (·.drop (keyword ++ [' ']).length)

theorem clauses_ne_nil (s : List Char) : clauses s ≠ [] := by
  induction s with
  | nil => simp [clauses]
  | cons c s ih =>
    unfold clauses
    split_ifs
    · simp
    · simpa [List.modifyHead_eq_nil_iff] using ih

/-- A text is one clause if all its line breaks are followed by indented lines. -/
theorem clauses_cons_eq_singleton_iff {c : Char} {s : List Char} :
    clauses (c :: s) = [c :: s] ↔ (c = '\n' → s.head? = some ' ') ∧ clauses s = [s] := by
  obtain ⟨k, ks, hk⟩ := List.exists_cons_of_ne_nil (clauses_ne_nil s)
  rw [clauses, hk]
  by_cases hc : c = '\n' ∧ s.head? ≠ some ' '
  · rw [if_pos hc]
    exact iff_of_false (by simp) fun h => hc.2 (h.1 hc.1)
  · rw [if_neg hc]
    simp only [List.modifyHead_cons, List.cons.injEq, true_and]
    exact ⟨fun h => ⟨fun e => by simpa [e] using hc, h⟩, fun h => h.2⟩

theorem clauses_eq_singleton {l : List Char} (hl : '\n' ∉ l) : clauses l = [l] := by
  induction l with
  | nil => rfl
  | cons c l ih =>
    have hc : c ≠ '\n' := fun e => hl (e ▸ List.mem_cons_self)
    exact clauses_cons_eq_singleton_iff.2
      ⟨fun e => absurd e hc, ih fun h => hl (List.mem_cons_of_mem c h)⟩

/-- A line break before a text that is not indented ends a clause. -/
theorem clauses_append (l : List Char) {s : List Char} (hs : s.head? ≠ some ' ') :
    clauses (l ++ '\n' :: s) = clauses l ++ clauses s := by
  induction l with
  | nil => simp [clauses, hs]
  | cons c l ih =>
    have hhead : (l ++ '\n' :: s).head? = some ' ' ↔ l.head? = some ' ' := by cases l <;> simp
    obtain ⟨k, ks, hk⟩ := List.exists_cons_of_ne_nil (clauses_ne_nil l)
    rw [List.cons_append, clauses, clauses, ih, hk]
    simp only [ne_eq, hhead]
    split_ifs <;> rfl

/-- A text without line breaks before a clause belongs to it. -/
theorem clauses_prepend {l s : List Char} (hl : '\n' ∉ l) (hs : clauses s = [s]) :
    clauses (l ++ s) = [l ++ s] := by
  induction l with
  | nil => exact hs
  | cons c l ih =>
    have hc : c ≠ '\n' := fun e => hl (e ▸ List.mem_cons_self)
    exact clauses_cons_eq_singleton_iff.2
      ⟨fun e => absurd e hc, ih fun h => hl (List.mem_cons_of_mem c h)⟩

/-- Lines that are indented make one clause. -/
theorem clauses_intercalate_indented {x y : List Char} (hx : '\n' ∉ x) (hy : '\n' ∉ y) :
    ∀ {ls : List (List Char)}, (∀ l ∈ ls, '\n' ∉ l) →
      clauses ((x ++ '\n' :: ' ' :: y).intercalate ls) = [(x ++ '\n' :: ' ' :: y).intercalate ls]
  | [], _ => rfl
  | [l], h => by
    rw [List.intercalate_singleton]
    exact clauses_eq_singleton (h l (List.mem_singleton_self l))
  | l :: l' :: ls, h => by
    have hrest := clauses_intercalate_indented hx hy fun m hm => h m (List.mem_cons_of_mem l hm)
    have hindent : '\n' ∉ ' ' :: y := by simpa using hy
    rw [List.intercalate_cons_cons, List.append_assoc]
    refine clauses_prepend (h l List.mem_cons_self) ?_
    rw [List.append_assoc, List.cons_append]
    exact clauses_prepend hx (clauses_cons_eq_singleton_iff.2
      ⟨fun _ => rfl, clauses_prepend hindent hrest⟩)

theorem clauses_intercalate : ∀ {ls : List (List Char)}, ls ≠ [] →
    (∀ l ∈ ls, clauses l = [l] ∧ l.head? ≠ some ' ') → clauses (['\n'].intercalate ls) = ls
  | [], h, _ => absurd rfl h
  | [l], _, h => by
    rw [List.intercalate_singleton]
    exact (h l (List.mem_singleton_self l)).1
  | l :: l' :: ls, _, h => by
    have hrest : ∀ m ∈ l' :: ls, clauses m = [m] ∧ m.head? ≠ some ' ' :=
      fun m hm => h m (List.mem_cons_of_mem l hm)
    have hhead : (['\n'].intercalate (l' :: ls)).head? ≠ some ' ' := by
      have h' := (hrest l' List.mem_cons_self).2
      cases l' with
      | nil => cases ls <;> simp
      | cons c l' => cases ls <;> simpa using h'
    rw [List.intercalate_cons_cons, List.append_assoc, List.singleton_append,
      clauses_append l hhead, (h l List.mem_cons_self).1,
      clauses_intercalate (List.cons_ne_nil l' ls) hrest, List.singleton_append]

/-! ### Bodies -/

/-- A clause that begins with another letter does not begin with a keyword. -/
theorem isPrefixOf_eq_false {x : Char} {start l : List Char} (hstart : start.head? = some x)
    (h : l.head? ≠ some x) : start.isPrefixOf l = false := by
  cases start with
  | nil => cases hstart
  | cons y ys =>
    cases l with
    | nil => rfl
    | cons c l =>
      have hc : y ≠ c := by
        rintro rfl
        exact h hstart
      simp [List.isPrefixOf, hc]

section Bodies

variable {x : Char} {keyword s : List Char} (hx : keyword.head? = some x)
include hx

theorem filter_isPrefixOf_eq_nil {ls : List (List Char)} (h : ∀ l ∈ ls, l.head? ≠ some x) :
    ls.filter (keyword ++ [' ']).isPrefixOf = [] := by
  have hstart : (keyword ++ [' ']).head? = some x := by
    rw [List.head?_append, hx, Option.some_or]
  rw [List.filter_eq_nil_iff]
  intro l hl
  rw [isPrefixOf_eq_false hstart (h l hl)]
  exact Bool.false_ne_true

theorem bodies_eq_nil (h : ∀ l ∈ clauses s, l.head? ≠ some x) : bodies keyword s = [] := by
  unfold bodies
  rw [filter_isPrefixOf_eq_nil hx h, List.map_nil]

/-- If only one clause begins with the first letter of a keyword, what follows the keyword in it is
the only body. -/
theorem bodies_eq_singleton {body : List Char} {before after : List (List Char)}
    (hs : clauses s = before ++ (keyword ++ ' ' :: body) :: after)
    (hbefore : ∀ l ∈ before, l.head? ≠ some x) (hafter : ∀ l ∈ after, l.head? ≠ some x) :
    bodies keyword s = [body] := by
  have hline : keyword ++ ' ' :: body = keyword ++ [' '] ++ body := by simp
  have hprefix : (keyword ++ [' ']).isPrefixOf (keyword ++ [' '] ++ body) = true :=
    List.isPrefixOf_iff_prefix.2 (List.prefix_append _ _)
  unfold bodies
  rw [hs, List.filter_append, filter_isPrefixOf_eq_nil hx hbefore, hline,
    List.filter_cons_of_pos hprefix, filter_isPrefixOf_eq_nil hx hafter, List.nil_append,
    List.map_singleton, List.drop_left]

end Bodies

end CrmQuery.Text
