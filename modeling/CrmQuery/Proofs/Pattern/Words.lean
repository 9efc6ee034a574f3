import CrmQuery.Proofs.Pattern.Ends
import CrmQuery.Proofs.Text.Words

/-!
# Literal and whole-word patterns

A literal fits the spellings of its word (`Fits.lit`), and signs only have one (`isInfix_of_lit`).
`OnlyFits p ws` says that a pattern fits no text but the given words, in any case.  Where an edge
stands before or after such a word, no other word touches it.
-/

namespace CrmQuery

open Text

/-- The places `c` and `d` have the text `x` between them. -/
structure Cursor.Reads (c : Cursor) (x : List Char) (d : Cursor) : Prop where
  rest : c.rest = x ++ d.rest
  before : d.before = x.getLast?.or c.before

namespace Pattern

/-! ### Literals -/

theorem Fits.letter {k : Char} {c d : Cursor} (h : Fits (letter k) c d) :
    ∃ x, caseKey x = caseKey k ∧ c.Reads [x] d := by
  cases h with
  | @one _ _ x rest hrest hx =>
    refine ⟨x, ?_, hrest, rfl⟩
    simpa [CharClass.has] using hx

theorem Fits.lit {w : String} {c d : Cursor} (h : Fits (lit w) c d) :
    ∃ x, x.map caseKey = w.toList.map caseKey ∧ c.Reads x d := by
  unfold Pattern.lit at h
  generalize w.toList = ks at h
  induction ks generalizing c with
  | nil =>
    cases h with
    | empty => exact ⟨[], rfl, rfl, rfl⟩
  | cons k ks ih =>
    cases h with
    | seq hk hks =>
      obtain ⟨x, hx, hcx⟩ := hk.letter
      obtain ⟨xs, hxs, hcxs⟩ := ih hks
      refine ⟨x :: xs, by rw [List.map_cons, List.map_cons, hx, hxs], ?_, ?_⟩
      · rw [hcx.rest, hcxs.rest]
        rfl
      · rw [hcxs.before, hcx.before]
        cases xs <;> simp [List.getLast?_cons]

theorem Fits.anyOf {c d : Cursor} : ∀ {ps : List Pattern}, Fits (anyOf ps) c d →
    ∃ p ∈ ps, Fits p c d
  | [], h => by
    cases h with
    | one hrest hx => cases hx
  | [p], h => ⟨p, List.mem_singleton_self p, h⟩
  | p :: q :: ps, h => by
    cases h with
    | left _ h => exact ⟨p, List.mem_cons_self, h⟩
    | right _ h =>
      obtain ⟨r, hr, h⟩ := Fits.anyOf h
      exact ⟨r, List.mem_cons_of_mem p hr, h⟩

/-- A literal that occurs is part of the text, in some case. -/
theorem exists_infix_of_lit {w : String} {s : List Char} (h : (lit w).occursIn s = true) :
    ∃ a x b, s = a ++ x ++ b ∧ x.map caseKey = w.toList.map caseKey := by
  obtain ⟨a, c, d, hs, -, hd⟩ := exists_fits_of_occursIn h
  obtain ⟨x, hx, hr⟩ := hd.lit
  exact ⟨a, x, d.rest, by rw [hs, hr.rest, List.append_assoc], hx⟩

/-- Signs that occur are part of the text. -/
theorem isInfix_of_lit {w : String} {s : List Char} (hw : AreSigns w.toList)
    (h : (lit w).occursIn s = true) : w.toList <:+: s := by
  obtain ⟨a, x, b, hs, hx⟩ := exists_infix_of_lit h
  exact ⟨a, b, by rw [hs, eq_of_map_caseKey_eq hw hx]⟩

/-! ### Whole words -/

/-- The pattern fits no text but the given words, in any case. -/
def OnlyFits (p : Pattern) (ws : List String) : Prop :=
  ∀ c d, Fits p c d → ∃ w ∈ ws, ∃ x, x.map caseKey = w.toList.map caseKey ∧ c.Reads x d

theorem onlyFits_anyOf_lit (ws : List String) : OnlyFits (anyOf (ws.map lit)) ws := by
  intro c d h
  obtain ⟨p, hp, h⟩ := h.anyOf
  obtain ⟨w, hw, rfl⟩ := List.mem_map.1 hp
  exact ⟨w, hw, h.lit⟩

theorem OnlyFits.part {p : Pattern} {ws : List String} (hp : OnlyFits p ws) (name : Part) :
    OnlyFits (.part name p) ws := by
  intro c d h
  cases h with
  | part _ h =>
    obtain ⟨w, hw, x, hx, hr⟩ := hp _ _ h
    exact ⟨w, hw, x, hx, hr.rest, hr.before⟩

/-- Words that consist of word characters. -/
def AreWords (ws : List String) : Prop :=
  ∀ w ∈ ws, w.toList ≠ [] ∧ ∀ c ∈ w.toList, isWord c = true

instance (ws : List String) : Decidable (AreWords ws) :=
  inferInstanceAs (Decidable (∀ w ∈ ws, _))

/-- A spelling of a word consists of word characters. -/
theorem AreWords.isWord {ws : List String} (hws : AreWords ws) {w : String} (hw : w ∈ ws)
    {x : List Char} (hx : x.map caseKey = w.toList.map caseKey) :
    x ≠ [] ∧ ∀ c ∈ x, isWord c = true := by
  obtain ⟨hne, hword⟩ := hws w hw
  constructor
  · rintro rfl
    exact hne (List.map_eq_nil_iff.1 hx.symm)
  · intro e he
    obtain ⟨f, hf, hfe⟩ := List.mem_map.1 (hx ▸ List.mem_map_of_mem he : _ ∈ w.toList.map caseKey)
    rw [← isWord_caseKey, ← hfe, isWord_caseKey]
    exact hword f hf

/-- Before a word, an edge is where no other word ends. -/
theorem isWordAt_before_of_edge {c d : Cursor} {x : List Char} (hx : x ≠ [])
    (hword : ∀ e ∈ x, isWord e = true) (hr : c.Reads x d) (hc : c.atEdge = true) :
    isWordAt c.before = false := by
  obtain ⟨e, xs, rfl⟩ := List.exists_cons_of_ne_nil hx
  have he : isWordAt c.rest.head? = true := by
    rw [hr.rest]
    exact hword e List.mem_cons_self
  rw [Cursor.atEdge, isEdge, he] at hc
  simpa using hc

/-- After a word, an edge is where no other word begins. -/
theorem isWordAt_head?_of_edge {c d : Cursor} {x : List Char} (hx : x ≠ [])
    (hword : ∀ e ∈ x, isWord e = true) (hr : c.Reads x d) (hd : d.atEdge = true) :
    isWordAt d.rest.head? = false := by
  obtain ⟨xs, e, rfl⟩ := (List.eq_nil_or_concat x).resolve_left hx
  have he : isWordAt d.before = true := by
    rw [hr.before, List.concat_eq_append, List.getLast?_concat]
    exact hword e (by simp)
  rw [Cursor.atEdge, isEdge, he] at hd
  simpa using hd

end Pattern

end CrmQuery
