import CrmQuery.Proofs.Pattern.Extension

/-!
# Searches for whole words

A pattern that fits exactly the spellings of some words (`FitsExactly`) occurs between word edges if
and only if one of the words of the text is such a spelling (`occursIn_whole_iff`), and what it
remembers is the first one that is (`search_whole_part`).
-/

namespace CrmQuery

open Text

namespace Pattern

/-- A text is one of the words, in any case. -/
def IsOneOf (ws : List String) (x : List Char) : Prop :=
  ∃ w ∈ ws, x.map caseKey = w.toList.map caseKey

instance (ws : List String) (x : List Char) : Decidable (IsOneOf ws x) :=
  inferInstanceAs (Decidable (∃ w ∈ ws, _))

/-! ### Literals -/

theorem Fits.of_mem_anyOf {p : Pattern} {c d : Cursor} (h : Fits p c d) :
    ∀ {ps : List Pattern}, p ∈ ps → Fits (Pattern.anyOf ps) c d
  | [q], hp => List.mem_singleton.1 hp ▸ h
  | q :: r :: ps, hp => by
    rcases List.mem_cons.1 hp with rfl | hp
    · exact .left _ h
    · exact .right _ (Fits.of_mem_anyOf h hp)

theorem regular_lit (w : String) : (lit w).regular = true := by
  unfold lit
  induction w.toList with
  | nil => rfl
  | cons k ks ih => exact ih

theorem regular_anyOf : ∀ {ps : List Pattern}, (∀ p ∈ ps, p.regular = true) →
    (anyOf ps).regular = true
  | [], _ => rfl
  | [p], hp => hp p List.mem_cons_self
  | p :: q :: ps, hp => by
    obtain ⟨h, hps⟩ := List.forall_mem_cons.1 hp
    exact Bool.and_eq_true_iff.2 ⟨h, regular_anyOf hps⟩

/-- The pattern fits the given words, which consist of word characters, in any case, and nothing
else. -/
structure FitsExactly (p : Pattern) (ws : List String) : Prop where
  areWords : AreWords ws
  regular : p.regular = true
  only : OnlyFits p ws
  every : ∀ (c : Cursor) (x rest : List Char), IsOneOf ws x → c.rest = x ++ rest →
    ∃ d, Fits p c d ∧ c.Reads x d ∧ d.rest = rest

theorem fitsExactly_anyOf_lit {ws : List String} (hws : AreWords ws) :
    FitsExactly (anyOf (ws.map lit)) ws := by
  have hregular : (anyOf (ws.map lit)).regular = true :=
    regular_anyOf (List.forall_mem_map.2 fun w _ => regular_lit w)
  refine ⟨hws, hregular, onlyFits_anyOf_lit ws, ?_⟩
  rintro c x rest ⟨w, hw, hx⟩ hrest
  obtain ⟨hreads, hadvance⟩ := Cursor.reads_advance hrest
  exact ⟨_, (fits_lit hx hrest).of_mem_anyOf (List.mem_map_of_mem hw), hreads, hadvance⟩

theorem fitsExactly_lit {w : String} (hw : AreWords [w]) : FitsExactly (lit w) [w] :=
  fitsExactly_anyOf_lit hw

theorem FitsExactly.part {p : Pattern} {ws : List String} (hp : FitsExactly p ws) (name : Part) :
    FitsExactly (.part name p) ws := by
  refine ⟨hp.areWords, hp.regular, hp.only.part name, ?_⟩
  intro c x rest hx hrest
  obtain ⟨d, hd, hreads, hdrest⟩ := hp.every c x rest hx hrest
  exact ⟨_, .part name hd, hreads.remember name c, hdrest⟩

theorem IsOneOf.isWord {ws : List String} {x : List Char} (h : IsOneOf ws x) (hws : AreWords ws) :
    x ≠ [] ∧ ∀ c ∈ x, isWord c = true := by
  obtain ⟨w, hw, hx⟩ := h
  exact hws.isWord hw hx

/-! ### Words at a place -/

theorem takeWhile_isWord_append {x rest : List Char} (hx : ∀ c ∈ x, isWord c = true)
    (hrest : isWordAt rest.head? = false) : (x ++ rest).takeWhile isWord = x := by
  have hhead : ∀ c ∈ rest.head?, isWord c = false := by
    intro c hc
    rwa [Option.mem_def.1 hc] at hrest
  rw [takeWhile_append_of_head? x hhead, List.takeWhile_eq_self_iff.2 hx]

theorem isWordAt_head?_of_takeWhile {s : List Char} (h : s.takeWhile isWord ≠ []) :
    isWordAt s.head? = true := by
  cases s with
  | nil => exact absurd rfl h
  | cons c s =>
    by_contra hc
    exact h (List.takeWhile_cons_of_neg hc)

namespace FitsExactly

variable {p : Pattern} {ws : List String} (hp : FitsExactly p ws)
include hp

/-- What is read before an edge is a whole run of word characters. -/
theorem reads_of_edge {c d : Cursor} (h : Fits p c d) (hd : d.atEdge = true) :
    IsOneOf ws (c.rest.takeWhile isWord) ∧ c.Reads (c.rest.takeWhile isWord) d := by
  obtain ⟨w, hw, x, hx, hr⟩ := hp.only c d h
  obtain ⟨hne, hword⟩ := hp.areWords.isWord hw hx
  have hrun : c.rest.takeWhile isWord = x := by
    rw [hr.rest]
    exact takeWhile_isWord_append hword (isWordAt_head?_of_edge hne hword hr hd)
  rw [hrun]
  exact ⟨⟨w, hw, hx⟩, hr⟩

theorem exists_fits_edge {c : Cursor} (h : IsOneOf ws (c.rest.takeWhile isWord)) :
    ∃ d, Fits p c d ∧ d.atEdge = true := by
  have hsplit := (List.takeWhile_append_dropWhile (p := isWord) (l := c.rest)).symm
  obtain ⟨d, hd, hr, hrest⟩ := hp.every c _ _ h hsplit
  obtain ⟨hne, hword⟩ := h.isWord hp.areWords
  have hlast : isWordAt d.before = true := by
    rw [hr.before, List.getLast?_eq_some_getLast hne, Option.some_or]
    exact hword _ (List.getLast_mem hne)
  refine ⟨d, hd, ?_⟩
  rw [Cursor.atEdge, isEdge, hlast, hrest, isWordAt_head?_dropWhile]
  rfl

theorem exists_fits_append_edge_iff {c : Cursor} :
    (∃ d, Fits (p ++ edge) c d) ↔ IsOneOf ws (c.rest.takeWhile isWord) := by
  constructor
  · rintro ⟨d, hd⟩
    cases hd with
    | seq h h' =>
    cases h' with
    | edge he => exact (hp.reads_of_edge h he).1
  · intro h
    obtain ⟨d, hd, he⟩ := hp.exists_fits_edge h
    exact ⟨d, .seq hd (.edge he)⟩

theorem reads_of_whole {c d : Cursor} (h : Fits (whole p) c d) :
    Fits p c d ∧ isWordAt c.before = false ∧ IsOneOf ws (c.rest.takeWhile isWord) ∧
      c.Reads (c.rest.takeWhile isWord) d := by
  cases h with
  | seq h₁ h₃ =>
  cases h₁ with
  | seq h₁ h₂ =>
  cases h₁ with
  | edge hc =>
  cases h₃ with
  | edge hd =>
    obtain ⟨hone, hr⟩ := hp.reads_of_edge h₂ hd
    obtain ⟨hne, hword⟩ := hone.isWord hp.areWords
    exact ⟨h₂, isWordAt_before_of_edge hne hword hr hc, hone, hr⟩

theorem exists_fits_whole {c : Cursor} (hc : isWordAt c.before = false)
    (h : IsOneOf ws (c.rest.takeWhile isWord)) : ∃ d, Fits (whole p) c d := by
  obtain ⟨d, hd, he⟩ := hp.exists_fits_edge h
  have hedge : c.atEdge = true := by
    rw [Cursor.atEdge, isEdge, hc, isWordAt_head?_of_takeWhile (h.isWord hp.areWords).1]
    rfl
  exact ⟨d, .seq (.seq (.edge hedge) hd) (.edge he)⟩

theorem regular_whole : (whole p).regular = true := by
  have h : (whole p).regular = ((edge.regular && p.regular) && edge.regular) := rfl
  rw [h, hp.regular]
  rfl

/-! ### Searches -/

/-- Whole words are found if and only if the text has one of them. -/
theorem occursIn_whole_iff {s : List Char} :
    (whole p).occursIn s = true ↔ ∃ x ∈ words s, IsOneOf ws x := by
  constructor
  · intro h
    obtain ⟨a, c, d, rfl, hbefore, hd⟩ := exists_fits_of_occursIn h
    obtain ⟨-, hc, hone, -⟩ := hp.reads_of_whole hd
    obtain ⟨hne, hword⟩ := hone.isWord hp.areWords
    have hmem := mem_words_of_edges hne hword (hbefore ▸ hc) (isWordAt_head?_dropWhile c.rest)
    rw [List.append_assoc, List.takeWhile_append_dropWhile] at hmem
    exact ⟨_, hmem, hone⟩
  · rintro ⟨x, hx, hone⟩
    obtain ⟨a, b, rfl, -, hword, ha, hb⟩ := exists_of_mem_words hx
    have hcursor : Cursor.inText (a ++ x ++ b) a.length = ⟨a.length, a.getLast?, x ++ b, []⟩ := by
      simp [Cursor.inText]
    rw [occursIn_iff hp.regular_whole]
    refine ⟨a.length, by simp, ?_⟩
    rw [hcursor]
    refine hp.exists_fits_whole ha ?_
    rwa [takeWhile_isWord_append hword hb]

theorem fitAt_whole_eq_none {c : Cursor}
    (h : ¬ (isWordAt c.before = false ∧ IsOneOf ws (c.rest.takeWhile isWord))) :
    (whole p).fitAt c = none := by
  rw [fitAt_eq_none_iff, ends_eq_nil_iff hp.regular_whole]
  intro d hd
  obtain ⟨-, hc, hone, -⟩ := hp.reads_of_whole hd
  exact h ⟨hc, hone⟩

/-- A whole word that is remembered is the run of word characters where it is found. -/
theorem exists_fitAt_whole_part (name : Part) {c : Cursor} (hc : isWordAt c.before = false)
    (hone : IsOneOf ws (c.rest.takeWhile isWord)) :
    ∃ m, (whole (.part name p)).fitAt c = some m ∧
      (m.piece? name).map Piece.text = some (c.rest.takeWhile isWord) := by
  have hp' := hp.part name
  obtain ⟨m, hm⟩ := Option.isSome_iff_exists.1
    ((isSome_fitAt_iff hp'.regular_whole).2 (hp'.exists_fits_whole hc hone))
  obtain ⟨d, hd, rfl⟩ := fitAt_eq_some_iff.1 hm
  obtain ⟨hpart, -, -, hr⟩ := hp'.reads_of_whole (fits_of_mem_ends (List.mem_of_head? hd))
  refine ⟨_, hm, ?_⟩
  cases hpart with
  | part _ he => exact he.remembered_self ⟨hr.rest, hr.before⟩ name

/-- A search remembers the first word that is one of those looked for; the rest of a word that began
before the text does not count. -/
theorem searchFrom_whole_part (name : Part) (s : List Char) : ∀ (pos : Nat) (before : Option Char),
    ((((whole (.part name p)).searchFrom pos before s).bind (·.piece? name)).map Piece.text) =
      (words (if isWordAt before = true then s.dropWhile isWord else s)).find?
        fun x => IsOneOf ws x := by
  have hp' := hp.part name
  have hnil : ¬ IsOneOf ws [] := fun h => (h.isWord hp.areWords).1 rfl
  induction s with
  | nil =>
    intro pos before
    rw [searchFrom, hp'.fitAt_whole_eq_none (c := ⟨pos, before, [], []⟩) fun h => hnil h.2]
    simp
  | cons x s ih =>
    intro pos before
    have hnext := ih (pos + 1) (some x)
    rw [searchFrom]
    by_cases hx : isWord x = true
    · rw [isWordAt, if_pos hx] at hnext
      by_cases hbefore : isWordAt before = true
      · rw [hp'.fitAt_whole_eq_none fun h => Bool.eq_false_iff.1 h.1 hbefore, Option.none_or, hnext,
          if_pos hbefore, List.dropWhile_cons_of_pos hx]
      · rw [if_neg hbefore, words_of_isWord hx, List.find?_cons]
        by_cases hone : IsOneOf ws ((x :: s).takeWhile isWord)
        · obtain ⟨m, hm, htext⟩ := hp.exists_fitAt_whole_part name
            (c := ⟨pos, before, x :: s, []⟩) (Bool.not_eq_true _ ▸ hbefore) hone
          rw [hm, Option.some_or, Option.bind_some, htext, decide_eq_true hone]
        · rw [hp'.fitAt_whole_eq_none fun h => hone h.2, Option.none_or, hnext,
            decide_eq_false hone]
    · have hrun : (x :: s).takeWhile isWord = [] := List.takeWhile_cons_of_neg hx
      rw [isWordAt, if_neg hx] at hnext
      rw [hp'.fitAt_whole_eq_none fun h => hnil (hrun ▸ h.2), Option.none_or, hnext,
        List.dropWhile_cons_of_neg hx, ite_self, words_cons (Bool.not_eq_true _ ▸ hx)]

theorem search_whole_part (name : Part) (s : List Char) :
    (((whole (.part name p)).search s).bind (·.piece? name)).map Piece.text =
      (words s).find? fun x => IsOneOf ws x :=
  hp.searchFrom_whole_part name s 0 none

end FitsExactly

end Pattern

end CrmQuery
