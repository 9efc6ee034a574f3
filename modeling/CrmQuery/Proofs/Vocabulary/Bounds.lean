import CrmQuery.Question.Budget
import CrmQuery.Proofs.Pattern.Phrases
import CrmQuery.Proofs.Vocabulary.Amounts

/-!
# Words for bounds before a number

Words for a bound stand before a place of a text (`StandsBefore`) if a word begins with them and
only blanks are between them and the place.  There is one such phrase at most
(`StandsBefore.unique`), it tells one side of the bound (`Bound.ofWords?_eq_some_iff`), and what
leads from the word budget to a number does not end with one (`not_standsBefore_of_leadEnds`).
-/

namespace CrmQuery

open Text Pattern

namespace Bound

/-- The phrases that tell a side of a bound. -/
def phrases : Bound → List (List String)
  | atLeast => [["über"], ["ueber"], ["over"], ["above"], ["mehr", "als"], ["more", "than"],
      ["mindestens"], ["at", "least"], ["ab"]]
  | atMost => [["unter"], ["under"], ["below"], ["weniger", "als"], ["less", "than"],
      ["höchstens"], ["at", "most"], ["maximal"], ["bis"]]

/-- The phrases for bounds. -/
def allPhrases : List (List String) := atLeast.phrases ++ atMost.phrases

/-- The text is a phrase for the side of a bound, in any case and with any blanks in it. -/
def Says (b : Bound) (q : List Char) : Prop := IsOneOfPhrases b.phrases q

theorem areWords_of_mem {ws : List String} (h : ws ∈ allPhrases) : ws ≠ [] ∧ AreWords ws := by
  revert ws
  decide

theorem isOneOfPhrases_iff {q : List Char} :
    IsOneOfPhrases allPhrases q ↔ ∃ b : Bound, b.Says q := by
  constructor
  · rintro ⟨ws, hws, hq⟩
    rcases List.mem_append.1 hws with hws | hws
    · exact ⟨atLeast, ws, hws, hq⟩
    · exact ⟨atMost, ws, hws, hq⟩
  · rintro ⟨b, ws, hws, hq⟩
    refine ⟨ws, ?_, hq⟩
    cases b with
    | atLeast => exact List.mem_append_left _ hws
    | atMost => exact List.mem_append_right _ hws

theorem Says.isOneOfPhrases {b : Bound} {q : List Char} (h : b.Says q) :
    IsOneOfPhrases allPhrases q :=
  isOneOfPhrases_iff.2 ⟨b, h⟩

theorem exists_keys_of_isOneOfPhrases {q : List Char} (h : IsOneOfPhrases allPhrases q) :
    ∃ ws ∈ allPhrases, (words q).map (·.map caseKey) = keys ws := by
  obtain ⟨ws, hws, hq⟩ := h
  exact ⟨ws, hws, words_of_spellsPhrase (areWords_of_mem hws).2 hq⟩

theorem isWordAt_head?_of_isOneOfPhrases {q : List Char} (h : IsOneOfPhrases allPhrases q) :
    isWordAt q.head? = true := by
  obtain ⟨ws, hws, hq⟩ := h
  obtain ⟨hne, hwords⟩ := areWords_of_mem hws
  exact isWordAt_head?_of_spellsPhrase hne hwords hq

/-- No phrase tells both sides. -/
theorem Says.unique {b b' : Bound} {q : List Char} (h : b.Says q) (h' : b'.Says q) : b = b' := by
  obtain ⟨ws, hws, hq⟩ := h
  obtain ⟨ws', hws', hq'⟩ := h'
  have hmem : ∀ {b : Bound} {ws : List String}, ws ∈ b.phrases → AreWords ws := by
    intro b ws h
    obtain ⟨ws, hws, hw⟩ : ∃ ws' ∈ allPhrases, ws' = ws := by
      cases b <;> simp [allPhrases, h]
    exact hw ▸ (areWords_of_mem hws).2
  have hkeys : keys ws = keys ws' :=
    (words_of_spellsPhrase (hmem hws) hq).symm.trans (words_of_spellsPhrase (hmem hws') hq')
  have hapart : ∀ ws ∈ atLeast.phrases, ∀ ws' ∈ atMost.phrases, keys ws ≠ keys ws' := by decide
  cases b <;> cases b'
  · rfl
  · exact absurd hkeys (hapart ws hws ws' hws')
  · exact absurd hkeys.symm (hapart ws' hws' ws hws)
  · rfl

theorem fitsAll_iff_says (b : Bound) (q : List Char) :
    (anyOf (b.phrases.map phrase)).fitsAll q = true ↔ b.Says q :=
  fitsAll_phrases_iff

theorem ofWords?_eq_some_iff {b : Bound} {q : List Char} : ofWords? q = some b ↔ b.Says q := by
  have hunder : (anyOf AmountPhrase.underWords).fitsAll q = true ↔ atMost.Says q :=
    fitsAll_iff_says atMost q
  have hover : (anyOf AmountPhrase.overWords).fitsAll q = true ↔ atLeast.Says q :=
    fitsAll_iff_says atLeast q
  unfold ofWords?
  split_ifs with h h'
  · rw [Option.some.injEq]
    exact ⟨fun hb => hb ▸ hunder.1 h, fun hb => (hunder.1 h).unique hb⟩
  · rw [Option.some.injEq]
    exact ⟨fun hb => hb ▸ hover.1 h', fun hb => (hover.1 h').unique hb⟩
  · cases b with
    | atLeast => simpa using mt hover.2 h'
    | atMost => simpa using mt hunder.2 h

end Bound

/-! ### Words before a place -/

/-- Words for a bound stand right before a place of a text: a word begins with them, and blanks, and
nothing else, separate them from the place. -/
def StandsBefore (s : List Char) (i : Nat) (q : List Char) : Prop :=
  IsOneOfPhrases Bound.allPhrases q ∧
    ∃ a z, s.take i = a ++ (q ++ z) ∧ isWordAt a.getLast? = false ∧ IsGap z

section StandsBefore

variable {s q q' : List Char} {i : Nat}

theorem isBlank_of_keys_suffix {k u : List Char} (hk : k ≠ []) (hblank : ∀ c ∈ k, isBlank c = false)
    (h : k <:+ u.map caseKey) : ∀ c ∈ u.getLast?, isBlank c = false := by
  intro c hc
  have hlast : k.getLast? = some (caseKey c) := by
    obtain ⟨v, hv⟩ := h
    rw [← List.getLast?_append_of_ne_nil v hk, hv, List.getLast?_map, Option.mem_def.1 hc,
      Option.map_some]
  rw [← isBlank_caseKey]
  exact hblank _ (List.mem_of_getLast? hlast)

theorem isBlank_of_isOneOfPhrases (h : IsOneOfPhrases Bound.allPhrases q) :
    ∀ c ∈ q.getLast?, isBlank c = false := by
  obtain ⟨ws, hws, hq⟩ := h
  have hkeys : ∀ ws ∈ Bound.allPhrases, (keys ws).getLastD [] ≠ [] ∧
      ∀ c ∈ (keys ws).getLastD [], isBlank c = false := by decide
  obtain ⟨hne, hblank⟩ := hkeys ws hws
  exact isBlank_of_keys_suffix hne hblank (getLastD_keys_suffix hq)

theorem ne_nil_of_isOneOfPhrases (h : IsOneOfPhrases Bound.allPhrases q) : q ≠ [] := by
  rintro rfl
  have hhead := Bound.isWordAt_head?_of_isOneOfPhrases h
  cases hhead

theorem not_standsBefore_of_take_eq_nil (h : s.take i = []) : ¬ StandsBefore s i q := by
  rintro ⟨hq, a, z, hs, -⟩
  rw [h, eq_comm, List.append_eq_nil_iff, List.append_eq_nil_iff] at hs
  exact ne_nil_of_isOneOfPhrases hq hs.2.1

/-- Behind the blanks before a place, the words for a bound are the end of the text. -/
theorem StandsBefore.eq_append (h : StandsBefore s i q) {u z : List Char} (hs : s.take i = u ++ z)
    (hz : ∀ c ∈ z, isBlank c = true) (hu : ∀ c ∈ u.getLast?, isBlank c = false) :
    ∃ a, u = a ++ q ∧ isWordAt a.getLast? = false := by
  obtain ⟨hq, a, z', ha, hbefore, hz'⟩ := h
  refine ⟨a, ?_, hbefore⟩
  rw [hs, ← List.append_assoc] at ha
  refine (eq_of_append_blanks ha hz hz'.blank hu ?_).1
  rw [List.getLast?_append_of_ne_nil a (ne_nil_of_isOneOfPhrases hq)]
  exact isBlank_of_isOneOfPhrases hq

theorem eq_nil_of_append_phrase {u : List Char} (hq : IsOneOfPhrases Bound.allPhrases q)
    (hq' : IsOneOfPhrases Bound.allPhrases q') (hu : q = u ++ q')
    (hedge : u ≠ [] → isWordAt u.getLast? = false) : u = [] := by
  -- No phrase is the end of another, word by word.
  have hends : ∀ ws ∈ Bound.allPhrases, ∀ ws' ∈ Bound.allPhrases, keys ws' <:+ keys ws →
      (keys ws').length = (keys ws).length := by decide
  by_contra hne
  obtain ⟨ws, hws, hkeys⟩ := Bound.exists_keys_of_isOneOfPhrases hq
  obtain ⟨ws', hws', hkeys'⟩ := Bound.exists_keys_of_isOneOfPhrases hq'
  rw [hu, words_append (Or.inl (hedge hne)), List.map_append, hkeys'] at hkeys
  have hlength := hends ws hws ws' hws' ⟨_, hkeys⟩
  have hnone : words u = [] := by
    have hlen := congrArg List.length hkeys
    rw [List.length_append, List.length_map] at hlen
    exact List.length_eq_zero_iff.1 (by omega)
  obtain ⟨c, u, rfl⟩ := List.exists_cons_of_ne_nil hne
  have hc : isWord c = true := by
    have hhead := Bound.isWordAt_head?_of_isOneOfPhrases hq
    rwa [hu] at hhead
  rw [words_of_isWord hc] at hnone
  cases hnone

/-- The words for a bound that stand before a place are the only ones. -/
theorem StandsBefore.unique (h : StandsBefore s i q) (h' : StandsBefore s i q') : q = q' := by
  have hq := h.1
  have hq' := h'.1
  obtain ⟨-, a, z, hs, hbefore, hz⟩ := h
  have hlast : ∀ c ∈ (a ++ q).getLast?, isBlank c = false := by
    rw [List.getLast?_append_of_ne_nil a (ne_nil_of_isOneOfPhrases hq)]
    exact isBlank_of_isOneOfPhrases hq
  rw [← List.append_assoc] at hs
  obtain ⟨a', ha', hbefore'⟩ := h'.eq_append hs hz.blank hlast
  have hedge : ∀ {a a' u : List Char}, a' = a ++ u → isWordAt a'.getLast? = false → u ≠ [] →
      isWordAt u.getLast? = false := by
    rintro a a' u rfl h hne
    rwa [List.getLast?_append_of_ne_nil a hne] at h
  rcases List.append_eq_append_iff.1 ha' with ⟨u, hu, hqu⟩ | ⟨u, hu, hqu⟩
  · rw [hqu, eq_nil_of_append_phrase hq hq' hqu (hedge hu hbefore'), List.nil_append]
  · rw [hqu, eq_nil_of_append_phrase hq' hq hqu (hedge hu hbefore), List.nil_append]

/-- The side of a bound that the words right before a place tell, if there are such words. -/
def BoundBefore (s : List Char) (i : Nat) (b : Option Bound) : Prop :=
  ∀ β, b = some β ↔ ∃ q, StandsBefore s i q ∧ β.Says q

theorem BoundBefore.unique {b b' : Option Bound} (h : BoundBefore s i b) (h' : BoundBefore s i b') :
    b = b' :=
  Option.ext fun β => (h β).trans (h' β).symm

theorem BoundBefore.eq_none_iff {b : Option Bound} (h : BoundBefore s i b) :
    b = none ↔ ∀ q, ¬ StandsBefore s i q := by
  rw [Option.eq_none_iff_forall_ne_some]
  constructor
  · intro hnone q hq
    obtain ⟨β, hβ⟩ := Bound.isOneOfPhrases_iff.1 hq.1
    exact hnone β ((h β).2 ⟨q, hq, hβ⟩)
  · intro hnone β hβ
    obtain ⟨q, hq, -⟩ := (h β).1 hβ
    exact hnone q hq

theorem boundBefore_none (h : ∀ q, ¬ StandsBefore s i q) : BoundBefore s i none := by
  intro β
  simp [h]

theorem StandsBefore.boundBefore (h : StandsBefore s i q) {b : Bound} (hb : b.Says q) :
    BoundBefore s i (some b) := by
  intro β
  rw [Option.some.injEq]
  constructor
  · rintro rfl
    exact ⟨q, h, hb⟩
  · rintro ⟨q', h', hβ⟩
    rw [h'.unique h] at hβ
    exact hb.unique hβ

end StandsBefore

namespace AmountPhrase

/-! ### A bound before a number -/

section QualifierGap

variable {c d : Cursor}

theorem exists_of_fits_qualifierGap (h : Fits qualifierGap c d) : d = c ∨ ∃ q z,
    IsOneOfPhrases Bound.allPhrases q ∧ IsGap z ∧ isWordAt c.before = false ∧
      c.Reads (q ++ z) d ∧
        d.pieces = (.qualifier, ⟨c.pos, c.pos + q.length, c.rest⟩) :: c.pieces := by
  cases h with
  | right _ h =>
    cases h with
    | empty => exact Or.inl rfl
  | left _ h =>
    right
    cases h with
    | seq h hgap =>
    cases h with
    | seq hedge hpart =>
    cases hedge with
    | edge hedge =>
    cases hpart with
    | @part _ _ _ e hwords =>
    have hphrases : anyOf (overWords ++ underWords) = anyOf (Bound.allPhrases.map phrase) := rfl
    rw [hphrases] at hwords
    obtain ⟨q, hq, hr⟩ := hwords.phrases
    obtain ⟨z, hz, hr'⟩ := hgap.gap
    have hpieces := hgap.pieces_eq (by decide)
    have hpieces' := hwords.pieces_eq (by decide)
    have hpos := hwords.pos_eq hr
    refine ⟨q, z, hq, hz, ?_, (hr.remember .qualifier c).trans hr', ?_⟩
    · have hhead : isWordAt c.rest.head? = true := by
        rw [hr.rest, List.head?_append_of_ne_nil _ (ne_nil_of_isOneOfPhrases hq)]
        exact Bound.isWordAt_head?_of_isOneOfPhrases hq
      rw [Cursor.atEdge, isEdge, hhead] at hedge
      simpa using hedge
    · rw [hpieces]
      simp [Cursor.remember, hpieces', hpos]

theorem fits_qualifierGap {q z rest : List Char} (hq : IsOneOfPhrases Bound.allPhrases q)
    (hz : IsGap z) (hbefore : isWordAt c.before = false) (hrest : c.rest = q ++ (z ++ rest)) :
    ∃ d, Fits qualifierGap c d ∧ c.Reads (q ++ z) d ∧ d.rest = rest := by
  have hedge : c.atEdge = true := by
    rw [Cursor.atEdge, isEdge, hbefore, hrest,
      List.head?_append_of_ne_nil _ (ne_nil_of_isOneOfPhrases hq),
      Bound.isWordAt_head?_of_isOneOfPhrases hq]
    rfl
  have hwords : Fits (part .qualifier (anyOf (overWords ++ underWords))) c
      ((c.advance q).remember .qualifier c) := .part .qualifier (fits_phrases hq hrest)
  obtain ⟨hr, hqrest⟩ := Cursor.reads_advance hrest
  obtain ⟨hr', hzrest⟩ :=
    Cursor.reads_advance (c := (c.advance q).remember .qualifier c) hqrest
  exact ⟨_, .left _ (.seq (.seq (.edge hedge) hwords) (fits_gap hz hqrest)),
    (hr.remember .qualifier c).trans hr', hzrest⟩

end QualifierGap

/-! ### After the word budget -/

/-- What may stand before the blanks that lead to a number or a bound. -/
def leadEnds : List String := ["budget", "budgets", "von", "of", ":"]

theorem exists_of_fits_keyword {c d : Cursor}
    (h : Fits (whole (lit "budget" ++ opt (lit "s"))) c d) :
    ∃ x, c.Reads x d ∧ ∃ w ∈ leadEnds, x.map caseKey = w.toList.map caseKey := by
  cases h with
  | seq h hedge =>
  cases h with
  | seq hedge' h =>
  cases hedge with
  | edge hedge =>
  cases hedge' with
  | edge hedge' =>
  cases h with
  | seq hbudget hs =>
  obtain ⟨x, hx, hr⟩ := hbudget.lit
  cases hs with
  | left _ hs =>
    obtain ⟨y, hy, hr'⟩ := hs.lit
    refine ⟨x ++ y, hr.trans hr', "budgets", by decide, ?_⟩
    rw [List.map_append, hx, hy]
    rfl
  | right _ hs =>
    cases hs with
    | empty => exact ⟨x, hr, "budget", by decide, hx⟩

theorem exists_of_fits_link {c d : Cursor} (h : Fits (anyOf [lit "von", lit "of", lit ":"]) c d) :
    ∃ x, c.Reads x d ∧ ∃ w ∈ leadEnds, x.map caseKey = w.toList.map caseKey := by
  have hlinks : ∀ p ∈ [lit "von", lit "of", lit ":"], ∃ w ∈ leadEnds, p = lit w := by decide
  obtain ⟨p, hp, hlink⟩ := h.anyOf
  obtain ⟨w, hw, rfl⟩ := hlinks p hp
  obtain ⟨x, hx, hr⟩ := hlink.lit
  exact ⟨x, hr, w, hw, hx⟩

theorem exists_of_fits_keywordLead {c d : Cursor} (h : Fits keywordLead c d) :
    ∃ u z, c.Reads (u ++ z) d ∧ (∀ e ∈ z, isBlank e = true) ∧
      ∃ w ∈ leadEnds, w.toList.map caseKey <:+ u.map caseKey := by
  cases h with
  | seq h hblanks' =>
  cases h with
  | seq h hopt =>
  cases h with
  | seq hkeyword hblanks =>
  obtain ⟨x, hr, w, hw, hx⟩ := exists_of_fits_keyword hkeyword
  obtain ⟨z, hz, hrb⟩ := hblanks.blanks
  obtain ⟨z', hz', hrz⟩ := hblanks'.blanks
  cases hopt with
  | left _ hlink =>
    obtain ⟨y, hry, v, hv, hy⟩ := exists_of_fits_link hlink
    refine ⟨(x ++ z) ++ y, z', ((hr.trans hrb).trans hry).trans hrz, hz', v, hv, ?_⟩
    rw [List.map_append, hy]
    exact List.suffix_append ..
  | right _ hopt =>
    cases hopt with
    | empty =>
      refine ⟨x, z ++ z', hr.trans (hrb.trans hrz), ?_, w, hw, ⟨[], hx.symm⟩⟩
      exact List.forall_mem_append.2 ⟨hz, hz'⟩

/-- No bound ends like what leads to a number. -/
theorem not_standsBefore_of_leadEnds {s u z q : List Char} {i : Nat} (hs : s.take i = u ++ z)
    (hz : ∀ e ∈ z, isBlank e = true) {w : String} (hw : w ∈ leadEnds)
    (hu : w.toList.map caseKey <:+ u.map caseKey) : ¬ StandsBefore s i q := by
  intro h
  have hlead : ∀ w ∈ leadEnds, w.toList.map caseKey ≠ [] ∧
      ∀ c ∈ w.toList.map caseKey, isBlank c = false := by decide
  have hapart : ∀ ws ∈ Bound.allPhrases, ∀ w ∈ leadEnds,
      ¬ (keys ws).getLastD [] <:+ w.toList.map caseKey ∧
        ¬ w.toList.map caseKey <:+ (keys ws).getLastD [] := by decide
  obtain ⟨hne, hblank⟩ := hlead w hw
  obtain ⟨a, rfl, -⟩ := h.eq_append hs hz (isBlank_of_keys_suffix hne hblank hu)
  obtain ⟨ws, hws, hq⟩ := h.1
  have hlast : (keys ws).getLastD [] <:+ (a ++ q).map caseKey := by
    rw [List.map_append]
    exact (getLastD_keys_suffix hq).trans (List.suffix_append ..)
  obtain ⟨hnone, hnone'⟩ := hapart ws hws w hw
  exact (List.suffix_or_suffix_of_suffix hlast hu).elim hnone hnone'

end AmountPhrase

end CrmQuery
