import CrmQuery.Proofs.Pattern.Extension
import CrmQuery.Proofs.Pattern.WholeWords

/-!
# Phrases of several words

`SpellsPhrase ws x` says that the text `x` consists of the words `ws`, in any case, with blanks
between them; this is what `phrase ws` fits (`Fits.phrases`, `fits_phrases`).  A phrase
that spells `ws` has these words in any case (`words_of_spellsPhrase`), so no text spells two
different phrases.
-/

namespace CrmQuery

namespace Text

/-- The text consists of the words, in any case, with blanks between them. -/
def SpellsPhrase : List String → List Char → Prop
  | [], x => x = []
  | [w], x => x.map caseKey = w.toList.map caseKey
  | w :: v :: ws, x => ∃ y z x', x = y ++ (z ++ x') ∧ y.map caseKey = w.toList.map caseKey ∧
      IsGap z ∧ SpellsPhrase (v :: ws) x'

/-- The spelling of words that stands for all their spellings. -/
def keys (ws : List String) : List (List Char) := ws.map fun w => w.toList.map caseKey

/-- A gap separates the words before it from those after it. -/
theorem words_append_gap {x y z : List Char} (h : IsGap z) :
    words (x ++ (z ++ y)) = words x ++ words y := by
  have hhead : isWordAt (z ++ y).head? = false := by
    obtain ⟨c, z, rfl⟩ := List.exists_cons_of_ne_nil h.ne_nil
    exact isWord_of_isBlank (h.blank c List.mem_cons_self)
  rw [words_append (Or.inr hhead), words_append (Or.inl h.isWordAt_getLast?),
    words_eq_nil fun c hc => isWord_of_isBlank (h.blank c hc), List.nil_append]

/-! ### Words of phrases -/

theorem AreWords.tail {w : String} {ws : List String} (h : Pattern.AreWords (w :: ws)) :
    Pattern.AreWords ws := fun v hv => h v (List.mem_cons_of_mem w hv)

/-- A phrase has the words that it spells. -/
theorem words_of_spellsPhrase : ∀ {ws : List String} {x : List Char}, Pattern.AreWords ws →
    SpellsPhrase ws x → (words x).map (·.map caseKey) = keys ws
  | [], x, _, hx => by
    rw [show x = [] from hx, words_nil]
    rfl
  | [w], x, hws, hx => by
    obtain ⟨hne, hword⟩ := hws.isWord List.mem_cons_self hx
    rw [words_eq_singleton hne hword, List.map_singleton, show x.map caseKey = _ from hx]
    rfl
  | w :: v :: ws, x, hws, hx => by
    obtain ⟨y, z, x', rfl, hy, hz, hx'⟩ := hx
    obtain ⟨hne, hword⟩ := hws.isWord List.mem_cons_self hy
    rw [words_append_gap hz, words_eq_singleton hne hword, List.map_append, List.map_singleton, hy,
      words_of_spellsPhrase (AreWords.tail hws) hx']
    rfl

theorem isWordAt_head?_of_spellsPhrase : ∀ {ws : List String} {x : List Char}, ws ≠ [] →
    Pattern.AreWords ws → SpellsPhrase ws x → isWordAt x.head? = true
  | [w], x, _, hws, hx => by
    obtain ⟨hne, hword⟩ := hws.isWord List.mem_cons_self hx
    rw [List.head?_eq_some_head hne]
    exact hword _ (List.head_mem hne)
  | w :: v :: ws, x, _, hws, hx => by
    obtain ⟨y, z, x', rfl, hy, -, -⟩ := hx
    obtain ⟨hne, hword⟩ := hws.isWord List.mem_cons_self hy
    rw [List.head?_append_of_ne_nil _ hne, List.head?_eq_some_head hne]
    exact hword _ (List.head_mem hne)

/-- A phrase ends with its last word. -/
theorem getLastD_keys_suffix : ∀ {ws : List String} {x : List Char}, SpellsPhrase ws x →
    (keys ws).getLastD [] <:+ x.map caseKey
  | [], x, _ => List.nil_suffix
  | [w], x, hx => by
    rw [show x.map caseKey = _ from hx]
    exact List.suffix_rfl
  | w :: v :: ws, x, hx => by
    obtain ⟨y, z, x', rfl, -, -, hx'⟩ := hx
    have hlast : (keys (w :: v :: ws)).getLastD [] = (keys (v :: ws)).getLastD [] := by
      simp [keys]
    rw [hlast, List.map_append, List.map_append]
    exact (getLastD_keys_suffix hx').trans ((List.suffix_append ..).trans (List.suffix_append ..))

end Text

open Text

namespace Pattern

/-! ### Fits of phrases -/

/-- Repetitions of a class read a run of its characters. -/
theorem Fits.exists_run {cls : CharClass} {c d : Cursor} (h : Fits (many (Pattern.one cls)) c d) :
    ∃ x, x ≠ [] ∧ (∀ e ∈ x, cls.has e = true) ∧ c.Reads x d := by
  obtain ⟨x, hx, hclass⟩ := h.exists_reads
  refine ⟨x, h.ne_nil rfl hx, fun e he => ?_, hx⟩
  obtain ⟨cls', hcls', hhas⟩ := hclass e he
  rwa [show cls' = cls from List.mem_singleton.1 hcls'] at hhas

theorem Fits.gap {c d : Cursor} (h : Fits gap c d) : ∃ z, IsGap z ∧ c.Reads z d := by
  obtain ⟨z, hne, hblank, hz⟩ := h.exists_run
  exact ⟨z, ⟨hne, hblank⟩, hz⟩

theorem Fits.blanks {c d : Cursor} (h : Fits blanks c d) :
    ∃ z, (∀ e ∈ z, isBlank e = true) ∧ c.Reads z d := by
  cases h with
  | left _ h =>
    obtain ⟨z, hz, hr⟩ := h.gap
    exact ⟨z, hz.blank, hr⟩
  | right _ h =>
    cases h with
    | empty => exact ⟨[], by simp, rfl, rfl⟩

theorem fits_gap {c : Cursor} {z rest : List Char} (hz : IsGap z) (hrest : c.rest = z ++ rest) :
    Fits gap c (c.advance z) := by
  have hclass : ∀ e ∈ z, CharClass.blank.has e = true := hz.blank
  exact fits_many_one hz.ne_nil hclass hrest

theorem Fits.phrase : ∀ {ws : List String} {c d : Cursor}, Fits (phrase ws) c d →
    ∃ x, SpellsPhrase ws x ∧ c.Reads x d
  | [], c, d, h => by
    cases h with
    | empty => exact ⟨[], rfl, rfl, rfl⟩
  | [w], c, d, h => h.lit
  | w :: v :: ws, c, d, h => by
    cases h with
    | seq h hws =>
    cases h with
    | seq hw hgap =>
    obtain ⟨y, hy, hyr⟩ := hw.lit
    obtain ⟨z, hz, hzr⟩ := hgap.gap
    obtain ⟨x, hx, hxr⟩ := Fits.phrase hws
    exact ⟨y ++ (z ++ x), ⟨y, z, x, rfl, hy, hz, hx⟩, hyr.trans (hzr.trans hxr)⟩

end Pattern

theorem Cursor.advance_append (c : Cursor) (x y : List Char) :
    (c.advance x).advance y = c.advance (x ++ y) := by
  simp [advance, List.getLast?_append, Option.or_assoc, Nat.add_assoc]

namespace Pattern

theorem fits_phrase : ∀ {ws : List String} {c : Cursor} {x rest : List Char}, SpellsPhrase ws x →
    c.rest = x ++ rest → Fits (phrase ws) c (c.advance x)
  | [], c, x, rest, hx, _ => by
    rw [show x = [] from hx, Cursor.advance_nil]
    exact .empty c
  | [w], c, x, rest, hx, hrest => fits_lit hx hrest
  | w :: v :: ws, c, x, rest, hx, hrest => by
    obtain ⟨y, z, x', rfl, hy, hz, hx'⟩ := hx
    rw [List.append_assoc, List.append_assoc] at hrest
    have hyrest := (Cursor.reads_advance hrest).2
    have hzrest := (Cursor.reads_advance hyrest).2
    rw [← Cursor.advance_append, ← Cursor.advance_append]
    exact .seq (.seq (fits_lit hy hrest) (fits_gap hz hyrest)) (fits_phrase hx' hzrest)

theorem regular_phrase : ∀ ws : List String, (phrase ws).regular = true
  | [] => rfl
  | [w] => regular_lit w
  | w :: v :: ws => by
    have hphrase : (phrase (w :: v :: ws)).regular =
        (((lit w).regular && gap.regular) && (phrase (v :: ws)).regular) := rfl
    rw [hphrase, regular_lit, regular_phrase (v :: ws)]
    rfl

/-- A text is one of some phrases, in any case. -/
def IsOneOfPhrases (wss : List (List String)) (x : List Char) : Prop :=
  ∃ ws ∈ wss, SpellsPhrase ws x

theorem Fits.phrases {wss : List (List String)} {c d : Cursor}
    (h : Fits (Pattern.anyOf (wss.map Pattern.phrase)) c d) :
    ∃ x, IsOneOfPhrases wss x ∧ c.Reads x d := by
  obtain ⟨p, hp, h⟩ := h.anyOf
  obtain ⟨ws, hws, rfl⟩ := List.mem_map.1 hp
  obtain ⟨x, hx, hr⟩ := h.phrase
  exact ⟨x, ⟨ws, hws, hx⟩, hr⟩

theorem fits_phrases {wss : List (List String)} {c : Cursor} {x rest : List Char}
    (hx : IsOneOfPhrases wss x) (hrest : c.rest = x ++ rest) :
    Fits (anyOf (wss.map phrase)) c (c.advance x) := by
  obtain ⟨ws, hws, hx⟩ := hx
  exact (fits_phrase hx hrest).of_mem_anyOf (List.mem_map_of_mem hws)

/-- Phrases have no character of a class that their pattern is apart from. -/
theorem IsOneOfPhrases.has_eq_false {wss : List (List String)} {x : List Char}
    (h : IsOneOfPhrases wss x) {cls : CharClass}
    (hapart : (anyOf (wss.map phrase)).apart cls = true) : ∀ e ∈ x, cls.has e = false := by
  have hrest : (Cursor.ofText x).rest = x ++ [] := (List.append_nil x).symm
  obtain ⟨y, hy, hnone⟩ := (fits_phrases h hrest).has_eq_false cls hapart
  have hxy : x = y :=
    List.append_cancel_right ((Cursor.reads_advance hrest).1.rest.symm.trans hy.rest)
  rwa [hxy]

theorem fitsAll_iff {p : Pattern} (hp : p.regular = true) {s : List Char} :
    p.fitsAll s = true ↔ ∃ d, Fits p (.ofText s) d ∧ d.rest = [] := by
  unfold fitsAll
  rw [run_eq_findSome?, List.findSome?_isSome_iff]
  simp only [mem_ends_iff hp]
  apply exists_congr
  intro d
  cases d.rest <;> simp

theorem fitsAll_phrases_iff {wss : List (List String)} {s : List Char} :
    (anyOf (wss.map phrase)).fitsAll s = true ↔ IsOneOfPhrases wss s := by
  have hregular : (anyOf (wss.map phrase)).regular = true :=
    regular_anyOf (List.forall_mem_map.2 fun ws _ => regular_phrase ws)
  rw [fitsAll_iff hregular]
  constructor
  · rintro ⟨d, hd, hnil⟩
    obtain ⟨x, hx, hr⟩ := hd.phrases
    have hs : s = x ++ d.rest := hr.rest
    rwa [hs, hnil, List.append_nil]
  · intro hs
    have hrest : (Cursor.ofText s).rest = s ++ [] := (List.append_nil s).symm
    exact ⟨_, fits_phrases hs hrest, (Cursor.reads_advance hrest).2⟩

end Pattern

end CrmQuery
