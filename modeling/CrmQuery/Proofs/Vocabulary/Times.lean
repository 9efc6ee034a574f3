import CrmQuery.Vocabulary.Times
import CrmQuery.Proofs.Pattern.Finite

/-!
# The words for times

The patterns for the words that look back and for the units are lists of words
(`fitsExactly_lookingBack`, `Period.fitsExactly_patterns`), and no word is a unit of two periods, so
`Period.ofUnit?` is the period of a unit (`Period.ofUnit?_eq_some_iff`).  Every period has a limit
(`Period.limit?_eq`).  A text that names today, yesterday or this month has one of the `namingWords`
(`TimePhrase.exists_namingWord`).
-/

namespace CrmQuery

open Text Pattern

/-! ### Units -/

namespace Period

/-- The words for a unit, in lower case. -/
def unitWords : Period → List String
  | day => ["tage", "tagen", "tag", "days", "day"]
  | week => ["wochen", "woche", "weeks", "week"]
  | month => ["monate", "monaten", "monats", "monat", "months", "month"]

/-- The words for all units. -/
def allUnitWords : List String := all.flatMap unitWords

theorem fitsExactly_patterns (p : Period) : FitsExactly (anyOf p.patterns) p.unitWords := by
  cases p <;> exact fitsExactly_of_texts (by decide +kernel) (by decide +kernel)

theorem fitsExactly_allPatterns : FitsExactly (anyOf (all.flatMap patterns)) allUnitWords :=
  fitsExactly_of_texts (by decide +kernel) (by decide +kernel)

theorem any_fitsAll_iff {p : Period} {x : List Char} :
    (p.patterns.any fun q => q.fitsAll x) = true ↔ IsOneOf p.unitWords x := by
  rw [← fitsAll_anyOf, p.fitsExactly_patterns.fitsAll_iff]

theorem mem_all (p : Period) : p ∈ all := by
  cases p <;> decide

theorem isOneOf_allUnitWords_iff {x : List Char} :
    IsOneOf allUnitWords x ↔ ∃ p : Period, IsOneOf p.unitWords x := by
  constructor
  · rintro ⟨w, hw, hx⟩
    obtain ⟨p, -, hp⟩ := List.mem_flatMap.1 hw
    exact ⟨p, w, hp, hx⟩
  · rintro ⟨p, w, hw, hx⟩
    exact ⟨w, List.mem_flatMap.2 ⟨p, p.mem_all, hw⟩, hx⟩

/-- No word is a unit of two periods. -/
theorem unique_of_isOneOf {p q : Period} {x : List Char} (hp : IsOneOf p.unitWords x)
    (hq : IsOneOf q.unitWords x) : p = q := by
  have key : ∀ p ∈ all, ∀ q ∈ all, p = q ∨ ∀ k ∈ keys p.unitWords, k ∉ keys q.unitWords := by
    decide +kernel
  exact (key p p.mem_all q q.mem_all).resolve_right fun h => not_isOneOf h hp hq

/-- Whichever periods are tried and in whatever order, the period that a word is a unit of is
found. -/
theorem find?_eq_some_iff {ps : List Period} {p : Period} (hp : p ∈ ps) {x : List Char} :
    ps.find? (fun q => q.patterns.any (·.fitsAll x)) = some p ↔ IsOneOf p.unitWords x := by
  have hfind : ∀ q, ps.find? (fun q => q.patterns.any (·.fitsAll x)) = some q →
      IsOneOf q.unitWords x := by
    intro q h
    have hany := List.find?_some h
    exact any_fitsAll_iff.1 hany
  refine ⟨hfind p, fun h => ?_⟩
  cases hx : ps.find? (fun q => q.patterns.any (·.fitsAll x)) with
  | none =>
    have hnone := List.find?_eq_none.1 hx p hp
    exact absurd (any_fitsAll_iff.2 h) hnone
  | some q => rw [unique_of_isOneOf (hfind q hx) h]

/-- The period of a word is the one that the word is a unit of. -/
theorem ofUnit?_eq_some_iff {p : Period} {x : List Char} :
    ofUnit? x = some p ↔ IsOneOf p.unitWords x :=
  find?_eq_some_iff p.mem_all

/-! ### Limits -/

/-- Every period has a limit. -/
theorem limit?_eq (p : Period) : p.limit? = some p.maxCount := by
  cases p <;> rfl

theorem allows_iff {p : Period} {count : Nat} : p.allows count = true ↔ count ≤ p.maxCount := by
  simp [allows, limit?_eq]

end Period

/-! ### Phrases -/

namespace TimePhrase

/-- Words that look back from now, in lower case. -/
def lookingBackWords : List String := [
  "letzten", "letztem", "letzter", "letztes", "letzte",
  "vergangenen", "vergangenem", "vergangener", "vergangenes", "vergangene", "last", "past"]

theorem fitsExactly_lookingBack : FitsExactly lookingBack lookingBackWords :=
  fitsExactly_of_texts (by decide +kernel) (by decide +kernel)

/-- Words that point to the present. -/
def pointing : Pattern := anyOf [lit "diese" ++ ending, lit "aktuelle" ++ ending]

/-- Words that point to the present, in lower case. -/
def pointingWords : List String := [
  "diesen", "diesem", "dieser", "dieses", "diese",
  "aktuellen", "aktuellem", "aktueller", "aktuelles", "aktuelle"]

theorem fitsExactly_pointing : FitsExactly pointing pointingWords :=
  fitsExactly_of_texts (by decide +kernel) (by decide +kernel)

/-- The words of which a text that names today, yesterday or this month has one. -/
def namingWords : List String :=
  ["heute", "today", "gestern", "yesterday"] ++ pointingWords ++ ["this"]

/-- A word and blanks after it, where no other word touches it. -/
theorem exists_mem_words_of_fits_gap {p : Pattern} {ws : List String} (hp : FitsExactly p ws)
    {a : List Char} {c d : Cursor} (hbefore : c.before = a.getLast?) (hc : c.atEdge = true)
    (h : Fits (p ++ gap) c d) : ∃ x ∈ words (a ++ c.rest), IsOneOf ws x := by
  cases h with
  | seq h hgap =>
  obtain ⟨w, hw, x, hx, hr⟩ := hp.only _ _ h
  obtain ⟨hne, hword⟩ := hp.areWords.isWord hw hx
  obtain ⟨z, hz, hzr⟩ := hgap.gap
  have ha := isWordAt_before_of_edge hne hword hr hc
  have hb : isWordAt (z ++ d.rest).head? = false := by
    rw [List.head?_append_of_ne_nil _ hz.ne_nil]
    exact hz.isWordAt_head?
  refine ⟨x, ?_, w, hw, hx⟩
  rw [hr.rest, hzr.rest, ← List.append_assoc]
  exact mem_words_of_edges hne hword (hbefore ▸ ha) hb

/-- A text that names this month has a word that points to the present. -/
theorem exists_mem_words_of_thisMonth {s : List Char} (h : thisMonth.occursIn s = true) :
    ∃ x ∈ words s, IsOneOf (pointingWords ++ ["this"]) x := by
  obtain ⟨a, c, d, rfl, hbefore, hd⟩ := exists_fits_of_occursIn h
  have hmonth : thisMonth = edge ++ anyOf [pointing ++ gap ++ lit "monat",
      lit "this" ++ gap ++ lit "month"] ++ edge := rfl
  rw [hmonth] at hd
  cases hd with
  | seq hd _ =>
  cases hd with
  | seq hedge hd =>
  cases hedge with
  | edge hc =>
  cases hd with
  | left _ hd =>
    cases hd with
    | seq hd _ =>
    obtain ⟨x, hx, w, hw, hxw⟩ := exists_mem_words_of_fits_gap fitsExactly_pointing hbefore hc hd
    exact ⟨x, hx, w, List.mem_append_left _ hw, hxw⟩
  | right _ hd =>
    cases hd with
    | seq hd _ =>
    have hthis : FitsExactly (lit "this") ["this"] := fitsExactly_lit (by decide +kernel)
    obtain ⟨x, hx, w, hw, hxw⟩ := exists_mem_words_of_fits_gap hthis hbefore hc hd
    exact ⟨x, hx, w, List.mem_append_right _ hw, hxw⟩

/-- A text that names today, yesterday or this month has one of the naming words. -/
theorem exists_namingWord {s : List Char} (h : today.occursIn s = true ∨
    yesterday.occursIn s = true ∨ thisMonth.occursIn s = true) :
    ∃ x ∈ words s, IsOneOf namingWords x := by
  have hwiden : ∀ {ws : List String}, ws ⊆ namingWords → (∃ x ∈ words s, IsOneOf ws x) →
      ∃ x ∈ words s, IsOneOf namingWords x := by
    rintro ws hws ⟨x, hx, w, hw, hxw⟩
    exact ⟨x, hx, w, hws hw, hxw⟩
  have htoday : FitsExactly (anyOf [lit "heute", lit "today"]) ["heute", "today"] :=
    fitsExactly_of_texts (by decide +kernel) (by decide +kernel)
  have hyesterday : FitsExactly (anyOf [lit "gestern", lit "yesterday"]) ["gestern", "yesterday"] :=
    fitsExactly_of_texts (by decide +kernel) (by decide +kernel)
  rcases h with h | h | h
  · exact hwiden (by decide) (htoday.occursIn_whole_iff.1 h)
  · exact hwiden (by decide) (hyesterday.occursIn_whole_iff.1 h)
  · exact hwiden (by decide) (exists_mem_words_of_thisMonth h)

end TimePhrase

end CrmQuery
