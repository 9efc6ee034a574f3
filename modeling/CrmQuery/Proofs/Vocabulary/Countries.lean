import CrmQuery.Question.Entities
import CrmQuery.Proofs.Pattern.Finite

/-!
# The words for countries

The patterns for a country are those for finitely many words (`Country.words`), so the country that
a text names is looked up word by word (`Country.firstNamed?_eq_ofWords`).
-/

namespace CrmQuery

open Text Pattern

namespace Country

/-- The words for a country and its people, in lower case. -/
def words : Country → List String
  | germany =>
    ["deutschland", "germany", "deutschen", "deutschem", "deutscher", "deutsche", "german"]
  | switzerland => ["schweiz", "schweizer", "switzerland", "swiss"]
  | austria => [
      "österreich", "oesterreich", "österreichischen", "österreichischem", "österreichischer",
      "österreichische", "austria", "austrian"]
  | turkey => ["türkei", "tuerkei", "türkiye", "turkey", "turkish"]

/-- The words for all countries. -/
def allWords : List String := all.flatMap words

/-- The first country, in the order in which they are looked for, that one of some words stands
for. -/
def ofWords (ws : List (List Char)) : Option Country :=
  all.find? fun k => ws.any fun x => decide (IsOneOf k.words x)

example : ofWords (Text.words "swiss leads, or german ones".toList) = some germany := by
  decide +kernel

theorem mem_all (k : Country) : k ∈ all := by
  cases k <;> decide

theorem areWords (k : Country) : AreWords k.words := by
  cases k <;> decide +kernel

/-- The patterns for a country occur where one of the words of the text stands for it. -/
theorem anyOccurs_patterns_iff (k : Country) {s : List Char} :
    anyOccurs k.patterns s = true ↔ ∃ x ∈ Text.words s, IsOneOf k.words x := by
  refine anyOccurs_iff_of_wholeTexts k.areWords ?_
  cases k <;> decide +kernel

/-- The country of a text is looked up word by word. -/
theorem firstNamed?_eq_ofWords (s : List Char) :
    firstNamed? all patterns s = ofWords (Text.words s) := by
  unfold firstNamed? ofWords
  congr 1
  funext k
  rw [Bool.eq_iff_iff, k.anyOccurs_patterns_iff, List.any_eq_true]
  simp only [decide_eq_true_eq]

theorem isOneOf_allWords_iff {x : List Char} :
    IsOneOf allWords x ↔ ∃ k : Country, IsOneOf k.words x := by
  constructor
  · rintro ⟨w, hw, hx⟩
    obtain ⟨k, -, hk⟩ := List.mem_flatMap.1 hw
    exact ⟨k, w, hk, hx⟩
  · rintro ⟨k, w, hw, hx⟩
    exact ⟨w, List.mem_flatMap.2 ⟨k, k.mem_all, hw⟩, hx⟩

section Lookup

variable {ws : List (List Char)} {k : Country}

/-- The countries that are looked for before a country. -/
def earlier (k : Country) : List Country := all.takeWhile (· ≠ k)

theorem exists_all_eq (k : Country) : ∃ later, all = k.earlier ++ k :: later := by
  cases k <;> exact ⟨_, rfl⟩

theorem ofWords_eq_some_iff : ofWords ws = some k ↔
    (∃ x ∈ ws, IsOneOf k.words x) ∧ ∀ j ∈ k.earlier, ∀ x ∈ ws, ¬ IsOneOf j.words x := by
  have hnamed : ∀ j : Country, (ws.any fun x => decide (IsOneOf j.words x)) = true ↔
      ∃ x ∈ ws, IsOneOf j.words x := by simp
  have hnone : ∀ j : Country, (!ws.any fun x => decide (IsOneOf j.words x)) = true ↔
      ∀ x ∈ ws, ¬ IsOneOf j.words x := by simp
  rw [ofWords, List.find?_eq_some_iff_append, hnamed]
  simp only [hnone]
  refine and_congr_right fun hk => ⟨?_, fun h => ?_⟩
  · rintro ⟨before, later, hall, hbefore⟩
    have hne : ∀ j ∈ before, decide (j ≠ k) = true := by
      intro j hj
      obtain ⟨x, hx, hone⟩ := hk
      rw [decide_eq_true_iff]
      rintro rfl
      exact hbefore j hj x hx hone
    have hearlier : k.earlier = before := by
      unfold earlier
      rw [hall, List.takeWhile_append_of_pos hne, List.takeWhile_cons_of_neg (by simp),
        List.append_nil]
    rwa [hearlier]
  · obtain ⟨later, hall⟩ := k.exists_all_eq
    exact ⟨k.earlier, later, hall, h⟩

theorem ofWords_eq_none_iff : ofWords ws = none ↔ ∀ x ∈ ws, ¬ IsOneOf allWords x := by
  simp only [ofWords, List.find?_eq_none, List.any_eq_true, decide_eq_true_eq, not_exists, not_and,
    isOneOf_allWords_iff]
  exact ⟨fun h x hx k => h k k.mem_all x hx, fun h k _ x hx => h x hx k⟩

end Lookup

end Country

end CrmQuery
