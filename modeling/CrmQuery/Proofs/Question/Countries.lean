import CrmQuery.Proofs.Question.Hint
import CrmQuery.Proofs.Vocabulary.Countries

/-!
# The country of a question

The country that a question names is the first one that one of its words stands for, and the filter
on the country follows from it (`Classification.looksUpCountry_of_ofQuestion`).
-/

namespace CrmQuery

open Text Pattern

namespace Entities

theorem filter_country (e : Entities) (d : Domain) :
    (e.filters d).filter (fun f => f.field = "country") = e.countryFilter?.toList := by
  rw [filter_field_filters e d fun field => decide (field = "country")]
  simp

theorem exists_countryFilter_iff (e : Entities) (d : Domain) :
    (∃ f ∈ e.filters d, f.field = "country") ↔ e.country ≠ none := by
  have hfield : (∃ f ∈ e.filters d, f.field = "country") ↔
      (e.filters d).filter (fun f => f.field = "country") ≠ [] := by
    simp [List.filter_eq_nil_iff]
  rw [hfield, filter_country, countryFilter?]
  cases e.country <;> simp

end Entities

theorem Country.key_injective {j k : Country} (h : j.key = k.key) : j = k := by
  cases j <;> cases k <;> first | rfl | exact absurd h (by decide)

/-- A text has a word for a country that no other character of a word touches. -/
def Country.StandsIn (s : List Char) : Prop :=
  ∃ a x b, s = a ++ x ++ b ∧ IsOneOf allWords x ∧ isWordAt a.getLast? = false ∧
    isWordAt b.head? = false

theorem Country.standsIn_iff {s : List Char} :
    StandsIn s ↔ ∃ x ∈ Text.words s, IsOneOf allWords x := by
  have hwords : AreWords allWords := by decide +kernel
  constructor
  · rintro ⟨a, x, b, rfl, hone, ha, hb⟩
    obtain ⟨hne, hword⟩ := hone.isWord hwords
    exact ⟨x, mem_words_of_edges hne hword ha hb, hone⟩
  · rintro ⟨x, hx, hone⟩
    obtain ⟨a, b, hs, -, -, ha, hb⟩ := exists_of_mem_words hx
    exact ⟨a, x, b, hs, hone, ha, hb⟩

namespace Classification

/-- The country in the classification of the text `s`. -/
structure LooksUpCountry (s : List Char) (c : Classification) : Prop where
  /-- A country is reported if it is the first one that a word of the text stands for. -/
  entity : ∀ k : Country, c.entities.lookup "country" = some (.string k.key) ↔
    (∃ x ∈ words s, IsOneOf k.words x) ∧ ∀ j ∈ k.earlier, ∀ x ∈ words s, ¬ IsOneOf j.words x
  /-- Nothing else is reported as a country. -/
  known : ∀ value, c.entities.lookup "country" = some value → ∃ k : Country, value = .string k.key
  none : c.entities.lookup "country" = none ↔ ∀ x ∈ words s, ¬ IsOneOf Country.allWords x
  filter : c.filters.filter (fun f => f.field = "country") =
    (Country.ofWords (words s)).toList.map fun k => ⟨"country", .compare .eq (.text k.display)⟩
  /-- Where a word for a country is only part of longer words, there is no filter. -/
  stands : (∃ f ∈ c.filters, f.field = "country") ↔ Country.StandsIn s

/-- The country of a question is looked up word by word. -/
theorem looksUpCountry_of_ofQuestion {question : String} {hint : Option Domain} {now : Moment}
    {c : Classification} (h : ofQuestion question hint now = .ok c) :
    c.LooksUpCountry (normalize question) := by
  obtain ⟨e, timeframe, he, -, rfl⟩ := of_ofQuestion_eq_ok h
  obtain ⟨budget, -, hentities⟩ := Entities.of_ofText_eq_ok he
  have hcountry : e.country = Country.ofWords (words (normalize question)) := by
    rw [hentities]
    exact Country.firstNamed?_eq_ofWords _
  have hfilter := e.filter_country (Topic.ofText (normalize question) hint).domain
  constructor
  case entity =>
    intro k
    rw [← Country.ofWords_eq_some_iff, ← hcountry, e.lookup_country, Option.map_eq_some_iff]
    constructor
    · rintro ⟨j, hj, hkey⟩
      rw [hj, Country.key_injective (Json.string.inj hkey)]
    · exact fun hk => ⟨k, hk, rfl⟩
  case known =>
    intro value hvalue
    rw [e.lookup_country, Option.map_eq_some_iff] at hvalue
    obtain ⟨k, -, rfl⟩ := hvalue
    exact ⟨k, rfl⟩
  case none =>
    rw [← Country.ofWords_eq_none_iff, ← hcountry, e.lookup_country, Option.map_eq_none_iff]
  case filter =>
    rw [hfilter, Entities.countryFilter?, hcountry]
    cases Country.ofWords (words (normalize question)) <;> rfl
  case stands =>
    rw [Country.standsIn_iff, Entities.exists_countryFilter_iff, hcountry, ne_eq,
      Country.ofWords_eq_none_iff]
    simp only [not_forall, not_not, exists_prop]

/-- A country is found next to a sign, and not in a longer word or before a digit. -/
theorem looksUpCountry_of_ofQuestion_signs :
    let now : Moment :=
      ⟨.startOfDay ⟨2024, 6, 15, by decide, by decide, by decide, by decide, by decide, by decide⟩,
        .floating, false⟩
    ∃ c, ofQuestion "Schweizerin, german2 (ÖSTERREICH!)" none now = .ok c ∧
      c.LooksUpCountry (normalize "Schweizerin, german2 (ÖSTERREICH!)") ∧
      c.entities.lookup "country" = some (.string "österreich") := by
  intro now
  have hread : ∃ c, ofQuestion "Schweizerin, german2 (ÖSTERREICH!)" none now = .ok c ∧
      c.entities.lookup "country" = some (.string "österreich") := ⟨_, rfl, rfl⟩
  obtain ⟨c, hc, hcountry⟩ := hread
  exact ⟨c, hc, looksUpCountry_of_ofQuestion hc, hcountry⟩

end Classification

end CrmQuery
