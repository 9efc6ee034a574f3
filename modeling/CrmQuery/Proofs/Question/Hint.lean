import CrmQuery.Proofs.Question.Monotone

/-!
# What a hint changes

A hint at a domain changes the domain of a question, the filters that depend on it and, if the
question has no word for any domain, the confidence; it changes nothing else, and the hint at the
unknown domain changes nothing at all (`Classification.ofQuestion_hint`).
-/

namespace CrmQuery

open Pattern

/-! ### Domains -/

namespace Topic

variable {s : List Char} {h d : Domain}

theorem ofText_unknown (s : List Char) : ofText s (some .unknown) = ofText s none := rfl

theorem ofText_of_occurs (hh : h ≠ .unknown) (hoccurs : anyOccurs h.patterns s = true) :
    ofText s (some h) = ⟨h, .words⟩ := by
  have hhint : (some h).filter (· != .unknown) = some h := by simpa [Option.filter] using hh
  unfold ofText
  rw [hhint]
  simp [Option.filter, hoccurs]

/-- A hint for which there is no word counts only where there is no word for any domain. -/
theorem ofText_of_not_occurs (hh : h ≠ .unknown) (hoccurs : anyOccurs h.patterns s = false) :
    ofText s (some h) =
      match Domain.ofText? s with
      | some d => ⟨d, .words⟩
      | none => ⟨h, .hint⟩ := by
  have hhint : (some h).filter (· != .unknown) = some h := by simpa [Option.filter] using hh
  unfold ofText
  rw [hhint]
  cases Domain.ofText? s <;> simp [Option.filter, hoccurs]

/-- Where there is a word for some domain, a hint can only choose between it and its own domain. -/
theorem domain_ofText_of_some (hd : Domain.ofText? s = some d) :
    ((ofText s (some h)).domain = d ∨ (ofText s (some h)).domain = h) ∧
      (h ≠ .unknown → ((ofText s (some h)).domain = h ↔ anyOccurs h.patterns s = true)) := by
  by_cases hh : h = .unknown
  · subst hh
    refine ⟨Or.inl ?_, fun hne => absurd rfl hne⟩
    rw [domain_ofText_of_no_hint s (Or.inr rfl), hd]
    rfl
  · by_cases hoccurs : anyOccurs h.patterns s = true
    · rw [ofText_of_occurs hh hoccurs]
      exact ⟨Or.inr rfl, fun _ => iff_of_true rfl hoccurs⟩
    · rw [ofText_of_not_occurs hh (Bool.eq_false_iff.2 hoccurs), hd]
      have hfound := List.find?_some hd
      refine ⟨Or.inl rfl, fun _ => iff_of_false (fun heq : d = h => hoccurs ?_) hoccurs⟩
      rw [heq] at hfound
      exact hfound

/-- Where there is no word for any domain, a hint decides. -/
theorem ofText_of_none (hd : Domain.ofText? s = none) (hh : h ≠ .unknown) :
    ofText s (some h) = ⟨h, .hint⟩ := by
  have hoccurs : anyOccurs h.patterns s = false := by
    simpa using List.find?_eq_none.1 hd h (mem_byPriority.2 hh)
  rw [ofText_of_not_occurs hh hoccurs, hd]

end Topic

/-- A hint makes more confident than nothing. -/
theorem Evidence.confidence_nothing_lt_hint (i t : Bool) {n : Nat} (hn : n ≤ 4) :
    nothing.confidence i n t < hint.confidence i n t := by
  have key : ∀ n : Fin 5, ∀ i t : Bool,
      nothing.confidence i n.val t < hint.confidence i n.val t := by decide +kernel
  exact key ⟨n, by omega⟩ i t

/-! ### Filters -/

namespace Entities

/-- The fields whose filters depend on the domain. -/
def domainFields : List String := ["lead_score", "status"]

variable (e : Entities) (d : Domain)

/-- Filters are chosen by their fields one by one. -/
theorem filter_field_filters (p : String → Bool) : (e.filters d).filter (fun f => p f.field) =
    (if p "lead_score" then (e.scoreFilter? d).toList else []) ++
      (if p "country" then e.countryFilter?.toList else []) ++
        (if p "budget_max" then e.budgetFilter?.toList else []) ++
          (if p "status" then (e.statusFilter? d).toList else []) := by
  have hone : ∀ {o : Option Filter} {field : String}, (∀ f ∈ o, f.field = field) →
      o.toList.filter (fun f => p f.field) = if p field then o.toList else [] := by
    intro o field h
    cases o with
    | none => simp
    | some f => simp [List.filter_singleton, h f rfl]
  have hscore : ∀ f ∈ e.scoreFilter? d, f.field = "lead_score" := by
    unfold scoreFilter?
    split_ifs <;> simp
  have hstatus : ∀ f ∈ e.statusFilter? d, f.field = "status" := by
    unfold statusFilter?
    split_ifs <;> simp
  have hcountry : ∀ f ∈ e.countryFilter?, f.field = "country" := by simp [countryFilter?]
  have hbudget : ∀ f ∈ e.budgetFilter?, f.field = "budget_max" := by simp [budgetFilter?]
  unfold filters
  rw [List.filter_append, List.filter_append, List.filter_append, hone hscore, hone hcountry,
    hone hbudget, hone hstatus]

theorem filter_filters : (e.filters d).filter (fun f => f.field ∉ domainFields) =
    e.countryFilter?.toList ++ e.budgetFilter?.toList := by
  rw [filter_field_filters e d fun field => decide (field ∉ domainFields)]
  simp [domainFields]

theorem map_field_filters : (e.filters d).map Filter.field =
    (if d = .analytics then [] else (e.leadStatus.map fun _ => "lead_score").toList) ++
      (e.country.map fun _ => "country").toList ++ (e.budget.map fun _ => "budget_max").toList ++
        (if d = .bookings then (e.bookingStatus.map fun _ => "status").toList else []) := by
  have hmap : ∀ {α : Type} (o : Option α) (f : α → Filter),
      (o.map f).toList.map Filter.field = (o.map fun a => (f a).field).toList := by
    intro α o f
    cases o <;> rfl
  unfold filters scoreFilter? countryFilter? budgetFilter? statusFilter?
  split_ifs <;> simp [hmap]

theorem exists_scoreFilter_iff : (∃ f ∈ e.filters d, f.field = "lead_score") ↔
    e.leadStatus.isSome = true ∧ d ≠ .analytics := by
  rw [← List.mem_map, map_field_filters]
  by_cases hd : d = .analytics
  · simp [hd]
  · cases e.leadStatus <;> simp [hd]

theorem exists_statusFilter_iff : (∃ f ∈ e.filters d, f.field = "status") ↔
    e.bookingStatus.isSome = true ∧ d = .bookings := by
  rw [← List.mem_map, map_field_filters]
  by_cases hd : d = .bookings
  · cases e.bookingStatus <;> simp [hd]
  · simp [hd]

end Entities

/-! ### Classifications -/

namespace Classification

/-- There is a filter on the lead score or on the status of bookings if and only if the question
names one and the domain admits it. -/
structure Restricts (c : Classification) : Prop where
  score : (∃ f ∈ c.filters, f.field = "lead_score") ↔
    (c.entities.lookup "leadStatus").isSome = true ∧ c.domain ≠ .analytics
  status : (∃ f ∈ c.filters, f.field = "status") ↔
    (c.entities.lookup "bookingStatus").isSome = true ∧ c.domain = .bookings

/-- What a hint changes in the classification of the text `s`. -/
structure Hinted (s : List Char) (h : Domain) (a b : Classification) : Prop where
  intent : b.intent = a.intent
  entities : b.entities = a.entities
  timeframe : b.timeframe = a.timeframe
  aggregation : b.aggregation = a.aggregation
  language : b.language = a.language
  /-- A known domain gives way to the hint if and only if the text has a word for the hint. -/
  known : a.domain ≠ .unknown → b.confidence = a.confidence ∧
    (b.domain = a.domain ∨ b.domain = h) ∧
      (h ≠ .unknown → (b.domain = h ↔ anyOccurs h.patterns s = true))
  unknown : a.domain = .unknown → h ≠ .unknown → b.domain = h ∧ a.confidence < b.confidence
  filters : b.filters.filter (fun f => f.field ∉ Entities.domainFields) =
    a.filters.filter (fun f => f.field ∉ Entities.domainFields)

/-- What is read of a question besides its domain does not depend on the hint. -/
theorem ofQuestion_eq_error {question : String} {now : Moment} {e : QuestionFault}
    (h h' : Option Domain) (herror : ofQuestion question h now = .error e) :
    ofQuestion question h' now = .error e := by
  unfold ofQuestion at herror ⊢
  cases hentities : Entities.ofText (normalize question) with
  | error f =>
    simp only [hentities] at herror ⊢
    exact herror
  | ok entities =>
    cases htimeframe : Timeframe.ofText? (normalize question) now with
    | error f =>
      simp only [hentities, htimeframe] at herror ⊢
      exact herror
    | ok timeframe =>
      simp only [hentities, htimeframe] at herror
      cases herror

theorem restricts_of_ofQuestion {question : String} {hint : Option Domain} {now : Moment}
    {c : Classification} (hc : ofQuestion question hint now = .ok c) : c.Restricts := by
  obtain ⟨e, timeframe, -, -, rfl⟩ := of_ofQuestion_eq_ok hc
  constructor
  · rw [e.exists_scoreFilter_iff, e.lookup_leadStatus, Option.isSome_map]
  · rw [e.exists_statusFilter_iff, e.lookup_bookingStatus, Option.isSome_map]

theorem hinted_of_ofQuestion {question : String} {h : Domain} {now : Moment} {a b : Classification}
    (ha : ofQuestion question none now = .ok a) (hb : ofQuestion question (some h) now = .ok b) :
    a.Hinted (normalize question) h b := by
  obtain ⟨e, timeframe, he, htimeframe, rfl⟩ := of_ofQuestion_eq_ok ha
  obtain ⟨e', timeframe', he', htimeframe', rfl⟩ := of_ofQuestion_eq_ok hb
  obtain rfl : e = e' := Except.ok.inj (he.symm.trans he')
  obtain rfl : timeframe = timeframe' := Except.ok.inj (htimeframe.symm.trans htimeframe')
  have hnone := Topic.domain_ofText_of_no_hint (normalize question) (Or.inl rfl)
  constructor
  case intent | entities | timeframe | aggregation | language => dsimp only
  case filters => simp only [Entities.filter_filters]
  case known =>
    dsimp only
    intro hknown
    cases hd : Domain.ofText? (normalize question) with
    | none =>
      rw [hd] at hnone
      exact absurd hnone hknown
    | some d =>
      rw [hd] at hnone
      obtain ⟨hdomain, hiff⟩ := Topic.domain_ofText_of_some (h := h) hd
      refine ⟨?_, ?_, hiff⟩
      · simp only [Topic.evidence_ofText, hd, Option.isSome_some, if_true]
      · rw [hnone]
        exact hdomain
  case unknown =>
    dsimp only
    intro hunknown hh
    cases hd : Domain.ofText? (normalize question) with
    | none =>
      have hevidence : (Topic.ofText (normalize question) none).evidence = .nothing := by
        rw [Topic.evidence_ofText, hd]
        rfl
      simp only [Topic.ofText_of_none hd hh, hevidence, true_and]
      exact Evidence.confidence_nothing_lt_hint _ _ e.length_fields_le
    | some d =>
      rw [hd] at hnone
      have hmem := Topic.mem_byPriority.1 (List.mem_of_find?_eq_some hd)
      exact absurd (hnone.symm.trans hunknown) hmem

/-- A hint changes the domain and what follows from it, and nothing else. -/
theorem ofQuestion_hint (question : String) (h : Domain) (now : Moment) :
    ofQuestion question (some .unknown) now = ofQuestion question none now ∧
      ((∃ e, ofQuestion question none now = .error e ∧
          ofQuestion question (some h) now = .error e) ∨
        ∃ a b, ofQuestion question none now = .ok a ∧
          ofQuestion question (some h) now = .ok b ∧
          a.Hinted (normalize question) h b ∧ a.Restricts ∧ b.Restricts) := by
  refine ⟨by simp only [ofQuestion, Topic.ofText_unknown], ?_⟩
  cases ha : ofQuestion question none now with
  | error e => exact Or.inl ⟨e, rfl, ofQuestion_eq_error none (some h) ha⟩
  | ok a =>
    right
    cases hb : ofQuestion question (some h) now with
    | error e =>
      rw [ofQuestion_eq_error (some h) none hb] at ha
      cases ha
    | ok b =>
      exact ⟨a, b, rfl, rfl, hinted_of_ofQuestion ha hb, restricts_of_ofQuestion ha,
        restricts_of_ofQuestion hb⟩

end Classification

end CrmQuery
