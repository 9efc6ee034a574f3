import CrmQuery.Proofs.Interpretation

/-!
# Coherent interpretations

An interpretation is one of three: the input was refused, the domain is unknown, or there is the
query of the classification (`interpret_eq_ok_cases`).  In each case all its parts agree with one
another, under any settings (`interpret_coherent`).
-/

namespace CrmQuery

open Sql

/-! ### Messages -/

theorem renderParts_text_cons {values : List (String × Json)} {s t : String}
    {parts : List MessagePart} (h : renderParts values (.text s :: parts) = .ok t) :
    ∃ rest, t = s ++ rest := by
  unfold renderParts at h
  cases hparts : parts.mapM (MessagePart.render values) with
  | error e =>
    rw [List.mapM_cons, hparts] at h
    cases h
  | ok ts =>
    rw [List.mapM_cons, hparts] at h
    refine ⟨String.join ts, ?_⟩
    rw [← Except.ok.inj h, ← String.join_cons]

/-- Every message says something, whatever the values are that are put into it. -/
theorem Occasion.message_ne_empty (o : Occasion) (language : Language)
    (values : List (String × Json)) : o.message language values ≠ "" := by
  have hgeneral : generalMessage language ≠ "" := by cases language <;> decide
  obtain ⟨s, parts, hparts, hs⟩ :
      ∃ s parts, messageParts o language = .text s :: parts ∧ s ≠ "" := by
    cases o <;> cases language <;> exact ⟨_, _, rfl, by decide⟩
  cases h : renderParts values (messageParts o language) with
  | ok t =>
    obtain ⟨rest, rfl⟩ := renderParts_text_cons (hparts ▸ h)
    have hmessage : o.message language values = s ++ rest := by
      simp only [message, explain, h, Except.toOption, Option.getD_some]
    rw [hmessage]
    intro hnil
    exact hs (String.append_eq_empty_iff.1 hnil).1
  | error e =>
    -- Whatever keeps the message from being put together, the general one takes its place.
    have hmessage : o.message language values = generalMessage language := by
      unfold message explain
      cases e <;> simp only [h, Except.toOption, Option.getD_some, Option.getD_none]
    rw [hmessage]
    exact hgeneral

/-! ### Input -/

/-- The question is too short or too long, or there is no tenant. -/
def InvalidInput (settings : Settings) (question tenant : String) : Prop :=
  let length : Int := (Text.strip question.toList).length
  length < settings.minQueryLength ∨ settings.maxQueryLength < length ∨
    Text.strip tenant.toList = []

theorem checkInput_ne_nil_iff (settings : Settings) (question tenant : String) :
    checkInput settings question tenant ≠ [] ↔ InvalidInput settings question tenant := by
  unfold checkInput InvalidInput
  simp only [ne_eq, List.append_eq_nil_iff, ite_eq_right_iff, imp_false,
    List.isEmpty_iff, List.cons_ne_nil]
  tauto

/-! ### The three outcomes -/

section Outcome

variable {settings : Settings} {question tenant : String} {hint : Option Domain} {clock : Clock}
  {r : Interpretation}

/-- The input is refused, or the question is understood and either belongs to no domain or leads to
the query of its classification. -/
theorem interpret_eq_ok_cases (h : interpret settings question tenant hint clock = .ok r) :
    (InvalidInput settings question tenant ∧
      r = refuseInput settings question (checkInput settings question tenant)) ∨
    ¬ InvalidInput settings question tenant ∧ ∃ now c,
      clock.now settings.timezone = .ok now ∧
      Classification.ofQuestion question hint now = .ok c ∧
      ((c.domain = .unknown ∧
          r = conclude settings question c (.error .unsupportedDomain)) ∨
        c.domain ≠ .unknown ∧ ∃ q, compile settings.resultLimit c tenant = .ok q ∧
          r = conclude settings question c (.ok q)) := by
  rw [← checkInput_ne_nil_iff]
  unfold interpret at h
  rcases interpretWith_cases (compile settings.resultLimit) settings question tenant hint clock with
    ⟨hinput, hr⟩ | ⟨hinput, ⟨e, -, hr⟩ | ⟨now, hnow, ⟨e, -, hr⟩ | ⟨c, hc, hr⟩⟩⟩
  · rw [hr] at h
    exact Or.inl ⟨hinput, (Except.ok.inj h).symm⟩
  · rw [hr] at h
    cases h
  · rw [hr] at h
    cases h
  · refine Or.inr ⟨not_not.2 hinput, now, c, hnow, hc, ?_⟩
    rw [hr] at h
    by_cases hd : c.domain = .unknown
    · left
      rw [compile_unknown hd] at h
      exact ⟨hd, (Except.ok.inj h).symm⟩
    · right
      obtain ⟨e, hentities, hfilters⟩ := exists_entities_of_ofQuestion hc
      obtain ⟨q, hq, hsafe, -⟩ :=
        exists_compile_of_entities hentities hfilters hd settings.resultLimit tenant
      rw [hq, accept_ok, if_pos hsafe] at h
      exact ⟨hd, q, hq, (Except.ok.inj h).symm⟩

/-- A question that is let in and understood has an interpretation. -/
theorem exists_interpret_eq_ok {now : Moment} {c : Classification}
    (hinput : checkInput settings question tenant = [])
    (hnow : clock.now settings.timezone = .ok now)
    (hc : Classification.ofQuestion question hint now = .ok c) :
    ∃ r, interpret settings question tenant hint clock = .ok r := by
  unfold interpret
  rw [interpretWith_eq hinput hnow hc]
  rcases accept_of_ofQuestion hc settings.resultLimit tenant with ⟨q, hq⟩ | hq
  · exact ⟨_, by rw [hq]; rfl⟩
  · exact ⟨_, by rw [hq]; rfl⟩

end Outcome

/-! ### Coherence -/

namespace Interpretation

/-- Nothing is said about the question but that the input is refused. -/
structure RefusesInput (settings : Settings) (r : Interpretation) : Prop where
  classification : r.classification = none
  query : r.query = none
  inputFaults : r.inputFaults ≠ []
  warnings : r.warnings = []
  suggestions : r.suggestions = []
  sqlExposed : r.sqlExposed = false
  explanation : r.explanation = Occasion.inputInvalid.message .de [
    ("min_len", .int settings.minQueryLength), ("max_len", .int settings.maxQueryLength)]

/-- The question is understood as `c` says: it has no domain, or there is the query of `c`. -/
structure Answers (settings : Settings) (tenant : String) (c : Classification)
    (r : Interpretation) : Prop where
  classification : r.classification = some c
  inputFaults : r.inputFaults = []
  unsupported_iff : r.refusal.map Refusal.code = some "unsupported_domain" ↔ c.domain = .unknown
  query_of_unknown : c.domain = .unknown → r.query = none
  refusal_of_known : c.domain ≠ .unknown → r.refusal = none
  query_of_known : c.domain ≠ .unknown →
    ∃ q, compile settings.resultLimit c tenant = .ok q ∧ r.query = some q
  warned : c.confidence < settings.lowConfidenceThreshold → r.warnings.length = 1
  unwarned : ¬ c.confidence < settings.lowConfidenceThreshold → r.warnings = []
  /-- A refusal is explained in the language of the question; otherwise the explanation repeats the
  warning, if there is any. -/
  explanation : r.explanation = match r.refusal with
    | some e => e.occasion.message c.language []
    | none => r.warnings.headD ""

/-- The parts of an interpretation agree on whether it succeeded and on what may be shown. -/
structure Agrees (settings : Settings) (r : Interpretation) : Prop where
  query_iff : r.success = true ↔ r.query ≠ none
  refusal_iff : r.success = true ↔ r.refusal = none
  suggestions_iff : r.success = true ↔ r.suggestions ≠ []
  visible_iff : r.visibleSql ≠ none ↔ r.success = true ∧
    ∃ c, r.classification = some c ∧ settings.sqlExposureConfidence < c.confidence
  visible_eq : ∀ sql, r.visibleSql = some sql → ∃ q, r.query = some q ∧ sql = q.sql
  silent_iff : r.explanation = "" ↔ r.refusal = none ∧ r.warnings = []

end Interpretation

theorem followUps_ne_nil {c : Classification} (h : c.domain ≠ .unknown) : followUps c ≠ [] := by
  unfold followUps
  cases hd : c.domain with
  | unknown => exact absurd hd h
  | _ => cases c.language <;> simp

section Coherence

variable {settings : Settings} {question tenant : String} {c : Classification}

theorem warnings_conclude (outcome : Except Refusal Query) :
    (conclude settings question c outcome).warnings =
      (lowConfidenceWarning? settings c).toList := by
  cases outcome <;> rfl

theorem length_warnings_conclude (settings : Settings) (question : String) (c : Classification)
    (outcome : Except Refusal Query) :
    (c.confidence < settings.lowConfidenceThreshold →
      (conclude settings question c outcome).warnings.length = 1) ∧
    (¬ c.confidence < settings.lowConfidenceThreshold →
      (conclude settings question c outcome).warnings = []) := by
  rw [warnings_conclude, lowConfidenceWarning?]
  exact ⟨fun h => by rw [if_pos h]; rfl, fun h => by rw [if_neg h]; rfl⟩

theorem answers_conclude_error (hd : c.domain = .unknown) :
    (conclude settings question c (.error .unsupportedDomain)).Answers settings tenant c := by
  obtain ⟨hwarned, hunwarned⟩ :=
    length_warnings_conclude settings question c (.error .unsupportedDomain)
  exact {
    classification := rfl
    inputFaults := rfl
    unsupported_iff := ⟨fun _ => hd, fun _ => rfl⟩
    query_of_unknown := fun _ => rfl
    refusal_of_known := fun hne => absurd hd hne
    query_of_known := fun hne => absurd hd hne
    warned := hwarned
    unwarned := hunwarned
    explanation := rfl }

theorem answers_conclude_ok {q : Query} (hd : c.domain ≠ .unknown)
    (hq : compile settings.resultLimit c tenant = .ok q) :
    (conclude settings question c (.ok q)).Answers settings tenant c := by
  obtain ⟨hwarned, hunwarned⟩ :=
    length_warnings_conclude settings question c (.ok q)
  refine {
    classification := rfl
    inputFaults := rfl
    unsupported_iff := ⟨fun h => (nomatch h), fun h => absurd h hd⟩
    query_of_unknown := fun h => absurd h hd
    refusal_of_known := fun _ => rfl
    query_of_known := fun _ => ⟨q, hq, rfl⟩
    warned := hwarned
    unwarned := hunwarned
    explanation := ?_ }
  show (lowConfidenceWarning? settings c).getD "" =
    (lowConfidenceWarning? settings c).toList.headD ""
  cases lowConfidenceWarning? settings c <;> rfl

theorem agrees_refuseInput (faults : List InputFault) :
    (refuseInput settings question faults).Agrees settings where
  query_iff := by simp [refuseInput, Interpretation.success]
  refusal_iff := by simp [refuseInput, Interpretation.success]
  suggestions_iff := by simp [refuseInput, Interpretation.success]
  visible_iff := by simp [refuseInput, Interpretation.success, Interpretation.visibleSql]
  visible_eq := by simp [refuseInput, Interpretation.visibleSql]
  silent_iff := by simp [refuseInput, Occasion.message_ne_empty]

theorem agrees_conclude_error (e : Refusal) :
    (conclude settings question c (.error e)).Agrees settings where
  query_iff := by simp [conclude, Interpretation.success]
  refusal_iff := by simp [conclude, Interpretation.success]
  suggestions_iff := by simp [conclude, Interpretation.success]
  visible_iff := by simp [conclude, Interpretation.success, Interpretation.visibleSql]
  visible_eq := by simp [conclude, Interpretation.visibleSql]
  silent_iff := by simp [conclude, Occasion.message_ne_empty]

theorem silent_conclude_ok (q : Query) :
    (conclude settings question c (.ok q)).explanation = "" ↔
      (conclude settings question c (.ok q)).warnings = [] := by
  show (lowConfidenceWarning? settings c).getD "" = "" ↔
    (lowConfidenceWarning? settings c).toList = []
  unfold lowConfidenceWarning?
  by_cases h : c.confidence < settings.lowConfidenceThreshold
  · simp [h, Occasion.message_ne_empty]
  · simp [h]

theorem agrees_conclude_ok {q : Query} (hd : c.domain ≠ .unknown) :
    (conclude settings question c (.ok q)).Agrees settings where
  query_iff := by simp [conclude, Interpretation.success]
  refusal_iff := by simp [conclude, Interpretation.success]
  suggestions_iff := by simp [conclude, Interpretation.success, followUps_ne_nil hd]
  visible_iff := by simp [conclude, Interpretation.success, Interpretation.visibleSql]
  visible_eq := by
    intro sql h
    refine ⟨q, rfl, ?_⟩
    unfold Interpretation.visibleSql at h
    split_ifs at h
    exact (Option.some.inj h).symm
  silent_iff := by
    rw [silent_conclude_ok]
    exact ⟨fun h => ⟨rfl, h⟩, fun h => h.2⟩

theorem refusesInput_refuseInput (h : InvalidInput settings question tenant) :
    (refuseInput settings question (checkInput settings question tenant)).RefusesInput
      settings where
  classification := rfl
  query := rfl
  inputFaults := (checkInput_ne_nil_iff settings question tenant).2 h
  warnings := rfl
  suggestions := rfl
  sqlExposed := rfl
  explanation := rfl

/-- Every interpretation is coherent: the input is refused exactly if it is invalid; otherwise the
question is answered as its classification tells; and in any case its parts agree. -/
theorem interpret_coherent {hint : Option Domain} {clock : Clock} {r : Interpretation}
    (h : interpret settings question tenant hint clock = .ok r) :
    (r.refusal.map Refusal.code = some "input_invalid" ↔ InvalidInput settings question tenant) ∧
    (InvalidInput settings question tenant → r.RefusesInput settings) ∧
    (¬ InvalidInput settings question tenant → ∃ now c,
      clock.now settings.timezone = .ok now ∧
      Classification.ofQuestion question hint now = .ok c ∧ r.Answers settings tenant c) ∧
    r.question = question ∧ r.Agrees settings := by
  rcases interpret_eq_ok_cases h with ⟨hinvalid, rfl⟩ | ⟨hvalid, now, c, hnow, hc, houtcome⟩
  · exact ⟨⟨fun _ => hinvalid, fun _ => rfl⟩, fun _ => refusesInput_refuseInput hinvalid,
      fun hvalid => absurd hinvalid hvalid, rfl, agrees_refuseInput _⟩
  · rcases houtcome with ⟨hd, rfl⟩ | ⟨hd, q, hq, rfl⟩
    · have hcode : (conclude settings question c (.error .unsupportedDomain)).refusal.map
          Refusal.code ≠ some "input_invalid" := by
        show some "unsupported_domain" ≠ some "input_invalid"
        decide
      exact ⟨⟨fun hcode' => absurd hcode' hcode, fun hinvalid => absurd hinvalid hvalid⟩,
        fun hinvalid => absurd hinvalid hvalid,
        fun _ => ⟨now, c, hnow, hc, answers_conclude_error hd⟩, rfl, agrees_conclude_error _⟩
    · exact ⟨⟨fun hcode => (nomatch hcode), fun hinvalid => absurd hinvalid hvalid⟩,
        fun hinvalid => absurd hinvalid hvalid,
        fun _ => ⟨now, c, hnow, hc, answers_conclude_ok hd hq⟩, rfl, agrees_conclude_ok hd⟩

end Coherence

/-- A question about hot leads is understood well enough that nothing is said about it, and not well
enough that its query is shown. -/
theorem interpret_coherent_hot_leads :
    let now : Moment :=
      ⟨.startOfDay ⟨2024, 6, 15, by decide, by decide, by decide, by decide, by decide, by decide⟩,
        .floating, false⟩
    ∃ r, interpret .default "hot leads" "acme" none (.given now) = .ok r ∧ r.success = true ∧
      r.visibleSql = none ∧ r.suggestions ≠ [] ∧ r.explanation = "" := by
  intro now
  have hread : ∃ c, Classification.ofQuestion "hot leads" none now = .ok c ∧ c.domain = .leads :=
    ⟨_, rfl, rfl⟩
  obtain ⟨c, hc, hdomain⟩ := hread
  have hconfidence : ¬ c.confidence < Settings.default.lowConfidenceThreshold ∧
      ¬ Settings.default.sqlExposureConfidence < c.confidence := by
    cases hc
    decide +kernel
  have hinput : checkInput .default "hot leads" "acme" = [] := by decide +kernel
  have hnow : (Clock.given now).now Settings.default.timezone = .ok now := rfl
  obtain ⟨r, hr⟩ := exists_interpret_eq_ok hinput hnow hc
  obtain ⟨-, -, hanswers, -, hagrees⟩ := interpret_coherent hr
  obtain ⟨now', c', hnow', hc', hanswers⟩ :=
    hanswers fun hinvalid => (checkInput_ne_nil_iff ..).2 hinvalid hinput
  cases hnow'
  cases hc.symm.trans hc'
  have hrefusal := hanswers.refusal_of_known (by rw [hdomain]; decide)
  have hsuccess := hagrees.refusal_iff.2 hrefusal
  have hvisible : r.visibleSql = none := by
    by_contra hne
    obtain ⟨-, c', hc', hexposed⟩ := hagrees.visible_iff.1 hne
    cases hanswers.classification.symm.trans hc'
    exact hconfidence.2 hexposed
  exact ⟨r, hr, hsuccess, hvisible, hagrees.suggestions_iff.1 hsuccess,
    hagrees.silent_iff.2 ⟨hrefusal, hanswers.unwarned hconfidence.1⟩⟩

end CrmQuery
