import CrmQuery.Interpretation
import CrmQuery.Proofs.Calendar.Clocks
import CrmQuery.Proofs.Question.Compilation

/-!
# Outcomes of interpretations

An interpretation refuses its input, or fails to read the clock or the question, or ends with what
becomes of the query that the builder made (`interpretWith_cases`).  With the builder of this
library it never fails in the builder and never refuses a query (`questions_compile`).  With any
other builder it lets no unsafe query out and tells nothing about it
(`interpretWith_lets_out_safe`).  Now is the instant that the clock shows, in whichever zone it is
told (`Clock.instant_of_now`).
-/

namespace CrmQuery

open Sql

/-- The steps at which an interpretation ends. -/
theorem interpretWith_cases (build : Builder) (settings : Settings) (question tenant : String)
    (hint : Option Domain) (clock : Clock) :
    (checkInput settings question tenant ≠ [] ∧
      interpretWith build settings question tenant hint clock =
        .ok (refuseInput settings question (checkInput settings question tenant))) ∨
    checkInput settings question tenant = [] ∧
      ((∃ e, clock.now settings.timezone = .error e ∧
        interpretWith build settings question tenant hint clock = .error e) ∨
      ∃ now, clock.now settings.timezone = .ok now ∧
        ((∃ e, Classification.ofQuestion question hint now = .error e ∧
          interpretWith build settings question tenant hint clock = .error (.question e)) ∨
        ∃ c, Classification.ofQuestion question hint now = .ok c ∧
          interpretWith build settings question tenant hint clock =
            (accept (build c tenant)).map (conclude settings question c))) := by
  unfold interpretWith
  cases hinput : checkInput settings question tenant with
  | cons fault faults => exact Or.inl ⟨List.cons_ne_nil _ _, rfl⟩
  | nil =>
    refine Or.inr ⟨rfl, ?_⟩
    cases hnow : clock.now settings.timezone with
    | error e => exact Or.inl ⟨e, rfl, rfl⟩
    | ok now =>
      refine Or.inr ⟨now, rfl, ?_⟩
      cases hc : Classification.ofQuestion question hint now with
      | error e =>
        refine Or.inl ⟨e, rfl, ?_⟩
        simp only [bind, Except.bind, hc, Except.mapError]
      | ok c =>
        refine Or.inr ⟨c, rfl, ?_⟩
        simp only [bind, Except.bind, hc, Except.mapError]
        cases accept (build c tenant) <;> rfl

/-- Now is the instant that a clock shows, in whichever zone it is told. -/
theorem Clock.instant_of_now {zones : List (String × Zone)}
    (hzones : ∀ entry ∈ zones, entry.2.IsOrderly) {u : WallTime} {zone : String} {now : Moment}
    (h : (Clock.shows zones u).now zone = .ok now) : now.instant = u.total := by
  unfold Clock.now at h
  cases hz : zoneNamed zones zone with
  | error e => simp [hz] at h
  | ok z =>
    cases hm : Moment.inZone? z u with
    | none => simp [hz, hm] at h
    | some m =>
      obtain rfl : m = now := by simpa [hz, hm] using h
      exact Moment.instant_of_inZone? (hzones _ (mem_of_zoneNamed hz)) hm

theorem Clock.instant_of_now_instant {u : WallTime} {zone : String} {now : Moment}
    (h : (Clock.instant u).now zone = .ok now) : now.instant = u.total :=
  instant_of_now Zone.isOrderly_of_mem_known h

theorem now_ne_build (clock : Clock) (zone : String) (e : BuildFault) :
    clock.now zone ≠ .error (.build e) := by
  unfold Clock.now
  split
  · simp
  · split
    · simp
    · split <;> simp

/-- The query of a question is accepted, or there is none because the domain is unknown. -/
theorem accept_of_ofQuestion {question : String} {hint : Option Domain} {now : Moment}
    {c : Classification} (h : Classification.ofQuestion question hint now = .ok c) (limit : Int)
    (tenant : String) :
    (∃ q, accept (compile limit c tenant) = .ok (.ok q)) ∨
      accept (compile limit c tenant) = .ok (.error .unsupportedDomain) := by
  by_cases hd : c.domain = .unknown
  · right
    rw [compile_unknown hd]
    rfl
  · left
    obtain ⟨e, hentities, hfilters⟩ := exists_entities_of_ofQuestion h
    obtain ⟨q, hq, hsafe, -⟩ := exists_compile_of_entities hentities hfilters hd limit tenant
    refine ⟨q, ?_⟩
    rw [hq, accept, isSafe, hsafe]
    rfl

theorem interpret_outcome (settings : Settings) (question tenant : String) (hint : Option Domain)
    (clock : Clock) :
    (∀ e, interpret settings question tenant hint clock ≠ .error (.build e)) ∧
      ∀ r, interpret settings question tenant hint clock = .ok r →
        r.refusal ≠ some .securityRejected := by
  unfold interpret
  rcases interpretWith_cases (compile settings.resultLimit) settings question tenant hint clock with
    ⟨-, hr⟩ | ⟨-, ⟨e, hnow, hr⟩ | ⟨now, -, ⟨e, -, hr⟩ | ⟨c, hc, hr⟩⟩⟩
  · rw [hr]
    refine ⟨by simp, fun r h => ?_⟩
    cases h
    simp [refuseInput]
  · rw [hr]
    refine ⟨fun e' h => ?_, fun r h => ?_⟩
    · cases h
      exact now_ne_build clock settings.timezone e' hnow
    · cases h
  · rw [hr]
    exact ⟨by simp, fun r h => by cases h⟩
  · rw [hr]
    rcases accept_of_ofQuestion hc settings.resultLimit tenant with ⟨q, hq⟩ | hq
    · rw [hq]
      refine ⟨fun e h => (by cases h), fun r h => ?_⟩
      cases h
      simp [conclude]
    · rw [hq]
      refine ⟨fun e h => (by cases h), fun r h => ?_⟩
      cases h
      simp [conclude]

/-- Every question whose domain is known leads to a safe query for the values that were found in it,
so no interpretation fails in the compiler or is refused for safety. -/
theorem questions_compile :
    (∀ (question : String) (hint : Option Domain) (now : Moment) (c : Classification),
      Classification.ofQuestion question hint now = .ok c → ∀ (limit : Int) (tenant : String),
        (c.domain = .unknown → compile limit c tenant = .error (.unsupportedDomain .unknown)) ∧
        (c.domain ≠ .unknown → ∃ q, compile limit c tenant = .ok q ∧ violations q.sql = [] ∧
          (c.domain ≠ .analytics → q.params = .string tenant ::
            (entityParams c.domain c.entities ++
              c.timeframe.toList.flatMap Timeframe.params)))) ∧
    ∀ (settings : Settings) (question tenant : String) (hint : Option Domain) (clock : Clock),
      (∀ e, interpret settings question tenant hint clock ≠ .error (.build e)) ∧
      ∀ r, interpret settings question tenant hint clock = .ok r →
        r.refusal ≠ some .securityRejected := by
  refine ⟨fun question hint now c h limit tenant => ⟨?_, ?_⟩, interpret_outcome⟩
  · exact fun hd => compile_unknown hd limit tenant
  · intro hd
    obtain ⟨e, hentities, hfilters⟩ := exists_entities_of_ofQuestion h
    exact exists_compile_of_entities hentities hfilters hd limit tenant

/-- The state of leads that a question names becomes the band of scores. -/
theorem questions_compile_hot_leads :
    let now : Moment :=
      ⟨.startOfDay ⟨2024, 6, 15, by decide, by decide, by decide, by decide, by decide, by decide⟩,
        .floating, false⟩
    ∃ c, Classification.ofQuestion "hot leads" none now = .ok c ∧
      ∃ q, compile 50 c "acme" = .ok q ∧ violations q.sql = [] ∧
        q.params = [.string "acme", .int 70, .int 100] := by
  intro now
  have hread : ∃ c, Classification.ofQuestion "hot leads" none now = .ok c ∧ c.domain = .leads ∧
      c.entities = [("leadStatus", .string "hot")] ∧ c.timeframe = none :=
    ⟨_, rfl, rfl, rfl, rfl⟩
  obtain ⟨c, hc, hdomain, hentities, htimeframe⟩ := hread
  obtain ⟨q, hq, hsafe, hparams⟩ :=
    (questions_compile.1 "hot leads" none now c hc 50 "acme").2 (by rw [hdomain]; decide)
  refine ⟨c, hc, q, hq, hsafe, ?_⟩
  rw [hparams (by rw [hdomain]; decide), hdomain, hentities, htimeframe]
  rfl

/-! ### Arbitrary builders -/

section Builders

variable {settings : Settings} {question tenant : String} {hint : Option Domain} {clock : Clock}
  {now : Moment} {c : Classification}

/-- Once the question is understood, all depends on what is accepted of the builder. -/
theorem interpretWith_eq (hinput : checkInput settings question tenant = [])
    (hnow : clock.now settings.timezone = .ok now)
    (hc : Classification.ofQuestion question hint now = .ok c) (build : Builder) :
    interpretWith build settings question tenant hint clock =
      (accept (build c tenant)).map (conclude settings question c) := by
  unfold interpretWith
  rw [hinput, hnow]
  simp only [bind, Except.bind, hc, Except.mapError]
  cases accept (build c tenant) <;> rfl

theorem accept_ok (q : Query) : accept (.ok q) =
    .ok (if violations q.sql = [] then .ok q else .error .securityRejected) := by
  unfold accept isSafe
  simp only [List.isEmpty_iff]

/-- Whatever query a builder makes, it is let out if it is safe.  Otherwise the question is refused,
no text and no suggestion is shown, and the whole interpretation is the one that any other unsafe
query would have led to. -/
theorem interpretWith_lets_out_safe (hinput : checkInput settings question tenant = [])
    (hnow : clock.now settings.timezone = .ok now)
    (hc : Classification.ofQuestion question hint now = .ok c) (build : Builder) {q : Query}
    (hq : build c tenant = .ok q) :
    ∃ r, interpretWith build settings question tenant hint clock = .ok r ∧
      r.query = (if violations q.sql = [] then some q else none) ∧
      (violations q.sql = [] → r.refusal = none) ∧
      (violations q.sql ≠ [] →
        r.refusal.map Refusal.code = some "security_rejected" ∧ r.visibleSql = none ∧
        r.suggestions = [] ∧
        ∀ (build' : Builder) (q' : Query), build' c tenant = .ok q' → violations q'.sql ≠ [] →
          interpretWith build' settings question tenant hint clock = .ok r) := by
  have hrun : ∀ (build' : Builder) (q' : Query), build' c tenant = .ok q' →
      interpretWith build' settings question tenant hint clock =
        .ok (conclude settings question c
          (if violations q'.sql = [] then .ok q' else .error .securityRejected)) := by
    intro build' q' hq'
    rw [interpretWith_eq hinput hnow hc, hq', accept_ok]
    rfl
  refine ⟨_, hrun build q hq, ?_⟩
  by_cases hsafe : violations q.sql = []
  · rw [if_pos hsafe, if_pos hsafe]
    exact ⟨rfl, fun _ => rfl, fun hunsafe => absurd hsafe hunsafe⟩
  · rw [if_neg hsafe, if_neg hsafe]
    have hhidden : (conclude settings question c (.error .securityRejected)).visibleSql = none := by
      unfold Interpretation.visibleSql
      split_ifs <;> rfl
    refine ⟨rfl, fun h => absurd h hsafe, fun _ => ⟨rfl, hhidden, rfl, ?_⟩⟩
    intro build' q' hq' hunsafe
    rw [hrun build' q' hq', if_neg hunsafe]

end Builders

/-- Two unsafe queries for a question that is understood well enough to be shown its query. -/
theorem interpretWith_lets_out_safe_drop :
    let now : Moment :=
      ⟨.startOfDay ⟨2024, 6, 15, by decide, by decide, by decide, by decide, by decide, by decide⟩,
        .floating, false⟩
    let query (sql : String) (h : parameterNumbers sql = .ok [1]) : Query :=
      ⟨sql, [.string "acme"], [], .table, [], h⟩
    let drop := query "SELECT $1; DROP TABLE contacts" rfl
    let comment := query "SELECT $1 -- all" rfl
    ∃ r, interpretWith (fun _ _ => .ok drop) .default "How many hot leads from Germany?" "acme" none
        (.given now) = .ok r ∧
      r.query = none ∧ r.refusal.map Refusal.code = some "security_rejected" ∧
      r.visibleSql = none ∧ r.suggestions = [] ∧
      interpretWith (fun _ _ => .ok comment) .default "How many hot leads from Germany?" "acme" none
        (.given now) = .ok r := by
  intro now query drop comment
  have hread : ∃ c, Classification.ofQuestion "How many hot leads from Germany?" none now = .ok c :=
    ⟨_, rfl⟩
  obtain ⟨c, hc⟩ := hread
  have hdrop : violations drop.sql ≠ [] := by decide +kernel
  have hcomment : violations comment.sql ≠ [] := by decide +kernel
  have hinput : checkInput .default "How many hot leads from Germany?" "acme" = [] := by
    decide +kernel
  have hnow : (Clock.given now).now Settings.default.timezone = .ok now := rfl
  obtain ⟨r, hr, hquery, -, hrejected⟩ :=
    interpretWith_lets_out_safe hinput hnow hc (fun _ _ => .ok drop) (q := drop) rfl
  obtain ⟨hcode, hsql, hsuggestions, hsame⟩ := hrejected hdrop
  rw [if_neg hdrop] at hquery
  exact ⟨r, hr, hquery, hcode, hsql, hsuggestions, hsame _ comment rfl hcomment⟩

end CrmQuery
