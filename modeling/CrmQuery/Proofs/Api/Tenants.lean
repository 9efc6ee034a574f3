import CrmQuery.Api.Route
import CrmQuery.Proofs.Interpretation.Coherence
import CrmQuery.Proofs.Sql.Noninterference

/-!
# Responses do not depend on the tenant

The tenant of a request is the value that its query binds first, and nothing else of a response
depends on it (`respond_hides_tenant`).  So a response in which the first value is left out
(`Response.hideFirstParam`) is the same for all tenants, and if the query is not shown, the whole
response is.  The text of a query and its values are shown together or not at all.
-/

namespace CrmQuery

open Sql

/-! ### Queries -/

namespace Sql

/-- The values that a query binds after the tenant are those of the classification. -/
theorem exists_params_eq (c : Classification) :
    ∃ rest, ∀ (limit : Int) (tenant : String) (q : Query),
      compile limit c tenant = .ok q → q.params = .string tenant :: rest := by
  by_cases hd : c.domain = .analytics
  · refine ⟨[], fun limit tenant q hq => ?_⟩
    rw [params_of_compile hq, if_pos hd]
  · refine ⟨c.filters.flatMap Filter.params ++ c.timeframe.toList.flatMap Timeframe.params,
      fun limit tenant q hq => ?_⟩
    rw [params_of_compile hq, if_neg hd]
    rfl

/-- Two queries that bind two tenants and are the same otherwise. -/
def DifferInTenant (q q' : Query) : Prop :=
  q.visible = q'.visible ∧ ∃ tenant tenant' rest,
    q.params = .string tenant :: rest ∧ q'.params = .string tenant' :: rest

end Sql

section Interpretations

variable {tenant tenant' : String}

/-- What is accepted for two tenants is the same, but for the tenant that is bound. -/
theorem accept_compile_tenants (limit : Int) (c : Classification) (tenant tenant' : String) :
    accept (compile limit c tenant) = accept (compile limit c tenant') ∨
    ∃ q q', accept (compile limit c tenant) = .ok (.ok q) ∧
      accept (compile limit c tenant') = .ok (.ok q') ∧ DifferInTenant q q' := by
  have halike : c.Alike c := ⟨rfl, rfl, fun _ => rfl, fun _ => rfl⟩
  rcases SameOutcome.of_map_eq (compile_visible_eq halike (fun _ => rfl) tenant tenant') with
    ⟨e, hq, hq'⟩ | ⟨q, q', hq, hq', hvisible⟩
  · rw [hq, hq']
    exact Or.inl rfl
  · obtain ⟨rest, hrest⟩ := exists_params_eq c
    have hsql : q.sql = q'.sql := congrArg Prod.fst hvisible
    have hdiffer : DifferInTenant q q' :=
      ⟨hvisible, tenant, tenant', rest, hrest limit tenant q hq, hrest limit tenant' q' hq'⟩
    rw [hq, hq', accept_ok, accept_ok, ← hsql]
    by_cases hsafe : violations q.sql = []
    · rw [if_pos hsafe, if_pos hsafe]
      exact Or.inr ⟨q, q', rfl, rfl, hdiffer⟩
    · rw [if_neg hsafe, if_neg hsafe]
      exact Or.inl rfl

theorem checkInput_tenants (htenant : Text.strip tenant.toList ≠ [])
    (htenant' : Text.strip tenant'.toList ≠ []) (settings : Settings) (question : String) :
    checkInput settings question tenant = checkInput settings question tenant' := by
  simp only [checkInput, List.isEmpty_iff, if_neg htenant, if_neg htenant']

/-- A question is interpreted in the same way for two tenants, but for the tenant that is bound. -/
theorem interpret_tenants (htenant : Text.strip tenant.toList ≠ [])
    (htenant' : Text.strip tenant'.toList ≠ []) (settings : Settings) (question : String)
    (hint : Option Domain) (clock : Clock) :
    interpret settings question tenant hint clock =
      interpret settings question tenant' hint clock ∨
    ∃ c q q', interpret settings question tenant hint clock =
        .ok (conclude settings question c (.ok q)) ∧
      interpret settings question tenant' hint clock =
        .ok (conclude settings question c (.ok q')) ∧ DifferInTenant q q' := by
  have hcheck := checkInput_tenants htenant htenant' settings question
  unfold interpret
  cases hinput : checkInput settings question tenant' with
  | cons fault faults =>
    left
    unfold interpretWith
    rw [hcheck, hinput]
  | nil =>
    cases hnow : clock.now settings.timezone with
    | error e =>
      left
      unfold interpretWith
      rw [hcheck, hinput, hnow]
      rfl
    | ok now =>
      cases hc : Classification.ofQuestion question hint now with
      | error e =>
        left
        unfold interpretWith
        rw [hcheck, hinput, hnow]
        simp only [bind, Except.bind, hc, Except.mapError]
      | ok c =>
        rw [interpretWith_eq (hcheck.trans hinput) hnow hc, interpretWith_eq hinput hnow hc]
        rcases accept_compile_tenants settings.resultLimit c tenant tenant' with
          hsame | ⟨q, q', hq, hq', hdiffer⟩
        · rw [hsame]
          exact Or.inl rfl
        · rw [hq, hq']
          exact Or.inr ⟨c, q, q', rfl, rfl, hdiffer⟩

end Interpretations

/-! ### Bodies -/

/-- An object with a field changed. -/
def Json.mapField (key : String) (f : Json → Json) : Json → Json
  | .object fields => .object (fields.map fun p => if p.1 = key then (p.1, f p.2) else p)
  | v => v

/-- An array without its first item, in whose place there is `null`. -/
def Json.hideFirst : Json → Json
  | .array (_ :: rest) => .array (.null :: rest)
  | v => v

namespace Api

open Checked

/-- A response without the value that the query binds first. -/
def Response.hideFirstParam (a : Response) : Response :=
  ⟨a.status, a.body.mapField "built_query" (Json.mapField "params" Json.hideFirst)⟩

theorem visibleSql_conclude (settings : Settings) (question : String) (c : Classification)
    (q : Query) : (conclude settings question c (.ok q)).visibleSql =
      if settings.sqlExposureConfidence < c.confidence then some q.sql else none := by
  simp [Interpretation.visibleSql, conclude]

section Bodies

variable {q q' : Query} (h : DifferInTenant q q') (settings : Settings) (question : String)
  (c : Classification)
include h

theorem visibleSql_conclude_eq : (conclude settings question c (.ok q)).visibleSql =
    (conclude settings question c (.ok q')).visibleSql := by
  have hsql : q.sql = q'.sql := congrArg Prod.fst h.1
  rw [visibleSql_conclude, visibleSql_conclude, hsql]

theorem queryJson_hideFirst :
    (queryJson (conclude settings question c (.ok q)) q).mapField "params" Json.hideFirst =
      (queryJson (conclude settings question c (.ok q')) q').mapField "params" Json.hideFirst := by
  have htext := visibleSql_conclude_eq h settings question c
  have hexposed : (conclude settings question c (.ok q)).sqlExposed =
      (conclude settings question c (.ok q')).sqlExposed := rfl
  obtain ⟨hvisible, tenant, tenant', rest, hparams, hparams'⟩ := h
  simp only [Query.visible, Prod.mk.injEq] at hvisible
  obtain ⟨-, htables, hvisualization, hcolumns⟩ := hvisible
  unfold queryJson
  rw [htext, hexposed, htables, hvisualization, hcolumns, hparams, hparams']
  cases (conclude settings question c (.ok q')).sqlExposed <;> rfl

theorem queryJson_hidden (hhidden : ¬ settings.sqlExposureConfidence < c.confidence) :
    queryJson (conclude settings question c (.ok q)) q =
      queryJson (conclude settings question c (.ok q')) q' := by
  have htext := visibleSql_conclude_eq h settings question c
  have hexposed : ∀ q'', (conclude settings question c (.ok q'')).sqlExposed = false :=
    fun _ => decide_eq_false hhidden
  have hvisible := h.1
  simp only [Query.visible, Prod.mk.injEq] at hvisible
  obtain ⟨-, htables, hvisualization, hcolumns⟩ := hvisible
  unfold queryJson
  rw [htext, hexposed, hexposed, htables, hvisualization, hcolumns]
  rfl

theorem interpretationJson_hideFirst (status : Nat) :
    (Response.mk status
      (interpretationJson (conclude settings question c (.ok q)))).hideFirstParam =
    (Response.mk status
      (interpretationJson (conclude settings question c (.ok q')))).hideFirstParam := by
  have hquery := queryJson_hideFirst h settings question c
  have hbody : ∀ q'' : Query,
      (interpretationJson (conclude settings question c (.ok q''))).mapField "built_query"
        (Json.mapField "params" Json.hideFirst) =
      (interpretationJson (conclude settings question c (.ok q))).mapField "built_query" fun _ =>
        (queryJson (conclude settings question c (.ok q'')) q'').mapField "params"
          Json.hideFirst := fun _ => rfl
  unfold Response.hideFirstParam
  rw [hbody q, hbody q', hquery]

theorem interpretationJson_hidden (hhidden : ¬ settings.sqlExposureConfidence < c.confidence) :
    interpretationJson (conclude settings question c (.ok q)) =
      interpretationJson (conclude settings question c (.ok q')) := by
  have hquery := queryJson_hidden h settings question c hhidden
  have hbody : ∀ q'' : Query,
      interpretationJson (conclude settings question c (.ok q'')) =
      (interpretationJson (conclude settings question c (.ok q))).mapField "built_query" fun _ =>
        queryJson (conclude settings question c (.ok q'')) q'' := fun _ => rfl
  rw [hbody q, hbody q', hquery]

end Bodies

/-! ### Requests -/

/-- Two requests that differ in nothing that is read but the tenant, and neither tenant is blank. -/
structure OnlyTenants (r r' : Request) (tenant tenant' : String) : Prop where
  method : r.method = r'.method
  path : r.path = r'.path
  body : r.body = r'.body
  header : r.header? tenantHeader = some tenant
  header' : r'.header? tenantHeader = some tenant'
  nonblank : Text.strip tenant.toList ≠ []
  nonblank' : Text.strip tenant'.toList ≠ []

/-- A body holds a well-formed question. -/
def Posts (b : Body) (p : Posted) : Prop :=
  ∃ value, bodyValue b = .ok (.ok value) ∧ postedOf value = .ok p

theorem Posts.unique {b : Body} {p p' : Posted} (h : Posts b p) (h' : Posts b p') : p = p' := by
  obtain ⟨value, hvalue, hp⟩ := h
  obtain ⟨value', hvalue', hp'⟩ := h'
  cases hvalue.symm.trans hvalue'
  exact Except.ok.inj (hp.symm.trans hp')

theorem tenantOf_eq_ok {r : Request} {tenant : String}
    (h : r.header? tenantHeader = some tenant) (htenant : Text.strip tenant.toList ≠ []) :
    tenantOf r = .ok tenant := by
  have hpos : ¬ tenant.length < 1 := by
    intro hlt
    have hnil : tenant.toList = [] := by
      rw [← List.length_eq_zero_iff, String.length_toList]
      omega
    rw [hnil] at htenant
    exact htenant rfl
  unfold tenantOf
  rw [h]
  simp only [Lenient.boundedString, Lenient.string, bind, Except.bind, if_neg hpos,
    if_neg (Nat.lt_irrefl _)]
  rfl

/-- A well-formed question of a tenant is answered. -/
theorem postQuery_eq_answer {r : Request} {tenant : String} {p : Posted}
    (htenant : tenantOf r = .ok tenant) (hposts : Posts r.body p) (settings : Checked Settings)
    (clock : Clock) : postQuery settings clock r = answer settings clock tenant p := by
  obtain ⟨value, hvalue, hposted⟩ := hposts
  unfold postQuery
  rw [hvalue, htenant]
  simp only [hposted]
  rfl

/-- Questions are posted. -/
theorem respond_query {r : Request} (settings : Checked Settings) (clock : Clock)
    (h : Endpoint.ofPath? r.path = some .query) :
    respond settings clock r =
      if r.method.toUpper = "POST" then postQuery settings clock r
      else .note 405 "Method Not Allowed" := by
  unfold respond
  rw [h]
  by_cases hmethod : r.method.toUpper = "POST"
  · rw [if_pos hmethod]
    exact if_neg (not_not.2 hmethod.symm)
  · rw [if_neg hmethod]
    exact if_pos (Ne.symm hmethod)

theorem respond_eq_answer {r : Request} {tenant : String} {p : Posted}
    (hpath : Endpoint.ofPath? r.path = some .query) (hmethod : r.method.toUpper = "POST")
    (htenant : tenantOf r = .ok tenant) (hposts : Posts r.body p) (settings : Checked Settings)
    (clock : Clock) : respond settings clock r = answer settings clock tenant p := by
  rw [respond_query settings clock hpath, if_pos hmethod]
  exact postQuery_eq_answer htenant hposts settings clock

section Tenants

variable {r r' : Request} {tenant tenant' : String} (h : OnlyTenants r r' tenant tenant')
  (settings : Checked Settings) (clock : Clock)
include h

theorem postQuery_cases :
    postQuery settings clock r = postQuery settings clock r' ∨
    ∃ p, Posts r.body p ∧ postQuery settings clock r = answer settings clock tenant p ∧
      postQuery settings clock r' = answer settings clock tenant' p := by
  have htenant := tenantOf_eq_ok h.header h.nonblank
  have htenant' := tenantOf_eq_ok h.header' h.nonblank'
  by_cases hposts : ∃ p, Posts r.body p
  · obtain ⟨p, hp⟩ := hposts
    exact Or.inr ⟨p, hp, postQuery_eq_answer htenant hp settings clock,
      postQuery_eq_answer htenant' (h.body ▸ hp) settings clock⟩
  · left
    unfold postQuery
    rw [htenant, htenant', ← h.body]
    cases hvalue : bodyValue r.body with
    | error response => rfl
    | ok value =>
      cases value with
      | error faults => rfl
      | ok value =>
        cases hposted : postedOf value with
        | error faults =>
          simp only [hposted]
          rfl
        | ok p => exact absurd ⟨p, value, hvalue, hposted⟩ hposts

theorem respond_cases :
    respond settings clock r = respond settings clock r' ∨
    ∃ p, Posts r.body p ∧ respond settings clock r = answer settings clock tenant p ∧
      respond settings clock r' = answer settings clock tenant' p := by
  by_cases hpath : Endpoint.ofPath? r.path = some .query
  · rw [respond_query settings clock hpath, respond_query settings clock (h.path ▸ hpath),
      ← h.method]
    by_cases hmethod : r.method.toUpper = "POST"
    · rw [if_pos hmethod, if_pos hmethod]
      exact postQuery_cases h settings clock
    · rw [if_neg hmethod, if_neg hmethod]
      exact Or.inl rfl
  · left
    unfold respond
    rw [← h.path, ← h.method]
    cases he : Endpoint.ofPath? r.path with
    | none => rfl
    | some e =>
      cases e with
      | health => rfl
      | capabilities => rfl
      | query => exact absurd he hpath

end Tenants

/-! ### Answers -/

theorem answer_ok (settings : Settings) (clock : Clock) (tenant : String) (p : Posted) :
    answer (.ok settings) clock tenant p =
      match interpret settings p.question tenant p.context clock with
      | .ok r => ⟨200, interpretationJson r⟩
      | .error _ => .note 500 "Failed to process query" :=
  rfl

section Answers

variable {tenant tenant' : String} (htenant : Text.strip tenant.toList ≠ [])
  (htenant' : Text.strip tenant'.toList ≠ []) (p : Posted) (clock : Clock)
include htenant htenant'

theorem answer_hideFirstParam (settings : Checked Settings) :
    (answer settings clock tenant p).hideFirstParam =
      (answer settings clock tenant' p).hideFirstParam := by
  cases settings with
  | error faults => rfl
  | ok settings =>
    rw [answer_ok, answer_ok]
    rcases interpret_tenants htenant htenant' settings p.question p.context clock with
      hsame | ⟨c, q, q', hr, hr', hdiffer⟩
    · rw [hsame]
    · simp only [hr, hr']
      exact interpretationJson_hideFirst hdiffer settings p.question c 200

theorem answer_eq_of_hidden {settings : Settings}
    (hhidden : ∀ i c, interpret settings p.question tenant p.context clock = .ok i →
      i.classification = some c → ¬ settings.sqlExposureConfidence < c.confidence) :
    answer (.ok settings) clock tenant p = answer (.ok settings) clock tenant' p := by
  rw [answer_ok, answer_ok]
  rcases interpret_tenants htenant htenant' settings p.question p.context clock with
    hsame | ⟨c, q, q', hr, hr', hdiffer⟩
  · rw [hsame]
  · simp only [hr, hr']
    rw [interpretationJson_hidden hdiffer settings p.question c (hhidden _ c hr rfl)]

end Answers

/-- A body has a query exactly if it tells of success, and then it has both the text of the query
and its values, or neither. -/
def ShowsAllOrNothing (body : Json) : Prop :=
  ∃ built success, body.field? "built_query" = some built ∧
    body.field? "success" = some (.bool success) ∧ (built ≠ .null ↔ success = true) ∧
    (built ≠ .null → ∃ sql params, built.field? "sql" = some sql ∧
      built.field? "params" = some (.array params) ∧ (sql = .null ↔ params = []))

theorem showsAllOrNothing_of_query_eq_none {i : Interpretation} (h : i.query = none) :
    ShowsAllOrNothing (interpretationJson i) := by
  have hsuccess : i.success = false := by
    unfold Interpretation.success
    rw [h]
    rfl
  have hbuilt : (interpretationJson i).field? "built_query" = some .null := by
    unfold interpretationJson
    rw [h]
    rfl
  refine ⟨.null, i.success, hbuilt, rfl, ?_, fun hne => absurd rfl hne⟩
  rw [hsuccess]
  exact ⟨fun hne => absurd rfl hne, fun htrue => (nomatch htrue)⟩

theorem showsAllOrNothing_interpretationJson {settings : Settings} {question tenant : String}
    {hint : Option Domain} {clock : Clock} {i : Interpretation}
    (h : interpret settings question tenant hint clock = .ok i) :
    ShowsAllOrNothing (interpretationJson i) := by
  rcases interpret_eq_ok_cases h with ⟨-, rfl⟩ | ⟨-, now, c, -, -, ⟨-, rfl⟩ | ⟨-, q, hq, rfl⟩⟩
  · exact showsAllOrNothing_of_query_eq_none rfl
  · exact showsAllOrNothing_of_query_eq_none rfl
  · obtain ⟨rest, hrest⟩ := exists_params_eq c
    have hparams := hrest _ _ q hq
    refine ⟨_, true, rfl, rfl, ⟨fun _ => rfl, fun _ => ?_⟩, fun _ => ?_⟩
    · exact fun hnull => (nomatch hnull)
    · refine ⟨_, _, rfl, rfl, ?_⟩
      rw [visibleSql_conclude, hparams]
      by_cases hexposed : settings.sqlExposureConfidence < c.confidence <;>
        simp [conclude, hexposed, Json.ofOption]

/-- Only an interpretation is a good answer to a question. -/
theorem exists_interpret_of_answer {settings : Checked Settings} {clock : Clock} {tenant : String}
    {p : Posted} (h : (answer settings clock tenant p).status = 200) :
    ∃ s i, settings = .ok s ∧ interpret s p.question tenant p.context clock = .ok i ∧
      (answer settings clock tenant p).body = interpretationJson i := by
  cases settings with
  | error faults => cases h
  | ok s =>
    rw [answer_ok] at h ⊢
    cases hi : interpret s p.question tenant p.context clock with
    | error e =>
      rw [hi] at h
      cases h
    | ok i => exact ⟨s, i, rfl, hi, rfl⟩

theorem status_of_bodyValue_eq_error {b : Body} {response : Response}
    (h : bodyValue b = .error response) : response.status = 400 := by
  unfold bodyValue at h
  cases b with
  | none => cases h
  | json v => cases h
  | raw text =>
    simp only at h
    split_ifs at h
    split at h
    · cases h
    · cases h
    · cases h
      rfl

theorem exists_answer_of_postQuery {settings : Checked Settings} {clock : Clock} {r : Request}
    (h : (postQuery settings clock r).status = 200) :
    ∃ tenant p, postQuery settings clock r = answer settings clock tenant p := by
  unfold postQuery at h ⊢
  cases hvalue : bodyValue r.body with
  | error response =>
    rw [hvalue] at h
    have h400 := status_of_bodyValue_eq_error hvalue
    exact absurd (h400.symm.trans h) (by decide)
  | ok value =>
    rw [hvalue] at h
    cases value with
    | error faults => cases h
    | ok value =>
      simp only at h ⊢
      cases hboth : both (tenantOf r) (under (.key "body") (postedOf value)) with
      | error faults =>
        rw [hboth] at h
        cases h
      | ok posted => exact ⟨posted.1, posted.2, rfl⟩

/-- Nothing but the value that the query binds first depends on the tenant, and not even that does
if the query is not shown.  Where a query is shown, so are its values. -/
theorem respond_hides_tenant (settings : Checked Settings) (clock : Clock) :
    (∀ r r' tenant tenant', OnlyTenants r r' tenant tenant' →
      (respond settings clock r).hideFirstParam = (respond settings clock r').hideFirstParam ∧
      ∀ s, settings = .ok s →
        (∀ p i c, Posts r.body p → interpret s p.question tenant p.context clock = .ok i →
          i.classification = some c → ¬ s.sqlExposureConfidence < c.confidence) →
        respond settings clock r = respond settings clock r') ∧
    ∀ r, Endpoint.ofPath? r.path = some .query → (respond settings clock r).status = 200 →
      ShowsAllOrNothing (respond settings clock r).body := by
  refine ⟨fun r r' tenant tenant' h => ⟨?_, ?_⟩, fun r hpath hstatus => ?_⟩
  · rcases respond_cases h settings clock with hsame | ⟨p, -, hr, hr'⟩
    · rw [hsame]
    · rw [hr, hr']
      exact answer_hideFirstParam h.nonblank h.nonblank' p clock settings
  · rintro s rfl hhidden
    rcases respond_cases h (.ok s) clock with hsame | ⟨p, hposts, hr, hr'⟩
    · exact hsame
    · rw [hr, hr']
      exact answer_eq_of_hidden h.nonblank h.nonblank' p clock fun i c => hhidden p i c hposts
  · rw [respond_query settings clock hpath] at hstatus ⊢
    by_cases hmethod : r.method.toUpper = "POST"
    · rw [if_pos hmethod] at hstatus ⊢
      obtain ⟨tenant, p, hanswer⟩ := exists_answer_of_postQuery hstatus
      rw [hanswer] at hstatus ⊢
      obtain ⟨s, i, -, hi, hbody⟩ := exists_interpret_of_answer hstatus
      rw [hbody]
      exact showsAllOrNothing_interpretationJson hi
    · rw [if_neg hmethod] at hstatus
      cases hstatus

/-- The request of a tenant with a question. -/
def Request.asking (question tenant : String) : Request :=
  ⟨"POST", "/query", [("X-Tenant-ID", tenant)], .json (.object [("query", .string question)])⟩

theorem Request.header?_asking (question tenant : String) :
    (asking question tenant).header? tenantHeader = some tenant := by
  have hname : ("X-Tenant-ID".toLower == tenantHeader) = true := by decide +kernel
  simp only [header?, asking, List.find?_cons, hname]
  rfl

/-- A question that is shown its query, and one that is not, for two tenants. -/
theorem respond_hides_tenant_hot_leads :
    let now : Moment :=
      ⟨.startOfDay ⟨2024, 6, 15, by decide, by decide, by decide, by decide, by decide, by decide⟩,
        .floating, false⟩
    let ask (question tenant : String) : Response :=
      respond (.ok .default) (.given now) (.asking question tenant)
    (ask "How many hot leads from Germany?" "acme").hideFirstParam =
        (ask "How many hot leads from Germany?" "globex").hideFirstParam ∧
      ask "hot leads" "acme" = ask "hot leads" "globex" ∧
      ShowsAllOrNothing (ask "hot leads" "acme").body := by
  intro now ask
  have honly : ∀ question, OnlyTenants (.asking question "acme") (.asking question "globex")
      "acme" "globex" := fun question =>
    { method := rfl
      path := rfl
      body := rfl
      header := Request.header?_asking question "acme"
      header' := Request.header?_asking question "globex"
      nonblank := by decide
      nonblank' := by decide }
  have hposts : Posts (Request.asking "hot leads" "acme").body ⟨"hot leads", none⟩ := ⟨_, rfl, rfl⟩
  have hread : ∃ c, Classification.ofQuestion "hot leads" none now = .ok c := ⟨_, rfl⟩
  obtain ⟨c, hc⟩ := hread
  have hnow : (Clock.given now).now Settings.default.timezone = .ok now := rfl
  obtain ⟨htenants, hshown⟩ := respond_hides_tenant (.ok .default) (.given now)
  obtain ⟨hsame, -⟩ := htenants _ _ _ _ (honly "How many hot leads from Germany?")
  obtain ⟨-, hequal⟩ := htenants _ _ _ _ (honly "hot leads")
  have hpath : Endpoint.ofPath? (Request.asking "hot leads" "acme").path = some .query := by
    show Endpoint.ofPath? "/query" = some .query
    decide +kernel
  refine ⟨hsame, hequal .default rfl ?_, hshown (.asking "hot leads" "acme") hpath ?_⟩
  · intro p i c' hp hi hclassification
    cases hp.unique hposts
    have hhidden : ¬ Settings.default.sqlExposureConfidence < c.confidence := by
      cases hc
      decide +kernel
    have hc' : c' = c := by
      rcases interpret_eq_ok_cases hi with ⟨-, rfl⟩ | ⟨-, now', c'', hnow', hc'', houtcome⟩
      · cases hclassification
      · cases hnow.symm.trans hnow'
        cases hc.symm.trans hc''
        rcases houtcome with ⟨-, rfl⟩ | ⟨-, q, -, rfl⟩
        · exact (Option.some.inj hclassification).symm
        · exact (Option.some.inj hclassification).symm
    rw [hc']
    exact hhidden
  · have hinput : checkInput .default "hot leads" "acme" = [] := by decide +kernel
    obtain ⟨i, hi⟩ := exists_interpret_eq_ok hinput hnow hc
    have hmethod : (Request.asking "hot leads" "acme").method.toUpper = "POST" := by
      show "POST".toUpper = "POST"
      decide +kernel
    have htenant := tenantOf_eq_ok (Request.header?_asking "hot leads" "acme")
      (honly "hot leads").nonblank
    rw [respond_eq_answer hpath hmethod htenant hposts, answer_ok, hi]

end Api

end CrmQuery
