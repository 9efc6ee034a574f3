import CrmQuery.Proofs.Sql.Noninterference
import CrmQuery.Session

/-!
# Inquiries in a session

The interpretation of an inquiry asks for the settings several times.  Once they are kept they no
longer change, so an inquiry is answered as under settings that are given once for all
(`Inquiry.run_interpret`); if they cannot be read at the first time, nothing else is asked.
-/

namespace CrmQuery

open Sql

/-! ### Drafts under two limits -/

namespace Sql

variable {limit limit' : Int} {c : Classification} {tenant : String}

/-- No limit helps a classification that cannot be drafted. -/
theorem draft_eq_error_of_draft_eq_error {e : BuildFault}
    (h : draft limit c tenant = .error e) : draft limit' c tenant = .error e := by
  unfold draft at h ⊢
  cases ht : template? c with
  | none =>
    rw [ht] at h
    exact h
  | some template =>
    cases template with
    | overview =>
      rw [ht] at h
      cases h
    | selection s =>
      simp only [ht, Selection.draft_eq] at h ⊢
      cases hfields : checkFields s.available (c.filters.map Filter.field) with
      | error e' =>
        rw [hfields] at h
        exact h
      | ok u =>
        rw [hfields] at h
        cases h

theorem draft_eq_of_not_isLimited (h : ¬ isLimited c = true) :
    draft limit c tenant = draft limit' c tenant := by
  unfold draft
  cases ht : template? c with
  | none => rfl
  | some template =>
    cases template with
    | overview => rfl
    | selection s =>
      have hlimited : ¬ s.shape.limited = true := limited_eq_isLimited ht ▸ h
      simp only [Selection.draft_eq, Selection.draftOf, Selection.select, if_neg hlimited]

end Sql

/-! ### Computations in a session -/

section InSession

variable {α β : Type} {x : InSession α} {s s' : Session}

theorem run_bind_of_ok {a : α} (h : x.run.run s = (.ok a, s')) (f : α → InSession β) :
    (x >>= f).run.run s = (f a).run.run s' := by
  simp only [ExceptT.run_bind, StateT.run_bind, h]
  rfl

theorem run_bind_of_error {e : InquiryFault} (h : x.run.run s = (.error e, s'))
    (f : α → InSession β) : (x >>= f).run.run s = (.error e, s') := by
  simp only [ExceptT.run_bind, StateT.run_bind, h]
  rfl

theorem Inquiry.run_lift (r : Except InterpretationFault α) (s : Session) :
    (Inquiry.lift r).run.run s = (r.mapError .interpretation, s) := by
  cases r <;> rfl

/-- What is asked first decides whether anything else is asked. -/
theorem run_bind_of_mapError {r : Except InterpretationFault α}
    (h : x.run.run s = (r.mapError .interpretation, s)) {f : α → InSession β}
    {g : α → Except InterpretationFault β}
    (hf : ∀ a, r = .ok a → (f a).run.run s = ((g a).mapError .interpretation, s)) :
    (x >>= f).run.run s = ((r >>= g).mapError .interpretation, s) := by
  cases r with
  | error e => exact run_bind_of_error h f
  | ok a => exact (run_bind_of_ok h f).trans (hf a rfl)

theorem Session.run_fetch (s : Session) :
    Session.fetch.run.run s = (s.settings.mapError .settings, s.keep) := by
  have hstep : Session.fetch.run.run s =
      (MonadExcept.ofExcept (s.settings.mapError .settings) : InSession Settings).run.run s.keep :=
    rfl
  rw [hstep]
  cases s.settings <;> rfl

end InSession

/-! ### Kept settings -/

section Kept

variable {s : Session} {settings : Settings}

theorem Session.settings_of_kept (h : s.kept = some settings) : s.settings = .ok settings := by
  unfold Session.settings
  rw [h]

theorem Session.kept_keep (h : s.settings = .ok settings) : s.keep.kept = some settings := by
  unfold keep
  rw [h]
  rfl

theorem Session.keep_of_kept (h : s.kept = some settings) : s.keep = s := by
  obtain ⟨env, kept⟩ := s
  cases h
  rfl

variable (h : s.kept = some settings) (q : Inquiry)
include h

theorem Session.run_fetch_of_kept : Session.fetch.run.run s = (.ok settings, s) := by
  rw [run_fetch, settings_of_kept h, keep_of_kept h]
  rfl

theorem Inquiry.run_checkInput :
    q.checkInput.run.run s = (.ok (CrmQuery.checkInput settings q.question q.tenant), s) :=
  run_bind_of_ok (Session.run_fetch_of_kept h) _

theorem Inquiry.run_now :
    q.now.run.run s = ((q.clock.now settings.timezone).mapError .interpretation, s) := by
  unfold now
  cases q.clock with
  | given now => rfl
  | shows zones u => exact (run_bind_of_ok (Session.run_fetch_of_kept h) _).trans (run_lift _ _)

theorem Inquiry.run_build (c : Classification) :
    (q.build c).run.run s = (.ok (q.builder settings c q.tenant), s) := by
  unfold build builder
  cases q.replacement with
  | some fields => rfl
  | none =>
    simp only
    cases hd : draft Settings.default.resultLimit c q.tenant with
    | error e =>
      have hd' : draft settings.resultLimit c q.tenant = .error e :=
        draft_eq_error_of_draft_eq_error hd
      simp only [compile, hd']
      rfl
    | ok d =>
      by_cases hl : isLimited c = true
      · simp only [if_pos hl]
        exact run_bind_of_ok (Session.run_fetch_of_kept h) _
      · have hd' : draft settings.resultLimit c q.tenant = .ok d :=
          (draft_eq_of_not_isLimited hl).trans hd
        simp only [if_neg hl, compile, hd']
        rfl

/-- Kept settings answer an inquiry like settings that are given once for all. -/
theorem Inquiry.run_interpret_of_kept :
    q.interpret.run.run s = ((q.answer settings).mapError .interpretation, s) := by
  unfold interpret answer interpretWith
  rw [run_bind_of_ok (Session.run_fetch_of_kept h), run_bind_of_ok (run_checkInput h q)]
  cases CrmQuery.checkInput settings q.question q.tenant with
  | cons fault faults => rfl
  | nil =>
    refine run_bind_of_mapError (run_now h q) fun now _ => ?_
    refine run_bind_of_mapError (run_lift _ s) fun c _ => ?_
    rw [run_bind_of_ok (run_build h q c)]
    exact run_bind_of_mapError (run_lift _ s) fun outcome _ => rfl

end Kept

/-- An inquiry is answered under the settings that hold when it begins, and these are kept. -/
theorem Inquiry.run_interpret (s : Session) (q : Inquiry) :
    q.interpret.run.run s =
      (s.settings.mapError .settings >>= fun settings =>
        (q.answer settings).mapError .interpretation, s.keep) := by
  have hfetch := s.run_fetch
  cases hs : s.settings with
  | error faults =>
    rw [hs] at hfetch
    exact run_bind_of_error hfetch _
  | ok settings =>
    -- The first request leads to the session in which the settings are kept.
    have hkept := Session.kept_keep hs
    rw [hs] at hfetch
    have hsame : q.interpret.run.run s = q.interpret.run.run s.keep := by
      unfold interpret
      rw [run_bind_of_ok hfetch, run_bind_of_ok (Session.run_fetch_of_kept hkept)]
    rw [hsame]
    exact run_interpret_of_kept hkept q

end CrmQuery
