import CrmQuery.Proofs.Session.Fetching
import Mathlib.Data.List.Induction

/-!
# Settings are a snapshot

Which settings are kept after some steps of a session is a matter of the last time that they were
read with success (`Session.kept_iff`).  Until they are read again, inquiries are answered as under
these settings, whatever becomes of the environment (`Session.inquiries_see_last_read`).
-/

namespace CrmQuery

/-- The texts that a step gives to settings. -/
def SessionStep.values : SessionStep → List (String × String)
  | .set values => values
  | .reload | .inquire _ => []

/-- The inquiry that a step is. -/
def SessionStep.inquiry? : SessionStep → Option Inquiry
  | .inquire q => some q
  | .set _ | .reload => none

/-- The step reads the settings anew. -/
def SessionStep.IsReload : SessionStep → Prop
  | .reload => True
  | .set _ | .inquire _ => False

/-- The answer tells something about settings or questions. -/
def StepAnswer.tells : StepAnswer → Bool
  | .done => false
  | .settings _ | .interpretation _ => true

/-- The answer to an inquiry of which the settings are known. -/
def Inquiry.answerUnder (q : Inquiry) (settings : Settings) : StepAnswer :=
  .interpretation ((q.answer settings).mapError .interpretation)

/-- The answer to an inquiry for which the settings were read. -/
def Inquiry.answerFor (q : Inquiry) : Checked Settings → StepAnswer
  | .error faults => .interpretation (.error (.settings faults))
  | .ok settings => q.answerUnder settings

/-- An environment after the steps of a session that begins with it. -/
def Environment.after (env : Environment) (steps : List SessionStep) : Environment :=
  env.setAll (steps.flatMap SessionStep.values)

theorem Environment.after_append (env : Environment) (a b : List SessionStep) :
    env.after (a ++ b) = (env.after a).after b := by
  unfold after setAll
  rw [List.flatMap_append, List.foldl_append]

theorem Environment.after_singleton (env : Environment) (x : SessionStep) :
    env.after [x] = env.setAll x.values := by
  unfold after
  rw [List.flatMap_singleton]

namespace Session

/-- The session after steps. -/
def after : Session → List SessionStep → Session
  | s, [] => s
  | s, a :: rest => (s.step a).2.after rest

/-- The settings that a step reads from the environment, if it reads them: reloading them always
does, an inquiry does if none are kept. -/
def read? (s : Session) : SessionStep → Option (Checked Settings)
  | .set _ => none
  | .reload => some (Settings.read s.environment)
  | .inquire _ =>
    match s.kept with
    | some _ => none
    | none => some (Settings.read s.environment)

/-- In a session that begins with an environment, the step after `before` is the last of `steps`
that reads settings with success, and no later one fails to reload them. -/
def LastRead (env : Environment) (steps before : List SessionStep) (settings : Settings) : Prop :=
  ∃ x since, steps = before ++ x :: since ∧
    ((start env).after before).read? x = some (.ok settings) ∧
    ∀ middle y rest, since = middle ++ y :: rest →
      ∀ result, ((start env).after (before ++ x :: middle)).read? y = some result →
        ¬ y.IsReload ∧ ∃ faults, result = .error faults

/-! ### Steps -/

section Steps

variable (s : Session)

theorem step_inquire (q : Inquiry) :
    s.step (.inquire q) = (q.answerFor s.settings, s.keep) := by
  simp only [step, q.run_interpret s]
  cases s.settings <;> rfl

theorem after_append (a b : List SessionStep) : s.after (a ++ b) = (s.after a).after b := by
  induction a generalizing s with
  | nil => rfl
  | cons x a ih => exact ih _

theorem run_append (a b : List SessionStep) : s.run (a ++ b) = s.run a ++ (s.after a).run b := by
  induction a generalizing s with
  | nil => rfl
  | cons x a ih => exact congrArg (_ :: ·) (ih _)

theorem length_run (steps : List SessionStep) : (s.run steps).length = steps.length := by
  induction steps generalizing s with
  | nil => rfl
  | cons x steps ih => exact congrArg (· + 1) (ih _)

/-- The answer to a step only depends on the session after the earlier ones. -/
theorem getElem?_run (before : List SessionStep) (x : SessionStep) (rest : List SessionStep) :
    (s.run (before ++ x :: rest))[before.length]? = some ((s.after before).step x).1 := by
  rw [run_append, List.getElem?_append_right (s.length_run before).le, s.length_run before,
    Nat.sub_self]
  rfl

theorem environment_step (x : SessionStep) :
    (s.step x).2.environment = s.environment.after [x] := by
  rw [Environment.after_singleton]
  cases x with
  | set values => rfl
  | reload => rfl
  | inquire q =>
    rw [step_inquire]
    rfl

/-- Nothing but what is set changes the environment. -/
theorem environment_after (steps : List SessionStep) :
    (s.after steps).environment = s.environment.after steps := by
  induction steps generalizing s with
  | nil => rfl
  | cons x steps ih =>
    have hrest := ih (s.step x).2
    rw [environment_step] at hrest
    rw [← List.singleton_append, Environment.after_append]
    exact hrest

end Steps

theorem environment_start_after (env : Environment) (steps : List SessionStep) :
    ((start env).after steps).environment = env.after steps :=
  (start env).environment_after steps

/-! ### What is kept -/

section Step

variable {s : Session} {settings : Settings}

theorem settings_of_empty (h : s.kept = none) : s.settings = Settings.read s.environment := by
  unfold Session.settings
  rw [h]

theorem settings_of_kept_keep (h : s.keep.kept = some settings) : s.settings = .ok settings := by
  unfold keep at h
  cases hs : s.settings with
  | error faults =>
    rw [hs] at h
    cases h
  | ok settings' =>
    rw [hs] at h
    cases h
    rfl

theorem read?_of_empty (h : s.kept = none) (q : Inquiry) :
    s.read? (.inquire q) = some (Settings.read s.environment) := by
  simp only [read?, h]

theorem read?_of_kept (h : s.kept = some settings) (q : Inquiry) : s.read? (.inquire q) = none := by
  simp only [read?, h]

/-- What is read is what the environment holds. -/
theorem eq_of_read?_eq_some {x : SessionStep} {result : Checked Settings}
    (h : s.read? x = some result) : Settings.read s.environment = result := by
  cases x with
  | set values => cases h
  | reload => exact Option.some.inj h
  | inquire q =>
    cases hkept : s.kept with
    | none =>
      rw [read?_of_empty hkept] at h
      exact Option.some.inj h
    | some kept =>
      rw [read?_of_kept hkept] at h
      cases h

theorem kept_step_of_read? {x : SessionStep} (h : s.read? x = some (.ok settings)) :
    (s.step x).2.kept = some settings := by
  have hread := eq_of_read?_eq_some h
  cases x with
  | set values => cases h
  | reload =>
    have hsettings : (start s.environment).settings = .ok settings := hread
    exact kept_keep hsettings
  | inquire q =>
    rw [step_inquire]
    cases hkept : s.kept with
    | none => exact kept_keep ((settings_of_empty hkept).trans hread)
    | some kept =>
      rw [read?_of_kept hkept] at h
      cases h

theorem kept_step_of_kept {x : SessionStep} (h : s.kept = some settings) (hx : ¬ x.IsReload) :
    (s.step x).2.kept = some settings := by
  cases x with
  | set values => exact h
  | reload => exact absurd trivial hx
  | inquire q =>
    rw [step_inquire]
    exact (congrArg kept (keep_of_kept h)).trans h

/-- Settings are kept after a step because it reads them, or because they were kept before and it
leaves them alone. -/
theorem of_kept_step {x : SessionStep} (h : (s.step x).2.kept = some settings) :
    s.read? x = some (.ok settings) ∨ s.kept = some settings ∧ s.read? x = none := by
  cases x with
  | set values => exact Or.inr ⟨h, rfl⟩
  | reload =>
    have hsettings : (start s.environment).settings = .ok settings := settings_of_kept_keep h
    exact Or.inl (congrArg some hsettings)
  | inquire q =>
    rw [step_inquire] at h
    have hsettings := settings_of_kept_keep h
    cases hkept : s.kept with
    | none =>
      left
      rw [read?_of_empty hkept, ← settings_of_empty hkept, hsettings]
    | some kept =>
      right
      rw [settings_of_kept hkept] at hsettings
      cases hsettings
      exact ⟨rfl, read?_of_kept hkept q⟩

end Step

section Kept

variable {env : Environment} {steps before : List SessionStep} {settings : Settings}

theorem after_concat (s : Session) (steps : List SessionStep) (x : SessionStep) :
    s.after (steps ++ [x]) = ((s.after steps).step x).2 :=
  s.after_append steps [x]

/-- A step that reads no settings leaves the last read what it is. -/
theorem LastRead.concat (h : LastRead env steps before settings) {z : SessionStep}
    (hz : ((start env).after steps).read? z = none) :
    LastRead env (steps ++ [z]) before settings := by
  obtain ⟨x, since, rfl, hread, hlast⟩ := h
  refine ⟨x, since ++ [z], by simp, hread, ?_⟩
  intro middle y rest hsplit result hresult
  rcases List.eq_nil_or_concat rest with rfl | ⟨rest, z', rfl⟩
  · obtain ⟨rfl, hy⟩ := List.append_inj' hsplit rfl
    cases hy
    rw [hz] at hresult
    cases hresult
  · have hsplit' : since ++ [z] = (middle ++ y :: rest) ++ [z'] := by simpa using hsplit
    obtain ⟨hsince, -⟩ := List.append_inj' hsplit' rfl
    exact hlast middle y rest hsince result hresult

theorem lastRead_of_read? {x : SessionStep}
    (h : ((start env).after steps).read? x = some (.ok settings)) :
    LastRead env (steps ++ [x]) steps settings := by
  refine ⟨x, [], rfl, h, ?_⟩
  intro middle y rest hsplit
  cases middle <;> cases hsplit

theorem exists_lastRead_of_kept (h : ((start env).after steps).kept = some settings) :
    ∃ before, LastRead env steps before settings := by
  induction steps using List.reverseRecOn with
  | nil => cases h
  | append_singleton steps x ih =>
    rw [after_concat] at h
    rcases of_kept_step h with hread | ⟨hkept, hread⟩
    · exact ⟨steps, lastRead_of_read? hread⟩
    · obtain ⟨before, hbefore⟩ := ih hkept
      exact ⟨before, hbefore.concat hread⟩

theorem LastRead.kept (h : LastRead env steps before settings) :
    ((start env).after steps).kept = some settings := by
  obtain ⟨x, since, rfl, hread, hlast⟩ := h
  -- The settings are kept after every part of the later steps.
  have key : ∀ middle rest, since = middle ++ rest →
      ((start env).after (before ++ x :: middle)).kept = some settings := by
    intro middle
    induction middle using List.reverseRecOn with
    | nil =>
      intro rest _
      rw [after_concat]
      exact kept_step_of_read? hread
    | append_singleton middle y ih =>
      intro rest hsplit
      rw [List.append_assoc, List.singleton_append] at hsplit
      have hkept := ih (y :: rest) hsplit
      rw [← List.cons_append, ← List.append_assoc, after_concat]
      refine kept_step_of_kept hkept fun hreload => ?_
      cases y with
      | reload => exact (hlast middle .reload rest hsplit _ rfl).1 trivial
      | set values => exact hreload
      | inquire q => exact hreload
  exact key since [] (List.append_nil since).symm

/-- Settings are kept if they were read with success and no reading failed since. -/
theorem kept_iff : ((start env).after steps).kept = some settings ↔
    ∃ before, LastRead env steps before settings :=
  ⟨exists_lastRead_of_kept, fun ⟨_, h⟩ => h.kept⟩

/-- The settings of the last read are those of the environment as it was then. -/
theorem LastRead.read_eq (h : LastRead env steps before settings) :
    Settings.read (env.after before) = .ok settings := by
  obtain ⟨x, since, -, hread, -⟩ := h
  rw [← environment_start_after]
  exact eq_of_read?_eq_some hread

end Kept

/-! ### Answers -/

section Answers

variable {s : Session} {settings : Settings}

theorem answer_of_kept (h : s.kept = some settings) (q : Inquiry) :
    (s.step (.inquire q)).1 = q.answerUnder settings := by
  rw [step_inquire, settings_of_kept h]
  rfl

theorem answer_of_empty (h : s.kept = none) (q : Inquiry) :
    (s.step (.inquire q)).1 = q.answerFor (Settings.read s.environment) := by
  rw [step_inquire, settings_of_empty h]

/-- Until settings are reloaded, only inquiries are answered, under the settings that are kept. -/
theorem filter_tells_run (h : s.kept = some settings) {steps : List SessionStep}
    (hsteps : ∀ x ∈ steps, ¬ x.IsReload) :
    (s.run steps).filter StepAnswer.tells =
      (steps.filterMap SessionStep.inquiry?).map fun q => q.answerUnder settings := by
  induction steps generalizing s with
  | nil => rfl
  | cons x steps ih =>
    have hkept := kept_step_of_kept h (hsteps x List.mem_cons_self)
    have hrest := ih hkept fun y hy => hsteps y (List.mem_cons_of_mem x hy)
    unfold run
    cases x with
    | set values => exact hrest
    | reload => exact absurd trivial (hsteps .reload List.mem_cons_self)
    | inquire q =>
      rw [answer_of_kept h]
      exact congrArg (q.answerUnder settings :: ·) hrest

end Answers

/-- After `before`, inquiries are answered under `settings`, and as long as these are not reloaded,
giving texts to settings, or not, or in another order, changes no answer. -/
structure AnswersUnder (env : Environment) (before : List SessionStep) (settings : Settings) :
    Prop where
  answer : ∀ q rest, ((start env).run (before ++ .inquire q :: rest))[before.length]? =
    some (q.answerUnder settings)
  same : ∀ steps steps', (∀ x ∈ steps, ¬ x.IsReload) → (∀ x ∈ steps', ¬ x.IsReload) →
    steps.filterMap SessionStep.inquiry? = steps'.filterMap SessionStep.inquiry? →
    ((start env).run (before ++ steps)).filter StepAnswer.tells =
      ((start env).run (before ++ steps')).filter StepAnswer.tells

/-- After `before`, an inquiry needs the settings of the environment as it is then.  If they cannot
be read, it is answered with their faults, none are kept, and the next inquiry reads them again. -/
structure ReadsAnew (env : Environment) (before : List SessionStep) (q : Inquiry) : Prop where
  fills : ∀ settings, Settings.read (env.after before) = .ok settings →
    LastRead env (before ++ [.inquire q]) before settings ∧
    ∀ rest, ((start env).run (before ++ .inquire q :: rest))[before.length]? =
      some (q.answerUnder settings)
  fails : ∀ faults, Settings.read (env.after before) = .error faults →
    ((start env).after (before ++ [.inquire q])).kept = none ∧
    ∀ rest, ((start env).run (before ++ .inquire q :: rest))[before.length]? =
      some (.interpretation (.error (.settings faults)))
  recovers : ∀ faults, Settings.read (env.after before) = .error faults →
    ∀ values settings, Settings.read ((env.after before).setAll values) = .ok settings →
      ∀ q' rest,
        ((start env).run (before ++ .inquire q :: .set values :: .inquire q' :: rest))[
          before.length + 2]? = some (q'.answerUnder settings)

section Snapshot

variable {env : Environment} {before : List SessionStep}

theorem LastRead.answersUnder {earlier : List SessionStep} {settings : Settings}
    (h : LastRead env before earlier settings) : AnswersUnder env before settings := by
  refine ⟨fun q rest => ?_, fun steps steps' hsteps hsteps' hsame => ?_⟩
  · rw [getElem?_run, answer_of_kept h.kept]
  · rw [run_append, run_append, List.filter_append, List.filter_append,
      filter_tells_run h.kept hsteps, filter_tells_run h.kept hsteps', hsame]

variable (h : ((start env).after before).kept = none) (q : Inquiry)
include h

theorem getElem?_run_of_empty (rest : List SessionStep) :
    ((start env).run (before ++ .inquire q :: rest))[before.length]? =
      some (q.answerFor (Settings.read (env.after before))) := by
  rw [getElem?_run, answer_of_empty h, environment_start_after]

theorem kept_after_of_error {faults : List Fault}
    (hread : Settings.read (env.after before) = .error faults) :
    ((start env).after (before ++ [.inquire q])).kept = none := by
  rw [after_concat, step_inquire]
  show ((start env).after before).settings.toOption = none
  rw [settings_of_empty h, environment_start_after, hread]
  rfl

theorem readsAnew_of_empty : ReadsAnew env before q := by
  refine ⟨fun settings hread => ⟨lastRead_of_read? ?_, fun rest => ?_⟩,
    fun faults hread => ⟨kept_after_of_error h q hread, fun rest => ?_⟩,
    fun faults hread values settings hvalues q' rest => ?_⟩
  · rw [read?_of_empty h, environment_start_after, hread]
  · rw [getElem?_run_of_empty h, hread]
    rfl
  · rw [getElem?_run_of_empty h, hread]
    rfl
  · -- Giving texts to settings after the failure keeps none, and the next inquiry sees the texts.
    have hkept : ((start env).after (before ++ [.inquire q, .set values])).kept = none := by
      have hsplit : before ++ [.inquire q, .set values] =
          before ++ [.inquire q] ++ [.set values] := by simp
      rw [hsplit, after_concat]
      exact kept_after_of_error h q hread
    have hafter : env.after (before ++ [.inquire q, .set values]) =
        (env.after before).setAll values := by
      rw [Environment.after_append]
      simp [Environment.after, SessionStep.values]
    have hanswer := getElem?_run_of_empty hkept q' rest
    rw [hafter, hvalues] at hanswer
    simpa [Inquiry.answerFor] using hanswer

end Snapshot

/-- One interpretation sees the same settings whenever it asks for them. -/
theorem run_interpret_of_settings {s : Session} {settings : Settings} {q : Inquiry}
    (hsettings : s.settings = .ok settings) (hreplacement : q.replacement = none) :
    q.interpret.run.run s =
      ((interpret settings q.question q.tenant q.hint q.clock).mapError .interpretation,
        s.keep) := by
  have hanswer : q.answer settings = interpret settings q.question q.tenant q.hint q.clock := by
    simp only [Inquiry.answer, Inquiry.builder, hreplacement]
    rfl
  rw [q.run_interpret, hsettings, ← hanswer]
  rfl

/-- Settings are a snapshot.  Once they were read with success, and until they are reloaded, every
inquiry is answered under those of the environment as it was then.  While none are kept, an inquiry
reads those of the environment as it is.  One interpretation never sees two different ones. -/
theorem inquiries_see_last_read (env : Environment) (before : List SessionStep) :
    (∀ settings, ((start env).after before).kept = some settings ↔
      ∃ earlier, LastRead env before earlier settings) ∧
    (∀ earlier settings, LastRead env before earlier settings →
      Settings.read (env.after earlier) = .ok settings ∧ AnswersUnder env before settings) ∧
    (((start env).after before).kept = none → ∀ q, ReadsAnew env before q) ∧
    ∀ (s : Session) (q : Inquiry) (settings : Settings), s.settings = .ok settings →
      q.replacement = none →
      q.interpret.run.run s =
        ((interpret settings q.question q.tenant q.hint q.clock).mapError .interpretation,
          s.keep) :=
  ⟨fun _ => kept_iff, fun _ _ h => ⟨h.read_eq, h.answersUnder⟩, readsAnew_of_empty,
    fun _ _ _ => run_interpret_of_settings⟩

/-- A limit that is no number has no effect while another one is kept, and is made good by one that
is. -/
theorem inquiries_see_last_read_limit :
    let now : Moment :=
      ⟨.startOfDay ⟨2024, 6, 15, by decide, by decide, by decide, by decide, by decide, by decide⟩,
        .floating, false⟩
    let q : Inquiry := ⟨"hot leads", "acme", none, .given now, none⟩
    let many := [("result_limit", "many")]
    let seven := [("result_limit", "7")]
    let answers := (start .empty).run [.set many, .inquire q, .set seven, .inquire q]
    ((start .empty).run [.inquire q, .set many, .inquire q])[2]? = some (q.answerUnder .default) ∧
      ∃ faults, Settings.read (Environment.empty.setAll many) = .error faults ∧
        answers[1]? = some (.interpretation (.error (.settings faults))) ∧
        answers[3]? = some (q.answerUnder { Settings.default with resultLimit := 7 }) := by
  intro now q many seven answers
  have hdefault : Settings.read .empty = .ok .default := rfl
  have hseven : Settings.read ((Environment.empty.setAll many).setAll seven) =
      .ok { Settings.default with resultLimit := 7 } := rfl
  have hmany : ∃ faults, Settings.read (Environment.empty.setAll many) = .error faults := ⟨_, rfl⟩
  obtain ⟨-, -, hfirst, -⟩ := inquiries_see_last_read .empty []
  obtain ⟨hread, -⟩ := (hfirst rfl q).fills .default hdefault
  obtain ⟨-, hkept, -⟩ := inquiries_see_last_read .empty ([.inquire q] ++ [.set many])
  obtain ⟨-, hanswers⟩ := hkept [] .default (hread.concat rfl)
  obtain ⟨faults, hfaults⟩ := hmany
  obtain ⟨-, -, hbroken, -⟩ := inquiries_see_last_read .empty [.set many]
  have hanew := hbroken rfl q
  exact ⟨hanswers.answer q [], faults, hfaults, (hanew.fails faults hfaults).2 _,
    hanew.recovers faults hfaults seven _ hseven q []⟩

end Session

end CrmQuery
