import CrmQuery.Interpretation
import CrmQuery.Validation.Records

/-!
# Sessions

In a session the settings are read from the environment when they are first needed and then kept
until they are dropped.  `Inquiry.interpret` asks the session for them at every step that needs one
of them; `Inquiry.answer` is the answer under settings that are given once for all.  `Session.run`
answers a list of steps: changes of the environment, reading the settings anew, and questions.
-/

namespace CrmQuery

open Sql

/-- A question of a session. -/
structure Inquiry where
  question : String
  tenant : String
  hint : Option Domain
  clock : Clock
  /-- The fields of the query that takes the place of the builder's. -/
  replacement : Option Json

/-- A builder that makes the same query of everything. -/
def fixedBuilder (fields : Json) : Builder := fun _ _ =>
  (Query.ofFields .notList fields).mapError .invalidQuery

/-- Why an inquiry has no answer. -/
inductive InquiryFault where
  | settings (faults : List Fault)
  | interpretation (cause : InterpretationFault)
  deriving DecidableEq, Repr

/-- The environment, and the settings that were read from it, if they are kept. -/
structure Session where
  environment : Environment
  kept : Option Settings

/-- A computation in a session. -/
abbrev InSession (α : Type) : Type := ExceptT InquiryFault (StateM Session) α

namespace Session

/-- A session in an environment whose settings are not read yet. -/
def start (env : Environment) : Session := ⟨env, none⟩

/-- The settings that hold, read now unless they are kept. -/
def settings (s : Session) : Checked Settings :=
  match s.kept with
  | some settings => .ok settings
  | none => Settings.read s.environment

/-- The session after the settings were needed; what could not be read is not kept. -/
def keep (s : Session) : Session := { s with kept := s.settings.toOption }

/-- Ask for the settings. -/
def fetch : InSession Settings := do
  let s ← get
  set s.keep
  MonadExcept.ofExcept (s.settings.mapError .settings)

end Session

namespace Inquiry

/-- The builder for an inquiry. -/
def builder (q : Inquiry) (settings : Settings) : Builder :=
  match q.replacement with
  | some fields => fixedBuilder fields
  | none => compile settings.resultLimit

/-- The answer to an inquiry under given settings. -/
def answer (q : Inquiry) (settings : Settings) : Except InterpretationFault Interpretation :=
  interpretWith (q.builder settings) settings q.question q.tenant q.hint q.clock

/-- A result that does not depend on the session. -/
def lift {α : Type} (result : Except InterpretationFault α) : InSession α :=
  MonadExcept.ofExcept (result.mapError .interpretation)

/-- What is wrong with the input, by the bounds that hold. -/
def checkInput (q : Inquiry) : InSession (List InputFault) := do
  return CrmQuery.checkInput (← Session.fetch) q.question q.tenant

/-- Now; the time zone that holds is needed only for a clock. -/
def now (q : Inquiry) : InSession Moment :=
  match q.clock with
  | .given now => return now
  | .shows zones u => do lift ((Clock.shows zones u).now (← Session.fetch).timezone)

/-- What the builder makes of a classification.  The greatest number of rows that holds is needed
only for a list, and only once its conditions are compiled. -/
def build (q : Inquiry) (c : Classification) : InSession (Except BuildFault Query) :=
  match q.replacement with
  | some fields => return fixedBuilder fields c q.tenant
  | none =>
    match draft Settings.default.resultLimit c q.tenant with
    | .error e => return .error e
    | .ok d =>
      if isLimited c then do
        return compile (← Session.fetch).resultLimit c q.tenant
      else return d.query

/-- The interpretation of an inquiry in a session. -/
def interpret (q : Inquiry) : InSession Interpretation := do
  let settings ← Session.fetch
  match ← q.checkInput with
  | [] =>
    let now ← q.now
    let c ← lift ((Classification.ofQuestion q.question q.hint now).mapError .question)
    return conclude settings q.question c (← lift (accept (← q.build c)))
  | faults => return refuseInput settings q.question faults

end Inquiry

/-- A step of a session. -/
inductive SessionStep where
  | set (values : List (String × String))
  | reload
  | inquire (inquiry : Inquiry)

/-- The answer to a step. -/
inductive StepAnswer where
  | done
  | settings (result : Checked Settings)
  | interpretation (result : Except InquiryFault Interpretation)

namespace Session

/-- The answer to a step and the session after it. -/
def step (s : Session) : SessionStep → StepAnswer × Session
  | .set values => (.done, { s with environment := s.environment.setAll values })
  | .reload =>
    let fresh := Session.start s.environment
    (.settings fresh.settings, fresh.keep)
  | .inquire q =>
    let (result, s) := q.interpret.run.run s
    (.interpretation result, s)

/-- The answers to all steps in order. -/
def run : Session → List SessionStep → List StepAnswer
  | _, [] => []
  | s, a :: rest => (s.step a).1 :: (s.step a).2.run rest

end Session

end CrmQuery
