import CrmQuery.Decimal.Rounding
import CrmQuery.Text.Case
import CrmQuery.Vocabulary.Topics

/-!
# The topic of a question

`normalize` is the form in which a question is read.  `Topic.ofText` picks the domain, for which a
caller may have given a hint, and tells what it rests on; `Intent.ofText?` picks the intent.
`Evidence.confidence` measures how much of a question is understood, in hundredths between zero and
one.
-/

namespace CrmQuery

/-- A question in lower case, without blanks around it. -/
def normalize (question : String) : List Char := Text.strip (Text.lower question.toList)

/-- What the choice of a domain rests on. -/
inductive Evidence where
  /-- Words of the question. -/
  | words
  /-- A hint alone. -/
  | hint
  /-- Nothing; the domain is unknown. -/
  | nothing
  /-- Knowledge from elsewhere. -/
  | other
  deriving DecidableEq, Repr

/-- A domain and what its choice rests on. -/
structure Topic where
  domain : Domain
  evidence : Evidence
  deriving DecidableEq, Repr

/-- The first domain with a word in the question. -/
def Domain.ofText? (s : List Char) : Option Domain :=
  byPriority.find? fun d => Pattern.anyOccurs d.patterns s

/-- The domain of a question.  A hint wins if the question has a word for it, and decides if it has
no word for any domain. -/
def Topic.ofText (s : List Char) (hint : Option Domain) : Topic :=
  let hint := hint.filter (· != .unknown)
  match hint.filter fun d => Pattern.anyOccurs d.patterns s, Domain.ofText? s, hint with
  | some d, _, _ => ⟨d, .words⟩
  | none, some d, _ => ⟨d, .words⟩
  | none, none, some d => ⟨d, .hint⟩
  | none, none, none => ⟨.unknown, .nothing⟩

/-- The first intent with a word in the question. -/
def Intent.ofText? (s : List Char) : Option Intent :=
  byPriority.find? fun i => Pattern.anyOccurs i.patterns s

/-! ### Confidence -/

/-- What the evidence for a domain adds to the confidence. -/
def Evidence.weight : Evidence → Float
  | words => 0.3
  | hint => 0.15
  | nothing | other => 0

/-- The lesser of two doubles. -/
def lesser (x y : Float) : Float := if y < x then y else x

/-- The confidence in what is understood of a question.  Entities count up to two, and without a
domain the confidence stays low. -/
def Evidence.confidence (evidence : Evidence) (hasIntent : Bool) (entityCount : Int)
    (hasTimeframe : Bool) : Float :=
  let sum := 0.1 + evidence.weight
  let sum := if hasIntent then sum + 0.05 else sum
  let sum := sum + lesser (Float.ofInt entityCount * 0.15) 0.3
  let sum := if hasTimeframe then sum + 0.15 else sum
  let sum := if evidence = .nothing then lesser sum 0.4 else sum
  roundCents (lesser sum 1)

end CrmQuery
