import CrmQuery.Vocabulary.Amounts

/-!
# The budget of a question

`Budget.ofText?` reads the first number before a currency or after the word budget, and whether the
words before it make it a lower or an upper bound.
-/

namespace CrmQuery

open Pattern AmountPhrase

/-- The sides of a bound. -/
inductive Bound where
  | atLeast
  | atMost
  deriving DecidableEq, Repr

namespace Bound

/-- The word for a bound in answers. -/
def name : Bound → String
  | atLeast => "over"
  | atMost => "under"

/-- The side that words before a number tell. -/
def ofWords? (words : List Char) : Option Bound :=
  if (anyOf underWords).fitsAll words then some atMost
  else if (anyOf overWords).fitsAll words then some atLeast
  else none

end Bound

/-- An amount of money, and the side of the bound that it is. -/
structure Budget where
  amount : Nat
  bound : Option Bound
  deriving DecidableEq, Repr

namespace Budget

/-- The remembered number of a fit of one of the two phrases. -/
def number (m : Match) : Piece := (m.piece? .amount).getD ⟨0, 0, []⟩

/-- The words before the number. -/
def words? (m : Match) : Option (List Char) :=
  ((m.piece? .qualifier).map (·.text)).filter fun w => !w.isEmpty

/-- The fits of the two phrases. -/
def mentions (s : List Char) : List Match := [withCurrency, withKeyword].filterMap (·.search s)

/-- The fits whose number comes first. -/
def firstMentions (s : List Char) : List Match :=
  let found := mentions s
  found.filter fun m => found.all fun m' => (number m).start ≤ (number m').start

/-- The number that a numeral with separators writes. -/
def readAmount (numeral : List Char) : Except Text.NumeralTooLong Nat :=
  Text.readNumeral (numeral.filter fun c => c != '.' && c != ',')

/-- The budget that a text names. -/
def ofText? (s : List Char) : Except Text.NumeralTooLong (Option Budget) :=
  match firstMentions s with
  | [] => .ok none
  | m :: ms => do
    let amount ← readAmount (number m).text
    return some ⟨amount, ((m :: ms).findSome? words?).bind Bound.ofWords?⟩

end Budget

end CrmQuery
