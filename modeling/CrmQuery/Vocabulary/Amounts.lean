import CrmQuery.Pattern.Basic

/-!
# Words for budgets

A budget is a number before a currency (`AmountPhrase.withCurrency`) or after the word budget
(`AmountPhrase.withKeyword`).  A word right before the number tells whether it is a lower or an
upper bound.
-/

namespace CrmQuery.AmountPhrase

open Pattern

/-- Digits, or digits in groups of three after points or commas. -/
def amount : Pattern :=
  let d := one .digit
  let group := among ".," ++ d ++ d ++ d
  anyOf [d ++ opt (d ++ opt d) ++ many group, digits]

/-- The euro, as a sign, a word or an abbreviation. -/
def currency : Pattern :=
  anyOf [lit "€", lit "euro" ++ opt (lit "s") ++ edge, lit "eur" ++ edge]

/-- Words that make the number a lower bound. -/
def overWords : List Pattern := [
  lit "über",
  lit "ueber",
  lit "over",
  lit "above",
  phrase ["mehr", "als"],
  phrase ["more", "than"],
  lit "mindestens",
  phrase ["at", "least"],
  lit "ab"]

/-- Words that make the number an upper bound. -/
def underWords : List Pattern := [
  lit "unter",
  lit "under",
  lit "below",
  phrase ["weniger", "als"],
  phrase ["less", "than"],
  lit "höchstens",
  phrase ["at", "most"],
  lit "maximal",
  lit "bis"]

/-- A word for a bound and the blanks after it, if there is one, and a number. -/
def qualifiedAmount : Pattern :=
  opt (edge ++ part .qualifier (anyOf (overWords ++ underWords)) ++ gap) ++ part .amount amount

/-- A number before a currency. -/
def withCurrency : Pattern := qualifiedAmount ++ blanks ++ currency

/-- A number after the word budget. -/
def withKeyword : Pattern :=
  whole (lit "budget" ++ opt (lit "s")) ++ blanks ++ opt (anyOf [lit "von", lit "of", lit ":"]) ++
    blanks ++ qualifiedAmount

end CrmQuery.AmountPhrase
