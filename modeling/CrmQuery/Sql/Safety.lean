import CrmQuery.Pattern.Basic

/-!
# Safety of statements

`violations` lists what makes a text unfit to be run: it has to be one statement that begins with
SELECT or WITH, without UNION, without any word that changes data or rights, and without comments.
Keywords count as whole words in every case.
-/

namespace CrmQuery.Sql

open Pattern

/-- What makes a text unfit to be run. -/
inductive Violation where
  | empty
  | notSelect
  | severalStatements
  | union
  /-- A word that changes data or rights, in capitals. -/
  | dangerous (keyword : String)
  | inlineComment
  | blockComment
  deriving DecidableEq, Repr

/-- The explanation of a violation. -/
def Violation.message : Violation → String
  | empty => "SQL is empty."
  | notSelect => "SQL must be a SELECT statement."
  | severalStatements =>
    "Multi-statement SQL is not allowed (found ';' followed by another statement)."
  | union => "UNION is not allowed."
  | dangerous keyword => "Dangerous keyword detected: '" ++ keyword ++ "'."
  | inlineComment => "Inline comments (--) are not allowed."
  | blockComment => "Block comments (/* */) are not allowed."

/-- The words that a statement may begin with. -/
def readOnlyStart : Pattern := anyOf [lit "select", lit "with"] ++ edge

/-- A semicolon and something after it. -/
def furtherStatement : Pattern := lit ";" ++ blanks ++ one .nonBlank

/-- The word that joins two queries. -/
def unionWord : Pattern := whole (lit "union")

/-- The words that change data or rights. -/
def dangerousWords : List String := [
  "drop", "delete", "update", "insert", "alter", "truncate", "create", "grant", "revoke", "merge",
  "execute", "exec", "call", "copy"]

/-- One of these words. -/
def dangerousWord : Pattern := whole (part .keyword (anyOf (dangerousWords.map lit)))

/-- The first word of a text that changes data or rights, in capitals. -/
def firstDangerous? (s : List Char) : Option String :=
  ((dangerousWord.search s).bind (·.piece? .keyword)).map fun p =>
    String.ofList (p.text.map Text.capital)

/-- What makes a text unfit to be run. -/
def violations (sql : String) : List Violation :=
  let s := Text.strip sql.toList
  if s.isEmpty then [.empty]
  else
    (if (readOnlyStart.fitAt (.ofText s)).isSome then [] else [.notSelect]) ++
    (if furtherStatement.occursIn s then [.severalStatements] else []) ++
    (if unionWord.occursIn s then [.union] else []) ++
    ((firstDangerous? s).map .dangerous).toList ++
    (if (lit "--").occursIn s then [.inlineComment] else []) ++
    (if (lit "/*").occursIn s then [.blockComment] else [])

/-- A text may be run. -/
def isSafe (sql : String) : Bool := (violations sql).isEmpty

/-- The explanation of a refusal for so many violations. -/
def rejectionMessage (count : Nat) : String :=
  "SQL rejected by safety checks (" ++ toString count ++ " violation(s))"

end CrmQuery.Sql
