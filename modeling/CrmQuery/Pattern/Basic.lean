import CrmQuery.Text.Word
import CrmQuery.Text.Case
import CrmQuery.Text.Digit

/-!
# Patterns

A `Pattern` describes pieces of text.  Where several pieces fit, the order of the alternatives
decides: `either p q` prefers `p`, and `many p` prefers more repetitions to fewer.  `Pattern.run`
walks through the fits in that order until one of them satisfies what follows.  Letters match
regardless of case.  A pattern may remember the text of some of its parts (`Part`).
-/

namespace CrmQuery

open CrmQuery.Text

/-- A set of characters. -/
inductive CharClass where
  /-- The listed characters in every case; each is given in the spelling that `caseKey` picks. -/
  | oneOf (keys : List Char)
  | digit
  | blank
  | nonBlank
  deriving DecidableEq, Repr

/-- Membership of a character in a class. -/
def CharClass.has : CharClass → Char → Bool
  | oneOf keys, c => keys.contains (caseKey c)
  | digit, c => isDigit c
  | blank, c => isBlank c
  | nonBlank, c => !isBlank c

/-- The parts of a phrase whose text a match keeps. -/
inductive Part where
  | keyword
  | qualifier
  | amount
  | count
  | unit
  deriving DecidableEq, Repr

/-- Descriptions of pieces of text. -/
inductive Pattern where
  /-- The empty text. -/
  | empty
  /-- One character of a class. -/
  | one (cls : CharClass)
  /-- The empty text at the beginning or the end of a word. -/
  | edge
  | seq (p q : Pattern)
  /-- A text of `p`, or else one of `q`. -/
  | either (p q : Pattern)
  /-- One or more texts of `p`, as many as possible; `p` itself never fits the empty text. -/
  | many (p : Pattern)
  /-- A text of `p`, which is remembered. -/
  | part (name : Part) (p : Pattern)
  deriving DecidableEq, Repr

instance : Append Pattern := ⟨Pattern.seq⟩

/-- A remembered piece of text: the positions of its two ends, and the text that follows the
first. -/
structure Piece where
  start : Nat
  stop : Nat
  rest : List Char
  deriving DecidableEq, Repr

/-- The characters of a piece. -/
def Piece.text (p : Piece) : List Char := p.rest.take (p.stop - p.start)

/-- A place in a text, and what was remembered on the way to it. -/
structure Cursor where
  /-- The number of characters before the place. -/
  pos : Nat
  /-- The character before the place. -/
  before : Option Char
  rest : List Char
  pieces : List (Part × Piece)
  deriving DecidableEq, Repr

namespace Cursor

/-- The beginning of a text. -/
def ofText (s : List Char) : Cursor := ⟨0, none, s, []⟩

/-- The place after the next character `x`, where `rest` is what follows it. -/
def step (c : Cursor) (x : Char) (rest : List Char) : Cursor :=
  { c with pos := c.pos + 1, before := some x, rest := rest }

/-- A word begins or ends here. -/
def atEdge (c : Cursor) : Bool := isEdge c.before c.rest.head?

/-- Remember the text between an earlier place and this one. -/
def remember (c : Cursor) (name : Part) (since : Cursor) : Cursor :=
  { c with pieces := (name, ⟨since.pos, c.pos, since.rest⟩) :: c.pieces }

end Cursor

namespace Pattern

/-- Between one repetition of a step and as many as the given text has characters, the longest
chain first. -/
def repeated {α : Type} (step : (Cursor → Option α) → Cursor → Option α) :
    List Char → (Cursor → Option α) → Cursor → Option α
  | [], _, _ => none
  | _ :: bound, k, c => step (fun d => (repeated step bound k d).or (k d)) c

/-- The answer of `k` at the first of the places where a fit of the pattern from `c` ends and `k`
has an answer. -/
def run {α : Type} : Pattern → (Cursor → Option α) → Cursor → Option α
  | empty, k, c => k c
  | one cls, k, c =>
    match c.rest with
    | [] => none
    | x :: rest => if cls.has x then k (c.step x rest) else none
  | edge, k, c => if c.atEdge then k c else none
  | seq p q, k, c => p.run (q.run k) c
  | either p q, k, c => (p.run k c).or (q.run k c)
  | many p, k, c => repeated p.run c.rest k c
  | part name p, k, c => p.run (fun d => k (d.remember name c)) c

end Pattern

/-- A piece of a text that a pattern fits, and the parts remembered in it. -/
structure Match where
  start : Nat
  stop : Nat
  pieces : List (Part × Piece)
  deriving DecidableEq, Repr

/-- A remembered part, if the fit went through it. -/
def Match.piece? (m : Match) (name : Part) : Option Piece := m.pieces.lookup name

namespace Pattern

/-- The preferred fit that begins at a place. -/
def fitAt (p : Pattern) (c : Cursor) : Option Match :=
  p.run (fun d => some ⟨c.pos, d.pos, d.pieces⟩) c

/-- The preferred fit at the first place, from the given one on, where there is any. -/
def searchFrom (p : Pattern) (pos : Nat) (before : Option Char) : List Char → Option Match
  | [] => p.fitAt ⟨pos, before, [], []⟩
  | x :: rest =>
    (p.fitAt ⟨pos, before, x :: rest, []⟩).or (p.searchFrom (pos + 1) (some x) rest)

/-- The preferred fit at the first place of a text where there is any. -/
def search (p : Pattern) (s : List Char) : Option Match := p.searchFrom 0 none s

/-- Some piece of the text fits. -/
def occursIn (p : Pattern) (s : List Char) : Bool := (p.search s).isSome

/-- The whole text fits. -/
def fitsAll (p : Pattern) (s : List Char) : Bool :=
  (p.run (fun d => if d.rest.isEmpty then some () else none) (Cursor.ofText s)).isSome

/-- One of the patterns occurs in the text. -/
def anyOccurs (ps : List Pattern) (s : List Char) : Bool := ps.any (·.occursIn s)

/-- The numbers of the patterns that occur in the text, the first being number zero. -/
def occurring (ps : List Pattern) (s : List Char) : List Nat :=
  (ps.zipIdx.filter fun p => p.1.occursIn s).map (·.2)

/-! ### Building patterns -/

/-- A character in any case. -/
def letter (c : Char) : Pattern := one (.oneOf [caseKey c])

/-- A word or a piece of one, in any case. -/
def lit (s : String) : Pattern := s.toList.foldr (fun c p => seq (letter c) p) empty

/-- One of the given characters, in any case. -/
def among (s : String) : Pattern := one (.oneOf (s.toList.map caseKey))

/-- A text of the pattern if there is one, else the empty text. -/
def opt (p : Pattern) : Pattern := either p empty

/-- The first of several alternatives that leads on. -/
def anyOf : List Pattern → Pattern
  | [] => one (.oneOf [])
  | [p] => p
  | p :: ps => either p (anyOf ps)

/-- One or more blanks. -/
def gap : Pattern := many (one .blank)

/-- Any number of blanks. -/
def blanks : Pattern := opt gap

/-- One or more decimal digits. -/
def digits : Pattern := many (one .digit)

/-- A pattern that begins and ends where words do. -/
def whole (p : Pattern) : Pattern := edge ++ p ++ edge

/-- Several words with blanks between them. -/
def phrase : List String → Pattern
  | [] => empty
  | [w] => lit w
  | w :: ws => lit w ++ gap ++ phrase ws

end Pattern

end CrmQuery
