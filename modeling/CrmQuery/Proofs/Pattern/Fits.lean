import CrmQuery.Pattern.Basic
import Mathlib.Order.Nat
import Mathlib.Tactic.Common

/-!
# What patterns fit

`Fits p c d` says that the pattern `p` fits the text between the places `c` and `d`, without any
preference between fits.  What is left of the text never grows (`Fits.length_le`), and it shrinks if
the pattern `consumes` something (`Fits.length_lt`).
-/

namespace CrmQuery

namespace Pattern

/-- The pattern fits the text between two places. -/
inductive Fits : Pattern → Cursor → Cursor → Prop
  | empty (c : Cursor) : Fits .empty c c
  | one {cls : CharClass} {c : Cursor} {x : Char} {rest : List Char} (hrest : c.rest = x :: rest)
      (hx : cls.has x = true) : Fits (.one cls) c (c.step x rest)
  | edge {c : Cursor} (h : c.atEdge = true) : Fits .edge c c
  | seq {p q : Pattern} {c d e : Cursor} (hp : Fits p c d) (hq : Fits q d e) : Fits (.seq p q) c e
  | left {p : Pattern} (q : Pattern) {c d : Cursor} (hp : Fits p c d) : Fits (.either p q) c d
  | right (p : Pattern) {q : Pattern} {c d : Cursor} (hq : Fits q c d) : Fits (.either p q) c d
  | once {p : Pattern} {c d : Cursor} (hp : Fits p c d) : Fits (.many p) c d
  | more {p : Pattern} {c d e : Cursor} (hp : Fits p c d) (hm : Fits (.many p) d e) :
      Fits (.many p) c e
  | part (name : Part) {p : Pattern} {c d : Cursor} (hp : Fits p c d) :
      Fits (.part name p) c (d.remember name c)

/-! ### What is read -/

/-- The pattern does not fit the empty text. -/
def consumes : Pattern → Bool
  | empty | edge => false
  | one _ => true
  | seq p q => p.consumes || q.consumes
  | either p q => p.consumes && q.consumes
  | many p | part _ p => p.consumes

/-- Only parts that do not fit the empty text are repeated. -/
def regular : Pattern → Bool
  | empty | one _ | edge => true
  | seq p q | either p q => p.regular && q.regular
  | many p => p.consumes && p.regular
  | part _ p => p.regular

theorem Fits.length_le {p : Pattern} {c d : Cursor} (h : Fits p c d) :
    d.rest.length ≤ c.rest.length := by
  induction h with
  | empty | edge => exact le_rfl
  | one hrest _ => simp [hrest, Cursor.step]
  | seq _ _ ihp ihq => exact ihq.trans ihp
  | more _ _ ihp ihm => exact ihm.trans ihp
  | left _ _ ih | right _ _ ih | once _ ih => exact ih
  | part _ _ ih => exact ih

theorem Fits.length_lt {p : Pattern} {c d : Cursor} (h : Fits p c d) (hp : p.consumes = true) :
    d.rest.length < c.rest.length := by
  induction h with
  | empty | edge => cases hp
  | one hrest _ => simp [hrest, Cursor.step]
  | seq hp' hq' ihp ihq =>
    rw [consumes, Bool.or_eq_true] at hp
    rcases hp with hp | hq
    · exact hq'.length_le.trans_lt (ihp hp)
    · exact (ihq hq).trans_le hp'.length_le
  | left _ _ ih => exact ih (Bool.and_eq_true_iff.1 hp).1
  | right _ _ ih => exact ih (Bool.and_eq_true_iff.1 hp).2
  | once _ ih => exact ih hp
  | more _ hm ihp _ => exact hm.length_le.trans_lt (ihp hp)
  | part _ _ ih => exact ih hp

end Pattern

end CrmQuery
