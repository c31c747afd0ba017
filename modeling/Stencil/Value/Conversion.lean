import Stencil.Value.Basic
import Stencil.Number.Numeral
import Stencil.Text.Blank
import Stencil.Fault

/-! # Truth and number of a value

`isTruthy` is the test that a condition without a comparison makes, and `toDouble` is the number that
a value counts as in an ordering or a loose comparison.  Both look at the double of an integer, so
both fail for one that is too large. -/

namespace Stencil

open Text

namespace Value

/-- The double of an integer, which must be in range. -/
def doubleOfInt (n : Int) : Except Fault Double :=
  (Double.ofInt? n).elim (.error .integerTooLarge) .ok

/-- The number that a text writes: zero for a blank text, none for one that is no numeral. -/
def doubleOfText (text : Text) : Double :=
  let word := trim text
  if word.isEmpty then .zero false
  else
    match Numeral.ofText? word with
    | some n => n.toDouble
    | none => .nan

/-- Whether a value is a number. -/
def isNumber : Value → Bool
  | int _ | float _ => true
  | _ => false

/-- Whether a value counts as true.  Only what is missing, false, zero, not a number or the empty
string does not; containers always do. -/
def isTruthy : Value → Except Fault Bool
  | undefined | null => .ok false
  | bool b => .ok b
  | int n => if n = 0 then .ok false else (doubleOfInt n).map fun _ => true
  | float x => .ok (!x.isZero && !x.isNaN)
  | str s | bareword s => .ok !s.isEmpty
  | list _ | tuple _ | mapping _ => .ok true

/-- The number that a value counts as. -/
def toDouble : Value → Except Fault Double
  | undefined | list _ | tuple _ | mapping _ => .ok .nan
  | null => .ok (.zero false)
  | bool b => .ok (if b then .finite false Double.one Double.isMagnitude_one else .zero false)
  | int n => doubleOfInt n
  | float x => .ok x
  | str s | bareword s => .ok (doubleOfText s)

end Value
end Stencil
