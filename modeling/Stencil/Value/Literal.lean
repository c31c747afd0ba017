import Stencil.Value.Basic
import Stencil.Number.Numeral
import Stencil.Text.Blank
import Stencil.Fault

/-! # Literals

The right-hand side of a comparison is a literal: a text between equal quotes, a numeral with a
finite double, one of four keywords, or else a bareword.  Blanks around it do not count. -/

namespace Stencil

open Text

namespace Value

/-- The text between a quote and the same quote at the end. -/
def unquote? : Text → Option Text
  | [] => none
  | q :: text =>
    if (q = '"' || q = '\'') && text.getLast? = some q then some text.dropLast else none

/-- The value of a keyword. -/
def keyword? (word : Text) : Option Value :=
  if word = ['t', 'r', 'u', 'e'] then some (bool true)
  else if word = ['f', 'a', 'l', 's', 'e'] then some (bool false)
  else if word = ['n', 'u', 'l', 'l'] then some null
  else if word = ['u', 'n', 'd', 'e', 'f', 'i', 'n', 'e', 'd'] then some undefined
  else none

/-- The value of a numeral: an integer unless it has a point or an exponent. -/
def ofNumeral (n : Numeral) : Except Fault Value :=
  if n.isInteger then do
    let magnitude ← wholeNumber n.whole
    return int (Double.signed n.negative magnitude)
  else .ok (float n.toDouble)

/-- The numeral that a word is, if its double is finite. -/
def finiteNumeral? (word : Text) : Option Numeral :=
  (Numeral.ofText? word).filter fun n => n.toDouble.isFinite

/-- The value of a literal without blanks around it. -/
def ofWord (word : Text) : Except Fault Value :=
  match unquote? word with
  | some s => .ok (str s)
  | none =>
    match finiteNumeral? word with
    | some n => ofNumeral n
    | none => .ok ((keyword? word).getD (bareword word))

/-- The value of a literal. -/
def ofLiteral (text : Text) : Except Fault Value := ofWord (trim text)

end Value
end Stencil
