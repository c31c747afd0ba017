import Stencil.Number.Double

/-! # The shortest decimal of a double

`shortest` finds the decimal with the fewest significant digits that is read back as the double.  It
tries 1, 2, … digits: at each number of digits only the two neighbours of the value on that decimal
grid can be read back, and of two that are, the nearer one wins and on a tie the one with the even
last digit.  Seventeen digits are always enough.

`Layout` says how the digits are set: where positional notation ends and how an exponent is
written. -/

namespace Stencil

/-- The decimal `0.d₁d₂… * 10 ^ (exponent + 1)`, so `exponent` belongs to the first digit. -/
structure Decimal where
  digits : Text
  exponent : Int
deriving DecidableEq, Repr

namespace Double

attribute [local instance] natPow

/-- The power of ten at the first digit of a positive magnitude. -/
def leadingExponent (units : Nat) : Int :=
  (Nat.toDigits 10 (units * 10 ^ (400 : Nat) / one)).length - 401

/-- Whether `digits * 10 ^ exponent` is read back as a magnitude. -/
def readsBack (units digits : Nat) (exponent : Int) : Bool :=
  let ratio := decimalRatio digits exponent
  nearest ratio.1 ratio.2 == units

/-- A magnitude measured in `10 ^ exponent`, as a quotient. -/
def onGrid (units : Nat) (exponent : Int) : Nat × Nat :=
  if 0 ≤ exponent then (units, one * 10 ^ exponent.toNat)
  else (units * 10 ^ (-exponent).toNat, one)

/-- The multiple of `10 ^ exponent` that is read back, the nearer one if both neighbours are. -/
def digitsAt? (units : Nat) (exponent : Int) : Option Nat :=
  let ratio := onGrid units exponent
  let low := ratio.1 / ratio.2
  match readsBack units low exponent, readsBack units (low + 1) exponent with
  | true, true => some (roundDiv ratio.1 ratio.2)
  | true, false => some low
  | false, true => some (low + 1)
  | false, false => none

/-- The digits of the shortest decimal of a positive magnitude and the exponent of the last one. -/
def shortestDigits (units : Nat) : Nat × Int :=
  let top := leadingExponent units
  let tryDigits (n : Nat) : Option (Nat × Int) :=
    (digitsAt? units (top - n)).map fun digits => (digits, top - n)
  ((List.range 17).findSome? tryDigits).getD (0, top)

/-- The shortest decimal of a positive magnitude, without zeros at its end. -/
def shortest (units : Nat) : Decimal :=
  let found := shortestDigits units
  let digits := Nat.toDigits 10 found.1
  ⟨(digits.reverse.dropWhile (· == '0')).reverse, found.2 + digits.length - 1⟩

end Double

/-- How decimals are set.  Exponents in a range are written positionally, the others after an `e`
with a sign and a least number of digits. -/
structure Layout where
  lowestPositional : Int
  firstScientific : Int
  exponentWidth : Nat
deriving DecidableEq, Repr

namespace Layout

/-- The digits of a magnitude with at least `width` of them. -/
def padded (width n : Nat) : Text :=
  let digits := Nat.toDigits 10 n
  List.replicate (width - digits.length) '0' ++ digits

/-- Positional notation, with a digit on each side of the point. -/
def positional (x : Decimal) : Text :=
  if x.exponent < 0 then
    '0' :: '.' :: List.replicate (-x.exponent - 1).toNat '0' ++ x.digits
  else
    let before := x.exponent.toNat + 1
    let digits := x.digits ++ List.replicate (before - x.digits.length) '0'
    let behind := digits.drop before
    digits.take before ++ '.' :: (if behind.isEmpty then ['0'] else behind)

/-- One digit, the others behind a point, and the exponent. -/
def scientific (layout : Layout) (x : Decimal) : Text :=
  let behind := x.digits.drop 1
  x.digits.take 1 ++ (if behind.isEmpty then [] else '.' :: behind)
    ++ 'e' :: (if x.exponent < 0 then '-' else '+') :: padded layout.exponentWidth x.exponent.natAbs

/-- A positive decimal as text. -/
def decimalText (layout : Layout) (x : Decimal) : Text :=
  if layout.lowestPositional ≤ x.exponent && x.exponent < layout.firstScientific then
    positional x
  else layout.scientific x

/-- A double as text. -/
def text (layout : Layout) : Double → Text
  | .nan => ['n', 'a', 'n']
  | .infinite negative => (if negative then ['-'] else []) ++ ['i', 'n', 'f']
  | .finite negative units _ =>
    (if negative then ['-'] else [])
      ++ (if units = 0 then ['0', '.', '0'] else layout.decimalText (Double.shortest units))

end Layout
end Stencil
