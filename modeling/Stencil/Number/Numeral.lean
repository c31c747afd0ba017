import Stencil.Number.Double

/-! # Numerals

A numeral is an optional sign, digits with at most one point among or around them, and an optional
exponent: `sign? (D+ (. D*)? | . D+) ((e|E) sign? D+)?`, where `D` is a decimal digit of any script.
`Numeral.ofText?` reads a text that is a numeral from end to end. -/

namespace Stencil

/-- The parts of a numeral.  Digits are given by their values. -/
structure Numeral where
  negative : Bool
  whole : List Nat
  /-- The digits behind the point, if there is a point. -/
  fraction : Option (List Nat)
  /-- The sign and the digits of the exponent, if there is one. -/
  exponent : Option (Bool × List Nat)
deriving DecidableEq, Repr

namespace Numeral

/-- Whether a text starts with a minus sign, and what follows its sign. -/
def readSign : Text → Bool × Text
  | '-' :: rest => (true, rest)
  | '+' :: rest => (false, rest)
  | text => (false, text)

/-- The digits that a text starts with, and what follows them. -/
def readDigits : Text → List Nat × Text
  | [] => ([], [])
  | c :: text =>
    match digitValue? c with
    | some d => (readDigits text).map (d :: ·) id
    | none => ([], c :: text)

/-- The exponent that a text is from end to end, or none for the empty text. -/
def readExponent? : Text → Option (Option (Bool × List Nat))
  | [] => some none
  | mark :: text =>
    if mark = 'e' || mark = 'E' then
      let sign := readSign text
      match readDigits sign.2 with
      | (d :: ds, []) => some (some (sign.1, d :: ds))
      | _ => none
    else none

/-- The numeral that a text is. -/
def ofText? (text : Text) : Option Numeral :=
  let sign := readSign text
  let whole := readDigits sign.2
  match whole.2 with
  | '.' :: behind =>
    let fraction := readDigits behind
    if whole.1.isEmpty && fraction.1.isEmpty then none
    else (readExponent? fraction.2).map fun e => ⟨sign.1, whole.1, some fraction.1, e⟩
  | behind =>
    if whole.1.isEmpty then none
    else (readExponent? behind).map fun e => ⟨sign.1, whole.1, none, e⟩

/-- Whether the numeral writes an integer: it has neither point nor exponent. -/
def isInteger (n : Numeral) : Bool := n.fraction.isNone && n.exponent.isNone

/-- The integer that the digits in front of the point write. -/
def toInt (n : Numeral) : Int := Double.signed n.negative (ofDigits n.whole)

/-- The power of ten that the exponent writes. -/
def power (n : Numeral) : Int :=
  match n.exponent with
  | some (negative, digits) => Double.signed negative (ofDigits digits)
  | none => 0

/-- The double nearest to the numeral's value. -/
def toDouble (n : Numeral) : Double :=
  let fraction := n.fraction.getD []
  Double.ofDecimal n.negative (n.whole ++ fraction) (n.power - fraction.length)

end Numeral
end Stencil
