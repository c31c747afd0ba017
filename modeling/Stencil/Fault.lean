import Stencil.Text.Digit

/-! # Faults

Rendering fails in three ways only: a whole number has no double although a comparison or a test for
truth needs one, a whole number is written with more digits than are read, or it has more digits than
are written where its text is put in. -/

namespace Stencil

/-- Why rendering failed.  A number that is read comes with the number of its digits, one that is to be
written does not. -/
inductive Fault where
  | integerTooLarge
  | digitLimit (digits : Option Nat)
deriving DecidableEq, Repr

/-- The most digits of a whole number that are read or written. -/
def digitCap : Nat := 4300

namespace Fault

/-- The wording of a fault. -/
def message : Fault → Text
  | integerTooLarge => "int too large to convert to float".toList
  | digitLimit digits =>
    let found := match digits with
      | some digits => ": value has ".toList ++ Nat.toDigits 10 digits ++ " digits".toList
      | none => []
    "Exceeds the limit (".toList ++ Nat.toDigits 10 digitCap
      ++ " digits) for integer string conversion".toList ++ found
      ++ "; use sys.set_int_max_str_digits() to increase the limit".toList

end Fault

/-- The whole number that digits write, unless there are too many of them. -/
def wholeNumber (digits : List Nat) : Except Fault Nat :=
  if digitCap < digits.length then .error (.digitLimit (some digits.length))
  else .ok (ofDigits digits)

end Stencil
