import Stencil.Text.Search

/-! # Whole numbers as text -/

namespace Stencil

/-- An integer in decimal digits, with a minus sign in front of a negative one. -/
def integerText (n : Int) : Text :=
  if n < 0 then '-' :: Nat.toDigits 10 n.natAbs else Nat.toDigits 10 n.natAbs

end Stencil
