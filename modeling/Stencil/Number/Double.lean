import Stencil.Text.Digit

/-! # Binary floating point

A finite double is a whole number of units of 2^-1074 with a sign, so every comparison is one of
integers and every rounding is one division.  A value has at most 53 significant bits: at the size
of `n` units the neighbours are `step n` units apart.

* `roundDiv` rounds a quotient to the nearest integer and a tie to the even one.
* `nearest` rounds a quotient of units to the nearest double, again with ties to even.
* `isMagnitude_nearest`: what comes out of rounding is the magnitude of a double, unless it is out of
  range.
* `ofDecimal` and `ofInt?` convert decimal and whole numbers; beyond the range a decimal becomes
  infinite and a whole number has no double. -/

namespace Stencil

/-- Powers of natural numbers by repeated multiplication. -/
local instance Double.natPow : Pow Nat Nat := instPowNat

namespace Double

/-! ### Rounding -/

/-- The units in one. -/
def one : Nat := 2 ^ (1074 : Nat)

/-- The units in 2^1024, the first power of two out of range. -/
def limit : Nat := 2 ^ (2098 : Nat)

/-- The distance of neighbouring doubles at the size of `n` units. -/
def step (n : Nat) : Nat := 2 ^ (n.log2 - 52)

/-- The integer nearest to `num / den`, the even one of two. -/
def roundDiv (num den : Nat) : Nat :=
  let q := num / den
  if 2 * (num % den) < den then q
  else if den < 2 * (num % den) then q + 1
  else q + q % 2

/-- The units of the double nearest to `num / den` units, in a range without upper end. -/
def nearest (num den : Nat) : Nat :=
  let s := step (num / den)
  roundDiv num (den * s) * s

/-- The units of a finite double: below 2^1024 and with at most 53 significant bits. -/
structure IsMagnitude (units : Nat) : Prop where
  inRange : units < limit
  step_dvd : step units ∣ units

/-! ### What rounding keeps -/

theorem step_pos (n : Nat) : 0 < step n := Nat.two_pow_pos _

/-- The rounded quotient is within half a unit. -/
theorem roundDiv_near {num den : Nat} (h : 0 < den) :
    2 * (roundDiv num den * den) ≤ 2 * num + den
      ∧ 2 * num ≤ 2 * (roundDiv num den * den) + den := by
  have e := Nat.div_add_mod num den
  have l := Nat.mod_lt num h
  rw [Nat.mul_comm den] at e
  unfold roundDiv
  dsimp only
  split
  · omega
  · split
    · rw [Nat.add_mul, Nat.one_mul]
      omega
    · rcases Nat.mod_two_eq_zero_or_one (num / den) with h2 | h2
      · rw [h2, Nat.add_zero]
        omega
      · rw [h2, Nat.add_mul, Nat.one_mul]
        omega

theorem roundDiv_mul_self (q : Nat) {den : Nat} (h : 0 < den) : roundDiv (q * den) den = q := by
  simp [roundDiv, Nat.mul_mod_left, Nat.mul_div_cancel _ h, h]

/-- A number with at most 53 significant bits is rounded to itself. -/
theorem nearest_of_step_dvd {n : Nat} (h : step n ∣ n) : nearest n 1 = n := by
  obtain ⟨k, hk⟩ := h
  have exact : roundDiv n (step n) = k := by
    conv => lhs; arg 1; rw [hk, Nat.mul_comm]
    exact roundDiv_mul_self k (step_pos n)
  rw [nearest, Nat.div_one, Nat.one_mul, exact, Nat.mul_comm, ← hk]

theorem roundDiv_bounds (num den : Nat) :
    num / den ≤ roundDiv num den ∧ roundDiv num den ≤ num / den + 1 := by
  unfold roundDiv
  dsimp only
  split
  · omega
  · split <;> omega

/-- The larger of two quotients of one denominator is not rounded to less. -/
theorem roundDiv_mono {num num' : Nat} (h : num ≤ num') (den : Nat) :
    roundDiv num den ≤ roundDiv num' den := by
  rcases Nat.lt_or_eq_of_le (Nat.div_le_div_right (c := den) h) with below | same
  · have := (roundDiv_bounds num den).2
    have := (roundDiv_bounds num' den).1
    omega
  · have larger : num % den ≤ num' % den := by
      have e := Nat.div_add_mod num den
      have e' := Nat.div_add_mod num' den
      rw [same] at e
      omega
    unfold roundDiv
    dsimp only
    rw [same]
    (repeat' split) <;> omega

/-- A multiple of a power of two has at most 53 significant bits, up to 2^53 times that power. -/
theorem step_dvd_of_two_pow_dvd {n e top : Nat} (ht : top = e + 53) (h : 2 ^ e ∣ n)
    (le : n ≤ 2 ^ top) : step n ∣ n := by
  rcases Nat.lt_or_eq_of_le le with below | rfl
  · by_cases zero : n = 0
    · simp [zero]
    · have : n.log2 < top := (Nat.log2_lt zero).mpr below
      exact Nat.dvd_trans (Nat.pow_dvd_pow 2 (by omega)) h
  · rw [step, Nat.log2_two_pow]
    exact Nat.pow_dvd_pow 2 (by omega)

/-- Rounding goes up to the next power of two at most. -/
theorem nearest_le (num den : Nat) :
    nearest num den ≤ 2 ^ ((num / den).log2 - 52 + 53) := by
  have small : roundDiv num (den * step (num / den)) ≤ 2 ^ 53 := by
    rcases Nat.eq_zero_or_pos den with rfl | pos
    · have := (roundDiv_bounds num 0).2
      rw [Nat.div_zero] at this
      rw [Nat.zero_mul]
      omega
    · have below : num / den < 2 ^ 53 * step (num / den) := by
        have := Nat.lt_log2_self (n := num / den)
        rw [step, ← Nat.pow_add]
        exact Nat.lt_of_lt_of_le this (Nat.pow_le_pow_right Nat.two_pos (by omega))
      have le : num ≤ 2 ^ 53 * (den * step (num / den)) := by
        rw [Nat.mul_left_comm, Nat.mul_comm den]
        exact Nat.le_of_lt ((Nat.div_lt_iff_lt_mul pos).mp below)
      have mono := roundDiv_mono le (den * step (num / den))
      rwa [roundDiv_mul_self _ (Nat.mul_pos pos (step_pos _))] at mono
  rw [Nat.pow_add, Nat.mul_comm]
  exact Nat.mul_le_mul_right _ small

/-- A magnitude that comes out of rounding is one of a double, unless it is out of range. -/
theorem isMagnitude_nearest {num den : Nat} (h : nearest num den < limit) :
    IsMagnitude (nearest num den) :=
  ⟨h, step_dvd_of_two_pow_dvd rfl (Nat.dvd_mul_left _ _) (nearest_le num den)⟩

end Double

/-- A binary64 value.  The magnitude of a finite one counts units of 2^-1074. -/
inductive Double where
  | nan
  | infinite (negative : Bool)
  | finite (negative : Bool) (units : Nat) (isMagnitude : Double.IsMagnitude units)
deriving DecidableEq, Repr

namespace Double

/-! ### Conversions -/

/-- Zero with a sign. -/
def zero (negative : Bool) : Double := finite negative 0 ⟨by decide +kernel, Nat.dvd_zero _⟩

theorem isMagnitude_one : IsMagnitude one := ⟨by decide +kernel, by decide +kernel⟩

/-- The double nearest to `num / den` units. -/
def ofRatio (negative : Bool) (num den : Nat) : Double :=
  if h : nearest num den < limit then finite negative (nearest num den) (isMagnitude_nearest h)
  else infinite negative

/-- The units of a decimal `digits * 10 ^ exponent`, as a quotient. -/
def decimalRatio (digits : Nat) (exponent : Int) : Nat × Nat :=
  if 0 ≤ exponent then (digits * 10 ^ exponent.toNat * one, 1)
  else (digits * one, 10 ^ (-exponent).toNat)

/-- The double nearest to a decimal.  The number of significant digits and the exponent decide at
once where the decimal lies far out of range. -/
def ofDecimal (negative : Bool) (digits : List Nat) (exponent : Int) : Double :=
  let digits := digits.dropWhile (· == 0)
  if digits.isEmpty then zero negative
  else if digits.length + exponent < -330 then zero negative
  else if 310 < digits.length + exponent then infinite negative
  else
    let ratio := decimalRatio (ofDigits digits) exponent
    ofRatio negative ratio.1 ratio.2

def isFinite : Double → Bool
  | finite .. => true
  | _ => false

/-- The double nearest to a whole number, unless it is out of range. -/
def ofInt? (n : Int) : Option Double :=
  (some (ofRatio (n < 0) (n.natAbs * one) 1)).filter isFinite

/-! ### Comparison -/

def isNaN (x : Double) : Bool := x == nan

def isZero : Double → Bool
  | finite _ units _ => units == 0
  | _ => false

/-- A magnitude with its sign. -/
def signed (negative : Bool) (units : Nat) : Int := if negative then -(units : Int) else units

/-- The place of a double in the order; the infinities stand at the ends of the range, and a value
that is not a number has no place. -/
def rank? : Double → Option Int
  | nan => none
  | infinite negative => some (signed negative limit)
  | finite negative units _ => some (signed negative units)

/-- Applies a relation to the places of two doubles; nothing relates a value without a place. -/
def related (r : Int → Int → Bool) (x y : Double) : Bool :=
  match x.rank?, y.rank? with
  | some a, some b => r a b
  | _, _ => false

def equal (x y : Double) : Bool := related (· == ·) x y

def less (x y : Double) : Bool := related (fun a b => decide (a < b)) x y

def atMost (x y : Double) : Bool := related (fun a b => decide (a ≤ b)) x y

/-- Exact equality with a whole number. -/
def equalsInt (x : Double) (n : Int) : Bool :=
  match x with
  | finite negative units _ => signed negative units == n * one
  | _ => false

/-- The whole number that a double is, if it is one. -/
def toInt? : Double → Option Int
  | finite negative units _ =>
    if units % one = 0 then some (signed negative (units / one)) else none
  | _ => none

end Double
end Stencil
