import Stencil.Proofs.Rounding
import Stencil.Number.Numeral
import Mathlib.Algebra.Order.Field.Power
import Mathlib.Algebra.Order.Field.Rat
import Mathlib.Tactic.FieldSimp
import Mathlib.Tactic.Positivity
import Mathlib.Tactic.Ring

/-! # Decimals that have a finite double

A decimal is rounded to the nearest double, and the double is finite exactly if the decimal is below
`Double.overflow` in magnitude.  The conversion rounds a quotient only where the number of digits and the
exponent do not settle the matter, so all three ways have to agree.

* `nearest_lt_limit_iff`: the quotients that are rounded to a magnitude in range.
* `Numeral.value`: the exact value of a numeral.
* `isFinite_ofDecimal_iff` and `isFinite_toDouble_iff`: the decimals and numerals that have a finite
  double. -/

namespace Stencil

/-! ### Digits -/

section digits

theorem foldl_digits (start : Nat) (digits : List Nat) :
    digits.foldl (fun n d => 10 * n + d) start = start * 10 ^ digits.length + ofDigits digits := by
  induction digits generalizing start with
  | nil => simp [ofDigits]
  | cons d digits ih =>
    rw [ofDigits, List.foldl_cons, List.foldl_cons, ih, ih (10 * 0 + d), List.length_cons]
    ring

theorem ofDigits_append (front back : List Nat) :
    ofDigits (front ++ back) = ofDigits front * 10 ^ back.length + ofDigits back := by
  rw [ofDigits, List.foldl_append, foldl_digits]
  rfl

theorem ofDigits_cons (d : Nat) (digits : List Nat) :
    ofDigits (d :: digits) = d * 10 ^ digits.length + ofDigits digits := by
  simpa [ofDigits] using ofDigits_append [d] digits

theorem ofDigits_lt {digits : List Nat} (small : ∀ d ∈ digits, d < 10) :
    ofDigits digits < 10 ^ digits.length := by
  induction digits with
  | nil => exact Nat.one_pos
  | cons d digits ih =>
    obtain ⟨hd, later⟩ := List.forall_mem_cons.mp small
    have := ih later
    have := Nat.mul_le_mul_right (10 ^ digits.length) (Nat.le_of_lt_succ hd)
    rw [ofDigits_cons, List.length_cons, pow_succ]
    omega

/-- A first digit that is not zero counts for its place. -/
theorem pow_le_ofDigits {d : Nat} (h : d ≠ 0) (digits : List Nat) :
    10 ^ digits.length ≤ ofDigits (d :: digits) := by
  rw [ofDigits_cons]
  have := Nat.mul_le_mul_right (10 ^ digits.length) (Nat.pos_of_ne_zero h)
  omega

end digits

/-! ### Quotients in range -/

namespace Double

section quotients

attribute [local instance] natPow

variable {num den : Nat}

theorem roundDiv_mul_right (num den : Nat) {k : Nat} (h : 0 < k) :
    roundDiv (num * k) (den * k) = roundDiv num den := by
  have scaled (m : Nat) : 2 * (m * k) < den * k ↔ 2 * m < den := by
    rw [← Nat.mul_assoc, Nat.mul_lt_mul_right h]
  have scaled' (m : Nat) : den * k < 2 * (m * k) ↔ den < 2 * m := by
    rw [← Nat.mul_assoc, Nat.mul_lt_mul_right h]
  simp only [roundDiv, Nat.mul_div_mul_right _ _ h, Nat.mul_mod_mul_right, scaled, scaled']

/-- A quotient is not rounded to less than its whole part. -/
theorem nearest_div_le (h : 0 < den) : nearest (num / den) 1 ≤ nearest num den := by
  rw [nearest, nearest, Nat.div_one, Nat.one_mul]
  apply Nat.mul_le_mul_right
  calc roundDiv (num / den) (step (num / den))
    _ = roundDiv (num / den * den) (step (num / den) * den) := (roundDiv_mul_right _ _ h).symm
    _ ≤ roundDiv num (step (num / den) * den) := roundDiv_mono (Nat.div_mul_le_self num den) _
    _ = roundDiv num (den * step (num / den)) := by rw [Nat.mul_comm den]

/-- Quotients are rounded to magnitudes in range exactly below the bound. -/
theorem nearest_lt_limit_iff (h : 0 < den) :
    nearest num den < limit ↔ num < overflow * one * den := by
  constructor
  · intro fits
    rw [← Nat.div_lt_iff_lt_mul h, ← Nat.not_le]
    intro beyond
    have reached := Nat.le_trans (limit_le_nearest beyond) (nearest_div_le h)
    exact absurd fits (Nat.not_lt.mpr reached)
  · exact nearest_lt_limit

theorem one_pos : 0 < one := by decide +kernel

theorem overflow_pos : 0 < overflow := by decide +kernel

end quotients

/-! ### Decimals in range -/

theorem decimalRatio_pos (digits : Nat) (exponent : Int) : 0 < (decimalRatio digits exponent).2 := by
  rw [decimalRatio]
  split
  · exact Nat.one_pos
  · exact Nat.pow_pos (by omega)

/-- The quotient of a decimal is its exact value in units. -/
theorem decimalRatio_value (digits : Nat) (exponent : Int) :
    ((decimalRatio digits exponent).1 : ℚ)
      = digits * 10 ^ exponent * one * (decimalRatio digits exponent).2 := by
  rw [decimalRatio]
  split
  · rename_i h
    obtain ⟨k, rfl⟩ := Int.eq_ofNat_of_zero_le h
    simp only [Int.toNat_natCast, Nat.cast_mul, Nat.cast_pow, Nat.cast_ofNat, zpow_natCast, Nat.cast_one,
      mul_one]
  · rename_i h
    obtain ⟨k, rfl⟩ : ∃ k : Nat, exponent = -k := ⟨exponent.natAbs, by omega⟩
    simp only [Nat.cast_mul, zpow_neg, zpow_natCast, neg_neg, Int.toNat_natCast, Nat.cast_pow,
      Nat.cast_ofNat]
    rw [mul_right_comm _ (one : ℚ), inv_mul_cancel_right₀ (pow_ne_zero k (by norm_num))]

theorem nearest_decimalRatio_lt_limit_iff {digits : Nat} {exponent : Int} :
    nearest (decimalRatio digits exponent).1 (decimalRatio digits exponent).2 < limit
      ↔ (digits : ℚ) * 10 ^ exponent < overflow := by
  have unit : (0 : ℚ) < one := by exact_mod_cast one_pos
  have den : (0 : ℚ) < (decimalRatio digits exponent).2 := by exact_mod_cast decimalRatio_pos ..
  have exact : nearest (decimalRatio digits exponent).1 (decimalRatio digits exponent).2 < limit
      ↔ ((decimalRatio digits exponent).1 : ℚ) < overflow * one * (decimalRatio digits exponent).2 := by
    rw [nearest_lt_limit_iff (decimalRatio_pos ..)]
    exact_mod_cast Iff.rfl
  rw [exact, decimalRatio_value, mul_lt_mul_iff_left₀ den, mul_lt_mul_iff_left₀ unit]

theorem overflow_lt_zpow : (overflow : ℚ) < 10 ^ (310 : Int) := by
  calc (overflow : ℚ)
    _ < (10 ^ 310 : Nat) := Nat.cast_lt.mpr overflow_lt
    _ = 10 ^ (310 : Int) := by rw [Nat.cast_pow, ← zpow_natCast]; rfl

/-- A decimal whose digits end below the point is below one. -/
theorem decimal_lt_one {digits : List Nat} {exponent : Int} (small : ∀ d ∈ digits, d < 10)
    (tiny : digits.length + exponent ≤ 0) : (ofDigits digits : ℚ) * 10 ^ exponent < 1 := by
  have bound : (ofDigits digits : ℚ) < 10 ^ (digits.length : Int) := by
    rw [zpow_natCast]
    exact_mod_cast ofDigits_lt small
  calc (ofDigits digits : ℚ) * 10 ^ exponent
    _ < 10 ^ (digits.length : Int) * 10 ^ exponent := by gcongr
    _ = 10 ^ (digits.length + exponent) := (zpow_add₀ (by norm_num) _ _).symm
    _ ≤ 1 := zpow_le_one_of_nonpos₀ (by norm_num) tiny

/-- A decimal whose first digit is not zero is not below the power of ten at this digit. -/
theorem zpow_le_decimal {d : Nat} (h : d ≠ 0) (digits : List Nat) (exponent : Int) :
    (10 : ℚ) ^ (digits.length + exponent) ≤ ofDigits (d :: digits) * 10 ^ exponent := by
  rw [zpow_add₀ (by norm_num), zpow_natCast]
  gcongr
  exact_mod_cast pow_le_ofDigits h digits

theorem ofDigits_dropWhile (digits : List Nat) :
    ofDigits (digits.dropWhile (· == 0)) = ofDigits digits := by
  induction digits with
  | nil => rfl
  | cons d digits ih =>
    rw [List.dropWhile_cons]
    split
    · rename_i zero
      rw [ih, beq_iff_eq.mp zero]
      rfl
    · rfl

/-- The decimals that have a finite double. -/
theorem isFinite_ofDecimal_iff {negative : Bool} {digits : List Nat} {exponent : Int}
    (small : ∀ d ∈ digits, d < 10) : (ofDecimal negative digits exponent).isFinite = true
      ↔ (ofDigits digits : ℚ) * 10 ^ exponent < overflow := by
  have least : (1 : ℚ) ≤ overflow := by exact_mod_cast overflow_pos
  have significant : ∀ d ∈ digits.dropWhile (· == 0), d < 10 := fun d hd =>
    small d ((List.dropWhile_sublist _).subset hd)
  have first : ∀ d ∈ (digits.dropWhile (· == 0)).head?, d ≠ 0 := by
    intro d hd
    have stopped := List.head?_dropWhile_not (· == 0) digits
    rw [hd] at stopped
    simpa using stopped
  rw [← ofDigits_dropWhile, ofDecimal]
  dsimp only
  generalize digits.dropWhile (· == 0) = digits at *
  cases digits with
  | nil =>
    refine iff_of_true rfl ?_
    have nothing : (ofDigits [] : ℚ) = 0 := by simp [ofDigits]
    rw [nothing, zero_mul]
    exact zero_lt_one.trans_le least
  | cons d digits =>
    rw [if_neg (by simp)]
    split
    · rename_i tiny
      exact iff_of_true rfl (lt_of_lt_of_le (decimal_lt_one significant (by omega)) least)
    · split
      · rename_i huge
        rw [List.length_cons] at huge
        refine iff_of_false Bool.false_ne_true (not_lt.mpr ?_)
        calc (overflow : ℚ)
          _ ≤ 10 ^ (310 : Int) := overflow_lt_zpow.le
          _ ≤ 10 ^ (digits.length + exponent) := zpow_le_zpow_right₀ (by norm_num) (by omega)
          _ ≤ _ := zpow_le_decimal (first d rfl) digits exponent
      · exact isFinite_ofRatio_iff.trans nearest_decimalRatio_lt_limit_iff

end Double

/-! ### Numerals in range -/

namespace Numeral

/-- The exact value of a numeral. -/
def value (n : Numeral) : ℚ :=
  (if n.negative then -1 else 1)
    * (ofDigits n.whole + ofDigits (n.fraction.getD []) / 10 ^ (n.fraction.getD []).length)
    * 10 ^ n.power

theorem abs_value (n : Numeral) : |n.value|
    = ofDigits (n.whole ++ n.fraction.getD []) * 10 ^ (n.power - (n.fraction.getD []).length) := by
  have sign : |(if n.negative then -1 else 1 : ℚ)| = 1 := by split <;> simp
  rw [value, abs_mul, abs_mul, sign, one_mul, ofDigits_append, zpow_sub₀ (by norm_num), zpow_natCast,
    abs_of_nonneg (by positivity), abs_of_nonneg (by positivity)]
  push_cast
  field_simp

theorem isFinite_toDouble_iff {n : Numeral} (small : ∀ d ∈ n.whole ++ n.fraction.getD [], d < 10) :
    n.toDouble.isFinite = true ↔ |n.value| < Double.overflow := by
  rw [toDouble, Double.isFinite_ofDecimal_iff small, abs_value]

end Numeral
end Stencil
