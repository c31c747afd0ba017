import Stencil.Proofs.Range

/-! # Rounding whole numbers

A whole number is rounded to the nearest double, so a larger one is never rounded to less, but two of them
may meet in one double.  Up to 2^53 none do, and from `overflow` on there is no double left.

* `two_pow_le_nearest` and `nearest_le`: rounding stays between the powers of two around a number.
* `nearest_mono`: rounding keeps the order.
* `ofInt?_eq_none_iff`: exactly the numbers from `overflow` on have no double.
* `rounded_mono` and `ofInt?_eq_ofInt?_iff`: the signed magnitude `rounded` keeps the order of the
  integers, and it tells their doubles apart.
* `eq_of_rounded_eq`: integers up to 2^53 are rounded to themselves. -/

namespace Stencil.Double

attribute [local instance] natPow

/-! ### Magnitudes -/

theorem two_pow_le_nearest {n : Nat} (h : n ≠ 0) : 2 ^ n.log2 ≤ nearest n 1 := by
  -- the power is a multiple of the step, and multiples are rounded to themselves
  have split : 2 ^ n.log2 = 2 ^ (n.log2 - (n.log2 - 52)) * step n := by
    rw [step, ← Nat.pow_add]
    congr 1
    omega
  have below := Nat.log2_self_le h
  rw [split] at below ⊢
  have mono := roundDiv_mono below (step n)
  rw [roundDiv_mul_self _ (step_pos n)] at mono
  rw [nearest, Nat.div_one, Nat.one_mul]
  exact Nat.mul_le_mul_right _ mono

theorem log2_mono {m n : Nat} (h : m ≤ n) : m.log2 ≤ n.log2 := by
  by_cases zero : m = 0
  · simp [zero]
  · exact (Nat.le_log2 (by omega)).mpr (Nat.le_trans (Nat.log2_self_le zero) h)

/-- The larger of two numbers is not rounded to less. -/
theorem nearest_mono {m n : Nat} (h : m ≤ n) : nearest m 1 ≤ nearest n 1 := by
  rcases Nat.lt_or_eq_of_le (log2_mono h) with below | same
  · -- a power of two lies between the two numbers
    have positive : n ≠ 0 := by
      rintro rfl
      simp at below
    refine Nat.le_trans ?_ (two_pow_le_nearest positive)
    by_cases short : m.log2 < 52
    · have exact : step m ∣ m := by
        rw [step, show m.log2 - 52 = 0 by omega]
        exact Nat.one_dvd m
      rw [nearest_of_step_dvd exact]
      exact Nat.le_trans (Nat.le_of_lt Nat.lt_log2_self) (Nat.pow_le_pow_right Nat.two_pos below)
    · have le := nearest_le m 1
      rw [Nat.div_one] at le
      exact Nat.le_trans le (Nat.pow_le_pow_right Nat.two_pos (by omega))
  · have step_eq : step m = step n := by rw [step, step, same]
    rw [nearest, nearest, Nat.div_one, Nat.div_one, step_eq, Nat.one_mul]
    exact Nat.mul_le_mul_right _ (roundDiv_mono h _)

theorem nearest_pos {n : Nat} (h : n ≠ 0) : 0 < nearest n 1 :=
  Nat.lt_of_lt_of_le (Nat.two_pow_pos _) (two_pow_le_nearest h)

/-- Magnitudes up to 2^53 whole ones have at most 53 significant bits. -/
theorem nearest_mul_one {n : Nat} (h : n ≤ 2 ^ (53 : Nat)) : nearest (n * one) 1 = n * one := by
  have bound : n * one ≤ 2 ^ (1127 : Nat) := by
    have scaled := Nat.mul_le_mul_right one h
    have e : 2 ^ (53 : Nat) * one = 2 ^ (1127 : Nat) := by decide +kernel
    rwa [e] at scaled
  have multiple : 2 ^ (1074 : Nat) ∣ n * one := Nat.dvd_mul_left one n
  have exponents : 1127 = 1074 + 53 := rfl
  exact nearest_of_step_dvd (step_dvd_of_two_pow_dvd exponents multiple bound)

/-! ### Integers -/

theorem limit_le_nearest {units : Nat} (h : overflow * one ≤ units) : limit ≤ nearest units 1 := by
  have least : nearest (overflow * one) 1 = limit := by decide +kernel
  rw [← least]
  exact nearest_mono h

/-- The integers without a double are those from the bound on. -/
theorem ofInt?_eq_none_iff {n : Int} : ofInt? n = none ↔ overflow ≤ n.natAbs := by
  constructor
  · intro none_there
    rw [← Nat.not_lt]
    intro below
    have := isSome_ofInt? below
    rw [none_there] at this
    cases this
  · intro beyond
    rw [← Option.not_isSome_iff_eq_none, isSome_ofInt?_iff, Nat.not_lt]
    exact limit_le_nearest (Nat.mul_le_mul_right one beyond)

/-- The units of the double nearest to an integer, in a range without ends. -/
def rounded (n : Int) : Int := signed (n < 0) (nearest (n.natAbs * one) 1)

theorem rounded_of_neg {n : Int} (h : n < 0) : rounded n = -(nearest (n.natAbs * one) 1 : Nat) := by
  rw [rounded, signed, decide_eq_true h, if_pos rfl]

theorem rounded_of_nonneg {n : Int} (h : 0 ≤ n) : rounded n = (nearest (n.natAbs * one) 1 : Nat) := by
  rw [rounded, signed, decide_eq_false (by omega), if_neg Bool.false_ne_true]

theorem rounded_neg_iff {n : Int} : rounded n < 0 ↔ n < 0 := by
  by_cases h : n < 0
  · have positive : 0 < nearest (n.natAbs * one) 1 :=
      nearest_pos (Nat.mul_ne_zero (by omega) (by decide +kernel))
    rw [rounded_of_neg h]
    omega
  · rw [rounded_of_nonneg (by omega)]
    omega

/-- The larger of two integers is not rounded to less. -/
theorem rounded_mono {a b : Int} (h : a ≤ b) : rounded a ≤ rounded b := by
  by_cases ha : a < 0
  · by_cases hb : b < 0
    · have mono : nearest (b.natAbs * one) 1 ≤ nearest (a.natAbs * one) 1 :=
        nearest_mono (Nat.mul_le_mul_right one (by omega))
      rw [rounded_of_neg ha, rounded_of_neg hb]
      omega
    · rw [rounded_of_neg ha, rounded_of_nonneg (by omega)]
      omega
  · have mono : nearest (a.natAbs * one) 1 ≤ nearest (b.natAbs * one) 1 :=
      nearest_mono (Nat.mul_le_mul_right one (by omega))
    rw [rounded_of_nonneg (by omega), rounded_of_nonneg (by omega)]
    omega

theorem ofInt?_of_lt {n : Int} (h : n.natAbs < overflow) :
    ofInt? n = some (ofRatio (n < 0) (n.natAbs * one) 1) := by
  obtain ⟨x, found⟩ := Option.isSome_iff_exists.mp (isSome_ofInt? h)
  rw [found]
  exact (Option.filter_eq_some_iff.mp found).1.symm

theorem rank?_of_ofInt? {n : Int} {x : Double} (h : ofInt? n = some x) : x.rank? = some (rounded n) := by
  obtain ⟨e, finite⟩ := Option.filter_eq_some_iff.mp h
  obtain rfl := Option.some.inj e
  rw [ofRatio, dif_pos (isFinite_ofRatio_iff.mp finite)]
  rfl

theorem ofRatio_congr {negative negative' : Bool} {num num' den den' : Nat}
    (hs : negative = negative') (h : nearest num den = nearest num' den') :
    ofRatio negative num den = ofRatio negative' num' den' := by
  simp only [ofRatio, hs, h]

/-- Integers that have a double have the same one if and only if they are rounded alike. -/
theorem ofInt?_eq_ofInt?_iff {a b : Int} (ha : a.natAbs < overflow) (hb : b.natAbs < overflow) :
    ofInt? a = ofInt? b ↔ rounded a = rounded b := by
  have find := ofInt?_of_lt ha
  constructor
  · intro same
    have rank := rank?_of_ofInt? find
    have rank' := rank?_of_ofInt? (same.symm.trans find)
    exact Option.some.inj (rank.symm.trans rank')
  · intro same
    have signs : decide (a < 0) = decide (b < 0) :=
      decide_eq_decide.mpr (by rw [← rounded_neg_iff, same, rounded_neg_iff])
    have units : nearest (a.natAbs * one) 1 = nearest (b.natAbs * one) 1 := by
      have := congrArg Int.natAbs same
      rwa [rounded, rounded, natAbs_signed, natAbs_signed] at this
    rw [find, ofInt?_of_lt hb, ofRatio_congr signs units]

theorem rounded_eq {n : Int} (h : n.natAbs ≤ 2 ^ (53 : Nat)) : rounded n = n * one := by
  have exact := nearest_mul_one h
  by_cases hn : n < 0
  · rw [rounded_of_neg hn, exact, Int.natCast_mul, ← Int.neg_mul]
    congr 1
    omega
  · rw [rounded_of_nonneg (by omega), exact, Int.natCast_mul]
    congr 1
    omega

/-- Integers up to 2^53 have doubles of their own. -/
theorem eq_of_rounded_eq {a b : Int} (ha : a.natAbs ≤ 2 ^ (53 : Nat))
    (hb : b.natAbs ≤ 2 ^ (53 : Nat)) (h : rounded a = rounded b) : a = b := by
  rw [rounded_eq ha, rounded_eq hb] at h
  exact Int.eq_of_mul_eq_mul_right (by decide +kernel) h

end Stencil.Double
