import Stencil.Comparison
import Stencil.Substitution
import Stencil.Value.Literal

/-! # Values in range

A conversion of a value to a double fails only at an integer that has none.  The integers of some data
have one if they are below `Double.overflow`; the sizes of its strings and lists count among them, because
a path can lead to them.  Integers below that bound have few digits as well, so they can be written.

* `Double.isSome_ofInt?`: the integers below the bound have a double.
* `Value.InRange.resolve`: in such data every path with few digits leads to a value in range.
* `Value.exists_isTruthy`: values that have a double can be tested.
* `Value.InRange.isWritable`: values in range can be written. -/

namespace Stencil

open Text

/-! ### Integers that have a double -/

namespace Double

attribute [local instance] natPow

/-- The least magnitude that rounds to 2^1024: it lies half a step below. -/
def overflow : Nat := 2 ^ (1024 : Nat) - 2 ^ (970 : Nat)

theorem overflow_lt : overflow < 10 ^ (310 : Nat) := by decide +kernel

theorem length_toDigits_le {n : Nat} (h : n < overflow) : (Nat.toDigits 10 n).length ≤ digitCap :=
  Nat.le_trans ((Nat.length_toDigits_le_iff (by omega) (by omega)).mpr (Nat.lt_trans h overflow_lt))
    (show 310 ≤ digitCap by decide)

theorem step_le {num : Nat} (h : num < limit) : step num ≤ 2 ^ (2045 : Nat) := by
  rw [step]
  apply Nat.pow_le_pow_right (by omega)
  by_cases zero : num = 0
  · simp [zero]
  · have := (Nat.log2_lt zero).mpr h
    omega

/-- Quotients below the bound are rounded to magnitudes in range. -/
theorem nearest_lt_limit {num den : Nat} (h : num < overflow * one * den) : nearest num den < limit := by
  -- Rounding moves a quotient by half a step at most, which is just what the bound leaves below the
  -- limit.  The step is named, so that no tactic works the power out.
  obtain ⟨top, e⟩ : ∃ top, top = 2 ^ (2045 : Nat) := ⟨_, rfl⟩
  have bound : 2 * (overflow * one) + top = 2 * limit := by rw [e]; decide +kernel
  have positive : 0 < den := Nat.pos_of_mul_pos_left (Nat.zero_lt_of_lt h)
  have whole : num / den < overflow * one := (Nat.div_lt_iff_lt_mul positive).mpr h
  have narrow : den * step (num / den) ≤ den * top := Nat.mul_le_mul_left den (e ▸ step_le (by omega))
  have near : 2 * (roundDiv num (den * step (num / den)) * (den * step (num / den)))
      ≤ 2 * num + den * step (num / den) := (roundDiv_near (Nat.mul_pos positive (step_pos _))).1
  have scaled : roundDiv num (den * step (num / den)) * (den * step (num / den))
      = den * nearest num den := by rw [nearest, Nat.mul_left_comm]
  have bounds := congrArg (den * ·) bound
  simp only [Nat.mul_add, Nat.mul_left_comm den 2] at bounds
  rw [Nat.mul_comm] at h
  apply Nat.lt_of_mul_lt_mul_left (a := den)
  omega

theorem isFinite_ofRatio_iff {negative : Bool} {num den : Nat} :
    (ofRatio negative num den).isFinite = true ↔ nearest num den < limit := by
  by_cases fits : nearest num den < limit
  · rw [ofRatio, dif_pos fits]
    exact iff_of_true rfl fits
  · rw [ofRatio, dif_neg fits]
    exact iff_of_false Bool.false_ne_true fits

theorem isSome_ofInt?_iff {n : Int} :
    (ofInt? n).isSome = true ↔ nearest (n.natAbs * one) 1 < limit := by
  rw [← isFinite_ofRatio_iff, ofInt?]
  generalize ofRatio (n < 0) (n.natAbs * one) 1 = x
  cases x <;> rfl

/-- The integers below the bound have a double. -/
theorem isSome_ofInt? {n : Int} (h : n.natAbs < overflow) : (ofInt? n).isSome = true :=
  isSome_ofInt?_iff.mpr <| nearest_lt_limit <| by
    rw [Nat.mul_one]
    exact Nat.mul_lt_mul_of_pos_right h (by decide +kernel)

example : ofInt? overflow = none := by decide +kernel

theorem natAbs_signed (negative : Bool) (units : Nat) : (signed negative units).natAbs = units := by
  cases negative <;> simp [signed]

end Double

/-! ### Conversions of values that have a double -/

namespace Value

/-- A value that counts as some double in a comparison. -/
def HasDouble (v : Value) : Prop := ∃ x, v.toDouble = .ok x

theorem hasDouble_int {n : Int} (h : (Double.ofInt? n).isSome = true) : (int n).HasDouble := by
  obtain ⟨x, hx⟩ := Option.isSome_iff_exists.mp h
  refine ⟨x, ?_⟩
  rw [toDouble, doubleOfInt, hx]
  rfl

theorem exists_isTruthy {v : Value} (h : v.HasDouble) : ∃ b, v.isTruthy = .ok b := by
  cases v with
  | int n =>
    obtain ⟨x, hx⟩ := h
    rw [toDouble] at hx
    rw [isTruthy, hx]
    split <;> exact ⟨_, rfl⟩
  | _ => exact ⟨_, rfl⟩

end Value

/-! ### Digits of a text -/

/-- The decimal digits of a text. -/
def Text.digitCount (text : Text) : Nat := text.countP isDecimalDigit

theorem digitCount_le_of_sublist {text whole : Text} (h : text.Sublist whole) :
    digitCount text ≤ digitCount whole := h.countP_le

/-- A part of a text with few digits has few digits. -/
theorem few_of_sublist {text whole : Text} (few : digitCount whole ≤ digitCap)
    (h : text.Sublist whole) : digitCount text ≤ digitCap :=
  Nat.le_trans (digitCount_le_of_sublist h) few

theorem sublist_of_mem_splitOn {separator : Char} {text part : Text}
    (h : part ∈ splitOn separator text) : part.Sublist text := by
  induction text generalizing part with
  | nil =>
    rw [splitOn, List.mem_singleton] at h
    exact h ▸ List.Sublist.refl _
  | cons c text ih =>
    rw [splitOn] at h
    split at h
    · rcases List.mem_cons.mp h with rfl | h
      · exact List.nil_sublist _
      · exact (ih h).cons c
    · split at h
      · rename_i none_left
        exact absurd none_left (splitOn_ne_nil separator text)
      · rename_i first parts e
        rcases List.mem_cons.mp h with rfl | h
        · exact (ih (e ▸ List.mem_cons_self)).cons_cons c
        · exact (ih (e ▸ List.mem_cons_of_mem first h)).cons c

theorem wholeNumber_of_length_le {digits : List Nat} (few : digits.length ≤ digitCap) :
    wholeNumber digits = .ok (ofDigits digits) := if_neg (by omega)

theorem length_of_digitValues? {text : Text} {digits : List Nat}
    (h : digitValues? text = some digits) : digits.length = digitCount text := by
  rw [digitValues?] at h
  split at h
  · simp at h
  · rename_i some_digit
    clear some_digit
    induction text generalizing digits with
    | nil =>
      simp only [List.mapM_nil, Option.pure_def, Option.some.injEq] at h
      rw [← h]
      rfl
    | cons c text ih =>
      rw [List.mapM_cons] at h
      obtain ⟨d, hd, h⟩ := Option.bind_eq_some_iff.mp h
      obtain ⟨ds, hds, h⟩ := Option.bind_eq_some_iff.mp h
      have digit : isDecimalDigit c = true := by rw [isDecimalDigit, hd]; rfl
      rw [← Option.some.inj h, List.length_cons, ih hds, digitCount, digitCount,
        List.countP_cons_of_pos digit]

namespace Value

/-! ### Data in range -/

/-- Data whose integers, at any depth, are below the bound.  The lengths of its strings, lists and tuples
count among them, since a path can ask for a length; those of data that fit into a memory never come
near the bound. -/
inductive InRange : Value → Prop where
  | undefined : InRange undefined
  | null : InRange null
  | bool (b : Bool) : InRange (bool b)
  | int {n : Int} : n.natAbs < Double.overflow → InRange (int n)
  | float (x : Double) : InRange (float x)
  | str {s : Text} : s.length < Double.overflow → InRange (str s)
  | bareword {s : Text} : s.length < Double.overflow → InRange (bareword s)
  | list {items : List Value} : items.length < Double.overflow → (∀ v ∈ items, InRange v) →
      InRange (list items)
  | tuple {items : List Value} : items.length < Double.overflow → (∀ v ∈ items, InRange v) →
      InRange (tuple items)
  | mapping {fields : List (Text × Value)} : (∀ f ∈ fields, InRange f.2) → InRange (mapping fields)

namespace InRange

theorem hasDouble {v : Value} (range : v.InRange) : v.HasDouble := by
  cases range with
  | int h => exact hasDouble_int (Double.isSome_ofInt? h)
  | _ => exact ⟨_, rfl⟩

variable {key : Text}

theorem elementAt (few : digitCount key ≤ digitCap) {items : List Value}
    (short : items.length < Double.overflow) (range : ∀ v ∈ items, v.InRange) :
    ∃ v, elementAt key items = .ok v ∧ v.InRange := by
  rw [Value.elementAt]
  split
  · exact ⟨_, rfl, .int (by simpa using short)⟩
  · split
    · rename_i digits h
      rw [wholeNumber_of_length_le (by rwa [length_of_digitValues? h])]
      refine ⟨_, rfl, ?_⟩
      cases found : items[ofDigits digits]? with
      | none => exact .undefined
      | some v => exact range v (List.mem_of_getElem? found)
    · exact ⟨_, rfl, .undefined⟩

/-- A key with few digits leads from a value in range to another one. -/
theorem child (few : digitCount key ≤ digitCap) {v : Value} (range : v.InRange) :
    ∃ u, v.child key = .ok u ∧ u.InRange := by
  have characters {s : Text} (short : s.length < Double.overflow) :
      ∃ u, Value.elementAt key (s.map fun c => Value.str [c]) = .ok u ∧ u.InRange := by
    refine elementAt few (by simpa using short) fun v hv => ?_
    obtain ⟨c, -, rfl⟩ := List.mem_map.mp hv
    exact .str (show 1 < Double.overflow by decide +kernel)
  cases range with
  | str short => exact characters short
  | bareword short => exact characters short
  | list short items => exact elementAt few short items
  | tuple short items => exact elementAt few short items
  | @mapping fields h =>
    refine ⟨_, rfl, ?_⟩
    cases found : fields.lookup key with
    | none => exact .undefined
    | some u =>
      obtain ⟨front, rest, rfl, -⟩ := List.lookup_eq_some_iff.mp found
      exact h (key, u) (List.mem_append_right _ List.mem_cons_self)
  | _ => exact ⟨_, rfl, .undefined⟩

theorem walk {keys : List Text} (few : ∀ key ∈ keys, digitCount key ≤ digitCap) {v : Value}
    (range : v.InRange) : ∃ u, Value.walk keys v = .ok u ∧ u.InRange := by
  induction keys generalizing v with
  | nil => exact ⟨v, rfl, range⟩
  | cons key keys ih =>
    obtain ⟨hk, later⟩ := List.forall_mem_cons.mp few
    obtain ⟨next, hn, range_next⟩ := child hk range
    rw [Value.walk, List.foldlM_cons, hn]
    exact ih later range_next

/-- A path with few digits leads from a value in range to another one. -/
theorem resolve {path : Text} (few : digitCount path ≤ digitCap) {v : Value} (range : v.InRange) :
    ∃ u, Value.resolve path v = .ok u ∧ u.InRange :=
  walk (fun _ hk => few_of_sublist few (sublist_of_mem_splitOn hk)) range

theorem isWritable {v : Value} (range : v.InRange) : v.isWritable = true := by
  induction range with
  | int small => exact decide_eq_true (Double.length_toDigits_le small)
  | list _ _ ih | tuple _ _ ih => exact areWritable_iff.mpr ih
  | mapping _ ih => exact haveWritable_iff.mpr ih
  | _ => rfl

/-- In data in range a path with few digits leads to a value that can be written. -/
theorem shownAt {path : Text} (few : digitCount path ≤ digitCap) {v : Value} (range : v.InRange) :
    ∃ text, Value.shownAt path v = .ok text := by
  obtain ⟨u, hu, range_u⟩ := range.resolve few
  refine ⟨u.toText, ?_⟩
  rw [Value.shownAt, hu]
  exact shown_of_isWritable range_u.isWritable

end InRange
end Value
end Stencil
