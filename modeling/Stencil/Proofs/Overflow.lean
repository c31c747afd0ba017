import Stencil.Proofs.Rounding

/-! # Comparisons that overflow

A comparison fails in one way: it needs the double of an integer that has none.  The orderings need the
doubles of both sides, unless these are two strings, and so does a text that is no operator.  The
strict equalities need none, and the loose ones only where a number meets a string or a truth value.

* `OverflowsIff`: a result is there, or it is an overflow, and the condition says which.
* `toDouble_overflows`, `order?_overflows` and `looselyEqual_overflows`: the conversion, the orderings
  and the loose equalities.
* `compareBy_overflows`: every operator text on every two values.
* `exists_compare`: values that have a double can be compared. -/

namespace Stencil

open Text

theorem Operator.text_of_ofText? {text : Text} {op : Operator} (h : ofText? text = some op) :
    op.text = text := by
  have found : all.find? (fun op => op.text == text) = some op := h
  have written := List.find?_some found
  exact beq_iff_eq.mp written

/-! ### Overflow under a condition -/

/-- A computation that overflows under a condition and has a result otherwise. -/
def OverflowsIff {α : Type} (condition : Prop) (outcome : Except Fault α) : Prop :=
  outcome = .error .integerTooLarge ∧ condition ∨ (∃ result, outcome = .ok result) ∧ ¬ condition

namespace OverflowsIff
variable {α β γ : Type} {p q : Prop} {outcome : Except Fault α} {other : Except Fault β}

theorem ok {result : α} (h : ¬ p) : OverflowsIff p (.ok result : Except Fault α) :=
  .inr ⟨⟨result, rfl⟩, h⟩

theorem of_iff (h : OverflowsIff p outcome) (same : p ↔ q) : OverflowsIff q outcome := by
  rwa [OverflowsIff, ← same]

theorem map (h : OverflowsIff p outcome) (f : α → β) : OverflowsIff p (outcome.map f) := by
  obtain ⟨rfl, hp⟩ | ⟨⟨result, rfl⟩, hp⟩ := h
  · exact .inl ⟨rfl, hp⟩
  · exact ok hp

/-- Of two computations in a row each can overflow. -/
theorem both (h : OverflowsIff p outcome) (h' : OverflowsIff q other) (f : α → β → γ) :
    OverflowsIff (p ∨ q) (do let x ← outcome; let y ← other; return f x y) := by
  obtain ⟨rfl, hp⟩ | ⟨⟨x, rfl⟩, hp⟩ := h
  · exact .inl ⟨rfl, .inl hp⟩
  · obtain ⟨rfl, hq⟩ | ⟨⟨y, rfl⟩, hq⟩ := h'
    · exact .inl ⟨rfl, .inr hq⟩
    · exact ok (not_or.mpr ⟨hp, hq⟩)

end OverflowsIff

namespace Value

/-! ### Conversions -/

/-- An integer of at least 2^1024 - 2^970 in magnitude, which has no double. -/
def IsHuge : Value → Prop
  | int n => Double.overflow ≤ n.natAbs
  | _ => False

/-- A string or a truth value, which meets a number in a loose comparison as a double. -/
def IsConverted (v : Value) : Prop := v.family = .string ∨ v.family = .boolean

theorem IsHuge.family {v : Value} (h : v.IsHuge) : v.family = .number := by
  cases v with
  | int n => rfl
  | _ => exact h.elim

theorem not_isHuge_of_text? {v : Value} {s : Text} (h : v.text? = some s) : ¬ v.IsHuge := by
  cases v with
  | str | bareword => exact id
  | _ => cases h

theorem toDouble_overflows (v : Value) : OverflowsIff v.IsHuge v.toDouble := by
  cases v with
  | int n =>
    rw [toDouble, doubleOfInt]
    cases found : Double.ofInt? n with
    | none => exact .inl ⟨rfl, Double.ofInt?_eq_none_iff.mp found⟩
    | some x =>
      refine .ok fun huge => ?_
      rw [Double.ofInt?_eq_none_iff.mpr huge] at found
      cases found
  | _ => exact .ok id

theorem not_isHuge_of_hasDouble {v : Value} (h : v.HasDouble) : ¬ v.IsHuge := by
  obtain ⟨x, found⟩ := h
  obtain ⟨overflow, -⟩ | ⟨-, small⟩ := v.toDouble_overflows
  · rw [overflow] at found
    cases found
  · exact small

variable (left right : Value)

/-- An ordering overflows at every integer without a double. -/
theorem order?_overflows : OverflowsIff (left.IsHuge ∨ right.IsHuge) (order? left right) := by
  rw [order?]
  split
  · rename_i hs ht
    exact .ok (not_or.mpr ⟨not_isHuge_of_text? hs, not_isHuge_of_text? ht⟩)
  · exact left.toDouble_overflows.both right.toDouble_overflows Double.order?

/-- A number or a value that is converted to one. -/
def IsComparable (v : Value) : Prop := v.family ∈ [.boolean, .number, .string]

theorem isComparable_iff {v : Value} :
    v.IsComparable ↔ v.isMissing = false ∧ v.family ≠ .container := by
  rw [IsComparable, isMissing]
  cases v.family <;> decide

/-- Two values that loose equality compares as doubles. -/
def MeetAsDoubles : Prop :=
  left.family ≠ right.family ∧ left.IsComparable ∧ right.IsComparable

variable {left right}

theorem looselyEqual_of_meet (h : left.MeetAsDoubles right) (shared : Bool) :
    looselyEqual shared left right
      = do let x ← left.toDouble; let y ← right.toDouble; return x.equal y := by
  obtain ⟨differ, hl, hr⟩ := h
  obtain ⟨present, plain⟩ := isComparable_iff.mp hl
  obtain ⟨present', plain'⟩ := isComparable_iff.mp hr
  simp [looselyEqual, differ, present, present', plain, plain']

theorem exists_looselyEqual_of_not_meet (h : ¬ left.MeetAsDoubles right) (shared : Bool) :
    ∃ equal, looselyEqual shared left right = .ok equal := by
  rw [looselyEqual]
  split
  · exact ⟨_, rfl⟩
  · split
    · exact ⟨_, rfl⟩
    · split
      · exact ⟨_, rfl⟩
      · rename_i differ present plain
        rw [Bool.or_eq_true, not_or, Bool.not_eq_true, Bool.not_eq_true] at present
        rw [Bool.or_eq_true, not_or, decide_eq_true_eq, decide_eq_true_eq] at plain
        exact absurd ⟨differ, isComparable_iff.mpr ⟨present.1, plain.1⟩,
          isComparable_iff.mpr ⟨present.2, plain.2⟩⟩ h

variable (left right)

/-- A loose equality overflows at an integer without a double if the other side is converted. -/
theorem looselyEqual_overflows (shared : Bool) :
    OverflowsIff (left.IsHuge ∧ right.IsConverted ∨ right.IsHuge ∧ left.IsConverted)
      (looselyEqual shared left right) := by
  by_cases meet : left.MeetAsDoubles right
  · rw [looselyEqual_of_meet meet]
    refine (left.toDouble_overflows.both right.toDouble_overflows Double.equal).of_iff ?_
    obtain ⟨differ, hl, hr⟩ := meet
    constructor
    · rintro (huge | huge)
      · refine .inl ⟨huge, ?_⟩
        rw [huge.family] at differ
        simpa [IsConverted, IsComparable, differ.symm, or_comm] using hr
      · refine .inr ⟨huge, ?_⟩
        rw [huge.family] at differ
        simpa [IsConverted, IsComparable, differ, or_comm] using hl
    · rintro (⟨huge, -⟩ | ⟨huge, -⟩)
      · exact .inl huge
      · exact .inr huge
  · refine .inr ⟨exists_looselyEqual_of_not_meet meet shared, fun clash => meet ?_⟩
    rcases clash with ⟨huge, string | boolean⟩ | ⟨huge, string | boolean⟩
    all_goals simp_all [MeetAsDoubles, IsComparable, huge.family]

/-! ### Operators -/

/-- The operators that test whether two values are equal. -/
def equalities : List Text :=
  [Operator.strictlyEqual.text, Operator.strictlyUnequal.text, Operator.equal.text,
    Operator.unequal.text]

/-- Those of them that convert their operands. -/
def looseEqualities : List Text := [Operator.equal.text, Operator.unequal.text]

/-- One side is an integer without a double, and the operator needs it. -/
def Overflows (op : Text) : Prop :=
  (left.IsHuge ∨ right.IsHuge)
    ∧ (op ∉ equalities ∨ op ∈ looseEqualities
      ∧ (left.IsHuge ∧ right.IsConverted ∨ right.IsHuge ∧ left.IsConverted))

variable {left right}

theorem overflows_iff_of_notMem {op : Text} (h : op ∉ equalities) :
    left.Overflows right op ↔ left.IsHuge ∨ right.IsHuge := by
  simp [Overflows, h]

theorem overflows_iff_of_mem {op : Text} (h : op ∈ looseEqualities) : left.Overflows right op
    ↔ left.IsHuge ∧ right.IsConverted ∨ right.IsHuge ∧ left.IsConverted := by
  have strict : op ∈ equalities := List.mem_of_mem_drop (i := 2) h
  simp only [Overflows, h, strict, not_true, false_or, true_and]
  constructor
  · exact And.right
  · intro clash
    exact ⟨clash.imp And.left And.left, clash⟩

theorem not_overflows_strictly {op : Text} (h : op ∈ equalities) (h' : op ∉ looseEqualities) :
    ¬ left.Overflows right op := by
  rintro ⟨-, other | ⟨loose, -⟩⟩
  · exact other h
  · exact h' loose

variable (left right)

theorem compareWith_overflows (shared : Bool) (op : Operator) :
    OverflowsIff (left.Overflows right op.text) (compareWith shared op left right) := by
  have ordered := (order?_overflows left right).map fun o => o.any op.accepts
  have loose := looselyEqual_overflows left right shared
  cases op with
  | strictlyEqual | strictlyUnequal => exact .ok (not_overflows_strictly (by decide) (by decide))
  | equal => exact loose.of_iff (overflows_iff_of_mem (by decide)).symm
  | unequal => exact (loose.map (!·)).of_iff (overflows_iff_of_mem (by decide)).symm
  | atLeast | atMost | greater | less =>
    exact ordered.of_iff (overflows_iff_of_notMem (by decide)).symm

/-- **When a comparison fails.**  Whatever the operator is, known or not, a comparison overflows exactly
where an integer without a double is to be converted, and otherwise it has a result. -/
theorem compareBy_overflows (shared : Bool) (op : Text) :
    OverflowsIff (left.Overflows right op) (compareBy shared op left right) := by
  rw [compareBy]
  cases found : Operator.ofText? op with
  | some known =>
    rw [← Operator.text_of_ofText? found]
    exact compareWith_overflows left right shared known
  | none =>
    have unknown : op ∉ equalities := by
      intro h
      have all_known := List.find?_eq_none.mp found
      simp only [equalities, List.mem_cons, List.not_mem_nil, or_false] at h
      rcases h with rfl | rfl | rfl | rfl <;> exact all_known _ (Operator.mem_all _) (beq_self_eq_true _)
    exact ((order?_overflows left right).map _).of_iff (overflows_iff_of_notMem unknown).symm

/-- Values that have a double can be compared. -/
theorem exists_compare {left right : Value} (hl : left.HasDouble) (hr : right.HasDouble)
    (op : Operator) : ∃ holds, compare op left right = .ok holds := by
  obtain ⟨-, huge, -⟩ | ⟨found, -⟩ := compareWith_overflows left right false op
  · rcases huge with huge | huge
    · exact absurd huge (not_isHuge_of_hasDouble hl)
    · exact absurd huge (not_isHuge_of_hasDouble hr)
  · exact found

end Value
end Stencil
