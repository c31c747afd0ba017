import Stencil.Proofs.Overflow
import Mathlib.Order.Compare

/-! # Laws of the comparisons

Strict equality compares the identities of two values: their exact values if they are numbers, and
their characters if they are strings.  The orderings compare texts or doubles, so they obey the laws
of an order as long as both sides have a place in it; integers are rounded on the way.

* `strictlyEqual_iff`: separate values are strictly equal if they have the same identity.
* `compare_converse`: an operator holds of two values if its converse holds of them in the other order.
* `orderingsFit`: what the four orderings say of two values fits together.
* `compare_plain_left` and `compare_plain_right`: a bareword compares like a string.
* `compare_laws`: these laws, and those of strict equality.
* `compare_int`: what equality and the orderings say of two integers. -/

namespace Stencil

open Text

/-! ### The other way round -/

/-- The operator that holds of two values whenever the given one holds of them in the other order. -/
def Operator.converse : Operator → Operator
  | atLeast => atMost
  | atMost => atLeast
  | greater => less
  | less => greater
  | op => op

theorem Operator.accepts_converse (op : Operator) (o : Ordering) :
    op.converse.accepts o.swap = op.accepts o := by
  cases op <;> cases o <;> rfl

theorem Text.order_swap (s t : Text) : (order s t).swap = order t s := by
  induction s generalizing t with
  | nil => cases t <;> rfl
  | cons c s ih =>
    cases t with
    | nil => rfl
    | cons d t => rw [order, order, Ordering.swap_then, Nat.compare_swap, ih]

theorem Double.order?_swap (x y : Double) : (order? x y).map Ordering.swap = order? y x := by
  unfold order?
  cases x.rank? with
  | none => cases y.rank? <;> rfl
  | some a =>
    cases y.rank? with
    | none => rfl
    | some b => exact congrArg some (Int.compare_swap a b)

/-- Two computations that fail in one way only can be made in either order. -/
theorem bind_comm_of_overflows {α β γ : Type} {p q : Prop} {outcome : Except Fault α}
    {other : Except Fault β} (h : OverflowsIff p outcome) (h' : OverflowsIff q other)
    (f : α → β → γ) : (do let x ← outcome; let y ← other; return f x y)
      = do let y ← other; let x ← outcome; return f x y := by
  obtain ⟨rfl, -⟩ | ⟨⟨x, rfl⟩, -⟩ := h
  · obtain ⟨rfl, -⟩ | ⟨⟨y, rfl⟩, -⟩ := h' <;> rfl
  · obtain ⟨rfl, -⟩ | ⟨⟨y, rfl⟩, -⟩ := h' <;> rfl

/-! ### What strict equality compares -/

/-- What makes a value the same as another one.  Numbers have their exact values, in units of 2^-1074,
and strings their characters. -/
inductive Identity where
  | undefined
  | null
  | boolean (b : Bool)
  | number (units : Int)
  | infinite (negative : Bool)
  | string (s : Text)

/-- Both of two optional values are there and are the same. -/
def Agree {α : Type} (x y : Option α) : Prop := ∃ i, x = some i ∧ y = some i

section agree
variable {α : Type} {x y z : Option α} {a b : α}

@[simp] theorem agree_some_iff : Agree (some a) y ↔ y = some a := by
  simp [Agree]

@[simp] theorem agree_some_iff' : Agree x (some b) ↔ x = some b := by
  simp [Agree]

@[simp] theorem not_agree_none : ¬ Agree none y := fun ⟨_, h, _⟩ => by cases h

@[simp] theorem not_agree_none' : ¬ Agree x none := fun ⟨_, _, h⟩ => by cases h

theorem agree_comm : Agree x y ↔ Agree y x := by
  simp only [Agree, and_comm]

theorem Agree.trans (h : Agree x y) (h' : Agree y z) : Agree x z := by
  obtain ⟨i, hx, hy⟩ := h
  obtain ⟨j, hy', hz⟩ := h'
  obtain rfl := Option.some.inj (hy.symm.trans hy')
  exact ⟨i, hx, hz⟩

end agree

namespace Double

/-- The identity of a double that is a number. -/
def identity? : Double → Option Identity
  | nan => none
  | infinite negative => some (.infinite negative)
  | finite negative units _ => some (.number (signed negative units))

theorem signed_limit_eq_iff {negative negative' : Bool} :
    signed negative limit = signed negative' limit ↔ negative = negative' := by
  have positive : 0 < limit := by decide +kernel
  unfold signed
  generalize limit = top at *
  cases negative <;> cases negative' <;> simp <;> omega

/-- The infinities stand apart from all finite doubles. -/
theorem signed_limit_ne {negative negative' : Bool} {units : Nat} (h : IsMagnitude units) :
    signed negative limit ≠ signed negative' units := by
  intro same
  have magnitudes := congrArg Int.natAbs same
  rw [natAbs_signed, natAbs_signed] at magnitudes
  exact absurd h.inRange (by omega)

theorem equal_iff_rank (x y : Double) : x.equal y = true ↔ Agree x.rank? y.rank? := by
  unfold equal related
  cases x.rank? with
  | none => exact iff_of_false Bool.false_ne_true not_agree_none
  | some a =>
    cases y.rank? with
    | none => exact iff_of_false Bool.false_ne_true not_agree_none'
    | some b =>
      rw [agree_some_iff, Option.some.injEq, @eq_comm _ b]
      exact beq_iff_eq

theorem equal_comm (x y : Double) : x.equal y = y.equal x :=
  Bool.eq_iff_iff.mpr (by rw [equal_iff_rank, equal_iff_rank, agree_comm])

theorem agree_rank?_iff (x y : Double) : Agree x.rank? y.rank? ↔ Agree x.identity? y.identity? := by
  cases x with
  | nan => exact iff_of_false not_agree_none not_agree_none
  | infinite negative =>
    cases y with
    | nan => exact iff_of_false not_agree_none' not_agree_none'
    | infinite negative' => simp only [rank?, identity?, agree_some_iff, Option.some.injEq,
        signed_limit_eq_iff, Identity.infinite.injEq]
    | finite negative' units h => simp only [rank?, identity?, agree_some_iff, Option.some.injEq,
        (signed_limit_ne h).symm, reduceCtorEq]
  | finite negative units h =>
    cases y with
    | nan => exact iff_of_false not_agree_none' not_agree_none'
    | infinite negative' => simp only [rank?, identity?, agree_some_iff, Option.some.injEq,
        signed_limit_ne h, reduceCtorEq]
    | finite negative' units' h' => simp only [rank?, identity?, agree_some_iff, Option.some.injEq,
        Identity.number.injEq]

@[simp] theorem equal_iff (x y : Double) : x.equal y = true ↔ Agree x.identity? y.identity? :=
  (equal_iff_rank x y).trans (agree_rank?_iff x y)

/-- The units in an integer. -/
def unitsOf (n : Int) : Int := n * one

@[simp] theorem unitsOf_inj {m n : Int} : unitsOf m = unitsOf n ↔ m = n :=
  ⟨Int.eq_of_mul_eq_mul_right (by decide +kernel), fun same => by rw [same]⟩

@[simp] theorem equalsInt_iff (x : Double) (n : Int) :
    x.equalsInt n = true ↔ x.identity? = some (.number (unitsOf n)) := by
  cases x with
  | nan | infinite => exact iff_of_false Bool.false_ne_true nofun
  | finite =>
    rw [identity?, Option.some.injEq, Identity.number.injEq]
    exact beq_iff_eq

@[simp] theorem identity?_ne (x : Double) :
    x.identity? ≠ some .undefined ∧ x.identity? ≠ some .null
      ∧ (∀ b, x.identity? ≠ some (.boolean b)) ∧ ∀ s, x.identity? ≠ some (.string s) := by
  cases x <;> simp [identity?]

end Double

namespace Value

/-- The identity of a value.  Containers have none: two that are separate are never the same. -/
def identity? : Value → Option Identity
  | undefined => some .undefined
  | null => some .null
  | bool b => some (.boolean b)
  | int n => some (.number (Double.unitsOf n))
  | float x => x.identity?
  | str s | bareword s => some (.string s)
  | list _ | tuple _ | mapping _ => none

theorem strictlyEqual_iff (a b : Value) :
    strictlyEqual false a b = true ↔ Agree a.identity? b.identity? := by
  cases a <;> cases b <;> simp [strictlyEqual, identity?]

theorem strictlyEqual_comm (a b : Value) : strictlyEqual false a b = strictlyEqual false b a :=
  Bool.eq_iff_iff.mpr (by rw [strictlyEqual_iff, strictlyEqual_iff, agree_comm])

theorem strictlyEqual_trans {a b c : Value} (h : strictlyEqual false a b = true)
    (h' : strictlyEqual false b c = true) : strictlyEqual false a c = true := by
  rw [strictlyEqual_iff] at h h' ⊢
  exact h.trans h'

theorem family_eq_of_strictlyEqual {a b : Value} (h : strictlyEqual false a b = true) :
    a.family = b.family := by
  revert h
  cases a <;> cases b <;> simp [strictlyEqual, family]

/-! ### Laws -/

theorem looselyEqual_of_strictlyEqual {a b : Value} (h : strictlyEqual false a b = true) :
    looselyEqual false a b = .ok true := by
  rw [looselyEqual, if_pos (family_eq_of_strictlyEqual h), h]

theorem looselyEqual_comm (a b : Value) : looselyEqual false a b = looselyEqual false b a := by
  unfold looselyEqual
  by_cases same : a.family = b.family
  · rw [if_pos same, if_pos same.symm, strictlyEqual_comm]
  · rw [if_neg same, if_neg (Ne.symm same), Bool.or_comm, Bool.and_comm, Bool.or_comm (decide _),
      bind_comm_of_overflows a.toDouble_overflows b.toDouble_overflows]
    simp only [Double.equal_comm]

theorem order?_swap (a b : Value) : (order? a b).map (Option.map Ordering.swap) = order? b a := by
  unfold order?
  have doubles : (do let x ← a.toDouble; let y ← b.toDouble; return x.order? y : Except Fault _).map
      (Option.map Ordering.swap) = do let y ← b.toDouble; let x ← a.toDouble; return y.order? x := by
    rw [bind_comm_of_overflows b.toDouble_overflows a.toDouble_overflows fun y x => y.order? x]
    cases a.toDouble with
    | error fault => rfl
    | ok x =>
      cases b.toDouble with
      | error fault => rfl
      | ok y => exact congrArg Except.ok (Double.order?_swap x y)
  cases a.text? with
  | none =>
    cases b.text? <;> exact doubles
  | some s =>
    cases b.text? with
    | none => exact doubles
    | some t => exact congrArg (Except.ok ∘ some) (Text.order_swap s t)

/-- The operators that ask for an order. -/
def orderings : List Operator := [.less, .greater, .atMost, .atLeast]

theorem compare_of_mem_orderings {op : Operator} (h : op ∈ orderings) (a b : Value) :
    compare op a b = (order? a b).map fun o => o.any op.accepts := by
  cases op with
  | atLeast | atMost | greater | less => rfl
  | _ => exact absurd h (by decide)

theorem compare_converse (op : Operator) (a b : Value) :
    compare op.converse b a = compare op a b := by
  have swapped {op : Operator} (h : op ∈ orderings) (h' : op.converse ∈ orderings) :
      compare op.converse b a = compare op a b := by
    rw [compare_of_mem_orderings h, compare_of_mem_orderings h', ← order?_swap a b]
    cases order? a b with
    | error fault => rfl
    | ok o =>
      cases o with
      | none => rfl
      | some o => exact congrArg Except.ok (op.accepts_converse o)
  cases op with
  | strictlyEqual => exact congrArg Except.ok (strictlyEqual_comm b a)
  | strictlyUnequal => exact congrArg (Except.ok ∘ not) (strictlyEqual_comm b a)
  | equal => exact looselyEqual_comm b a
  | unequal => exact congrArg (Except.map not) (looselyEqual_comm b a)
  | atLeast | atMost | greater | less => exact swapped (by decide) (by decide)

/-! ### Orderings -/

/-- The answers of the orderings for two values that stand in an order. -/
structure Orderly (less greater atMost atLeast : Bool) : Prop where
  exactly_one : [less, greater, atMost && atLeast].count true = 1
  atMost_eq : atMost = !greater
  atLeast_eq : atLeast = !less

/-- The orderings fail together, or none of them holds, or their answers fit together. -/
def OrderingsFit (a b : Value) : Prop :=
  (∃ fault, ∀ op ∈ orderings, compare op a b = .error fault)
    ∨ (∀ op ∈ orderings, compare op a b = .ok false)
    ∨ ∃ less greater atMost atLeast, Orderly less greater atMost atLeast
      ∧ compare .less a b = .ok less ∧ compare .greater a b = .ok greater
      ∧ compare .atMost a b = .ok atMost ∧ compare .atLeast a b = .ok atLeast

theorem orderingsFit (a b : Value) : OrderingsFit a b := by
  have answer {op : Operator} (h : op ∈ orderings) := compare_of_mem_orderings h a b
  cases found : order? a b with
  | error fault => exact .inl ⟨fault, fun op h => by rw [answer h, found]; rfl⟩
  | ok o =>
    cases o with
    | none => exact .inr (.inl fun op h => by rw [answer h, found]; rfl)
    | some o =>
      have accepted {op : Operator} (h : op ∈ orderings) : compare op a b = .ok (op.accepts o) := by
        rw [answer h, found]
        rfl
      refine .inr (.inr ⟨_, _, _, _, ?_, accepted (by decide), accepted (by decide),
        accepted (by decide), accepted (by decide)⟩)
      cases o <;> exact ⟨rfl, rfl, rfl⟩

/-! ### Barewords -/

/-- The same value, with a plain string in place of a bareword. -/
def plain : Value → Value
  | bareword s => str s
  | v => v

theorem family_plain (v : Value) : v.plain.family = v.family := by cases v <;> rfl

theorem isMissing_plain (v : Value) : v.plain.isMissing = v.isMissing := by
  rw [isMissing, isMissing, family_plain]

theorem text?_plain (v : Value) : v.plain.text? = v.text? := by cases v <;> rfl

theorem toDouble_plain (v : Value) : v.plain.toDouble = v.toDouble := by cases v <;> rfl

theorem identity?_plain (v : Value) : v.plain.identity? = v.identity? := by cases v <;> rfl

theorem compare_plain_left (op : Operator) (a b : Value) : compare op a.plain b = compare op a b := by
  have strict : strictlyEqual false a.plain b = strictlyEqual false a b :=
    Bool.eq_iff_iff.mpr (by rw [strictlyEqual_iff, strictlyEqual_iff, identity?_plain])
  have loose : looselyEqual false a.plain b = looselyEqual false a b := by
    rw [looselyEqual, looselyEqual, isMissing_plain, family_plain, toDouble_plain, strict]
  have order : order? a.plain b = order? a b := by
    rw [order?, order?, text?_plain, toDouble_plain]
  cases op with
  | strictlyEqual => exact congrArg Except.ok strict
  | strictlyUnequal => exact congrArg (Except.ok ∘ not) strict
  | equal => exact loose
  | unequal => exact congrArg (Except.map not) loose
  | atLeast | atMost | greater | less => exact congrArg (Except.map _) order

theorem compare_plain_right (op : Operator) (a b : Value) : compare op a b.plain = compare op a b := by
  rw [← compare_converse, compare_plain_left, compare_converse]

/-! ### The laws together -/

/-- **Laws of the comparisons.**  An operator and its converse agree on the operands in either order, the
orderings fit together, strict equality is transitive and implies the loose one, and barewords
compare like strings. -/
theorem compare_laws (a b c : Value) :
    (∀ op : Operator, compare op.converse b a = compare op a b)
      ∧ OrderingsFit a b
      ∧ (compare .strictlyEqual a b = .ok true → compare .equal a b = .ok true)
      ∧ (compare .strictlyEqual a b = .ok true → compare .strictlyEqual b c = .ok true →
          compare .strictlyEqual a c = .ok true)
      ∧ ∀ op, compare op a.plain b = compare op a b ∧ compare op a b.plain = compare op a b := by
  have strict {x y : Value} (h : compare .strictlyEqual x y = .ok true) :
      strictlyEqual false x y = true := Except.ok.inj h
  refine ⟨fun op => compare_converse op a b, orderingsFit a b, fun h => ?_, fun h h' => ?_, fun op => ?_⟩
  · exact looselyEqual_of_strictlyEqual (strict h)
  · exact congrArg Except.ok (strictlyEqual_trans (strict h) (strict h'))
  · exact ⟨compare_plain_left op a b, compare_plain_right op a b⟩

/-- An integer, the double of the same value and the integer again. -/
theorem compare_laws_number :
    let three : Value := .float (Double.ofRatio false (3 * Double.one) 1)
    compare .strictlyEqual (.int 3) three = .ok true
      ∧ compare .strictlyEqual three (.int 3) = .ok true
      ∧ compare .equal (.int 3) three = .ok true
      ∧ compare .strictlyEqual (.int 3) (.int 3) = .ok true := by
  intro three
  have laws := compare_laws (.int 3) three (.int 3)
  have first : compare .strictlyEqual (.int 3) three = .ok true := by decide +kernel
  have second : compare .strictlyEqual three (.int 3) = .ok true :=
    (laws.1 .strictlyEqual).trans first
  exact ⟨first, second, laws.2.2.1 first, laws.2.2.2.1 first second⟩

/-! ### Integers -/

section integers

attribute [local instance] Double.natPow

variable {a b : Int}

theorem order?_int (ha : a.natAbs < Double.overflow) (hb : b.natAbs < Double.overflow) :
    order? (int a) (int b) = .ok (some (Ord.compare (Double.rounded a) (Double.rounded b))) := by
  have find := Double.ofInt?_of_lt ha
  have find' := Double.ofInt?_of_lt hb
  rw [order?, toDouble, toDouble, doubleOfInt, doubleOfInt, find, find']
  show Except.ok (Double.order? _ _) = _
  rw [Double.order?, Double.rank?_of_ofInt? find, Double.rank?_of_ofInt? find']

/-- Rounding keeps the order of two integers as long as it keeps them apart. -/
theorem rounded_lt_iff (ha : a.natAbs < Double.overflow) (hb : b.natAbs < Double.overflow) :
    Double.rounded a < Double.rounded b ↔ a < b ∧ Double.ofInt? a ≠ Double.ofInt? b := by
  rw [ne_eq, Double.ofInt?_eq_ofInt?_iff ha hb]
  constructor
  · intro below
    refine ⟨?_, by omega⟩
    rw [← Int.not_le]
    intro above
    have := Double.rounded_mono above
    omega
  · rintro ⟨below, apart⟩
    have := Double.rounded_mono (Int.le_of_lt below)
    omega

theorem compare_less_int (ha : a.natAbs < Double.overflow) (hb : b.natAbs < Double.overflow) :
    compare .less (int a) (int b) = .ok (decide (a < b ∧ Double.ofInt? a ≠ Double.ofInt? b)) := by
  rw [compare_of_mem_orderings (by decide), order?_int ha hb]
  refine congrArg Except.ok (Bool.eq_iff_iff.mpr ?_)
  rw [decide_eq_true_iff, ← rounded_lt_iff ha hb, ← Int.compare_eq_lt]
  exact beq_iff_eq

/-- **Ordering and equality of integers.**  A comparison of two integers holds only if it holds of the
integers themselves.  Equality then always holds, and an ordering unless both integers have the same
double, which takes a magnitude above 2^53. -/
theorem compare_int (ha : a.natAbs < Double.overflow) (hb : b.natAbs < Double.overflow) :
    compare .less (int a) (int b) = .ok (decide (a < b ∧ Double.ofInt? a ≠ Double.ofInt? b))
      ∧ compare .strictlyEqual (int a) (int b) = .ok (decide (a = b))
      ∧ compare .greater (int a) (int b) = .ok (decide (b < a ∧ Double.ofInt? a ≠ Double.ofInt? b))
      ∧ (a.natAbs ≤ 2 ^ (53 : Nat) → b.natAbs ≤ 2 ^ (53 : Nat) →
          Double.ofInt? a = Double.ofInt? b → a = b) := by
  refine ⟨compare_less_int ha hb, rfl, ?_, fun small small' same => ?_⟩
  · have reversed : decide (b < a ∧ Double.ofInt? b ≠ Double.ofInt? a)
        = decide (b < a ∧ Double.ofInt? a ≠ Double.ofInt? b) :=
      decide_eq_decide.mpr (and_congr_right fun _ => ne_comm)
    rw [← compare_converse, ← reversed]
    exact compare_less_int hb ha
  · exact Double.eq_of_rounded_eq small small' ((Double.ofInt?_eq_ofInt?_iff ha hb).mp same)

/-- Two neighbours that meet in one double, and two that do not. -/
theorem compare_int_neighbours :
    compare .less (.int 9007199254740992) (.int 9007199254740993) = .ok false
      ∧ compare .less (.int (-2)) (.int 9007199254740992) = .ok true := by
  have meeting := compare_int (a := 9007199254740992) (b := 9007199254740993) (by decide +kernel)
    (by decide +kernel)
  have apart := compare_int (a := -2) (b := 9007199254740992) (by decide +kernel) (by decide +kernel)
  have differ : Double.ofInt? (-2) ≠ Double.ofInt? 9007199254740992 := fun same =>
    absurd (apart.2.2.2 (by decide +kernel) (by decide +kernel) same) (by decide)
  refine ⟨meeting.1.trans (by decide +kernel), apart.1.trans ?_⟩
  exact congrArg Except.ok (decide_eq_true ⟨by decide, differ⟩)

/-- Of 2^53 and its successor, which are neither equal nor ordered, no comparison holds that should. -/
theorem not_forall_compare_int :
    ¬ ∀ a b : Int, a.natAbs < Double.overflow → b.natAbs < Double.overflow →
      compare .less (int a) (int b) = .ok (decide (a < b))
        ∧ compare .strictlyEqual (int a) (int b) = .ok (decide (a = b))
        ∧ compare .greater (int a) (int b) = .ok (decide (b < a)) := by
  intro agree
  have less := (agree 9007199254740992 9007199254740993 (by decide +kernel) (by decide +kernel)).1
  exact absurd less (by decide +kernel)

end integers

end Value
end Stencil
