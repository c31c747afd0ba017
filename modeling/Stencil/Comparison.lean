import Stencil.Value.Conversion

/-! # Comparing values

Eight operators compare two values.  The strict ones want values of one family; the loose ones also
let what is missing equal what is missing, and let numbers, strings and booleans meet as doubles.
An ordering compares two strings character by character and everything else as doubles; where one
side is no number, no ordering holds.

Two containers are equal only if they are one and the same, which `shared` says. -/

namespace Stencil

open Text

/-- The comparison operators. -/
inductive Operator where
  | strictlyEqual
  | strictlyUnequal
  | equal
  | unequal
  | atLeast
  | atMost
  | greater
  | less
deriving DecidableEq, Repr

namespace Operator

/-- How an operator is written. -/
def text : Operator → Text
  | strictlyEqual => ['=', '=', '=']
  | strictlyUnequal => ['!', '=', '=']
  | equal => ['=', '=']
  | unequal => ['!', '=']
  | atLeast => ['>', '=']
  | atMost => ['<', '=']
  | greater => ['>']
  | less => ['<']

/-- All operators, those that contain others first. -/
def all : List Operator :=
  [strictlyEqual, strictlyUnequal, equal, unequal, atLeast, atMost, greater, less]

/-- The first operator of the list that occurs anywhere in a text, with what stands before and after
its first occurrence. -/
def cut? (text : Text) : Option (Operator × Text × Text) :=
  all.findSome? fun op => (Text.cut? op.text text).map fun parts => (op, parts)

/-- The first operator of the list that occurs anywhere in a text. -/
def findIn? (text : Text) : Option Operator := (cut? text).map (·.1)

/-- The operator that is written so. -/
def ofText? (text : Text) : Option Operator := all.find? fun op => op.text == text

/-- Whether an operator holds of two values that stand in an order; the ones that test equality
have no say in it. -/
def accepts : Operator → Ordering → Bool
  | atLeast, o => o != .lt
  | atMost, o => o != .gt
  | greater, o => o == .gt
  | less, o => o == .lt
  | _, _ => false

theorem mem_all (op : Operator) : op ∈ all := by cases op <;> decide

theorem ofText?_text (op : Operator) : ofText? op.text = some op := by cases op <;> rfl

theorem eq_of_cut? {text front rest : Text} {op : Operator}
    (h : cut? text = some (op, front, rest)) : text = front ++ op.text ++ rest := by
  obtain ⟨op', _, h⟩ := List.exists_of_findSome?_eq_some h
  obtain ⟨parts, hp, h⟩ := Option.map_eq_some_iff.mp h
  obtain ⟨rfl, rfl⟩ := Prod.mk.injEq .. ▸ h
  exact Text.eq_of_cut? hp

end Operator

/-- The families of values that are compared with one another. -/
inductive Family where
  | undefined
  | null
  | boolean
  | number
  | string
  | container
deriving DecidableEq, Repr

/-- The order of two texts by their first difference in code points. -/
def Text.order : Text → Text → Ordering
  | [], [] => .eq
  | [], _ :: _ => .lt
  | _ :: _, [] => .gt
  | c :: s, d :: t => (compare c.toNat d.toNat).then (order s t)

/-- The order of two doubles, unless one is no number. -/
def Double.order? (x y : Double) : Option Ordering :=
  match x.rank?, y.rank? with
  | some a, some b => some (compare a b)
  | _, _ => none

namespace Value

/-- The family of a value. -/
def family : Value → Family
  | undefined => .undefined
  | null => .null
  | bool _ => .boolean
  | int _ | float _ => .number
  | str _ | bareword _ => .string
  | list _ | tuple _ | mapping _ => .container

/-- Whether a value stands for something missing. -/
def isMissing (v : Value) : Bool := v.family == .undefined || v.family == .null

/-- Equality within a family. -/
def strictlyEqual (shared : Bool) (left right : Value) : Bool :=
  match left, right with
  | undefined, undefined | null, null => true
  | bool a, bool b => a == b
  | int m, int n => m == n
  | int n, float x | float x, int n => x.equalsInt n
  | float x, float y => x.equal y
  | str s, str t | str s, bareword t | bareword s, str t | bareword s, bareword t => s == t
  | left, right => shared && left.family == .container && right.family == .container

/-- Equality across families. -/
def looselyEqual (shared : Bool) (left right : Value) : Except Fault Bool :=
  if left.family = right.family then .ok (strictlyEqual shared left right)
  else if left.isMissing || right.isMissing then .ok (left.isMissing && right.isMissing)
  else if left.family = .container || right.family = .container then .ok false
  else do
    let x ← left.toDouble
    let y ← right.toDouble
    return x.equal y

/-- The order of two values, if they have one. -/
def order? (left right : Value) : Except Fault (Option Ordering) :=
  match left.text?, right.text? with
  | some s, some t => .ok (some (Text.order s t))
  | _, _ => do
    let x ← left.toDouble
    let y ← right.toDouble
    return x.order? y

/-- Applies an operator.  `shared` says that the operands are one and the same value. -/
def compareWith (shared : Bool) (op : Operator) (left right : Value) : Except Fault Bool :=
  match op with
  | .strictlyEqual => .ok (strictlyEqual shared left right)
  | .strictlyUnequal => .ok !(strictlyEqual shared left right)
  | .equal => looselyEqual shared left right
  | .unequal => (looselyEqual shared left right).map (!·)
  | op => (order? left right).map fun o => o.any op.accepts

/-- Applies an operator to two separate values. -/
def compare (op : Operator) (left right : Value) : Except Fault Bool :=
  compareWith false op left right

/-- Applies the operator that is written so.  A text that is no operator asks for the order of the
operands and then holds of none. -/
def compareBy (shared : Bool) (op : Text) (left right : Value) : Except Fault Bool :=
  match Operator.ofText? op with
  | some op => compareWith shared op left right
  | none => (order? left right).map fun _ => false

end Value
end Stencil
