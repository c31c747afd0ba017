import Stencil.Record
import Stencil.Value.Path
import Stencil.Value.Literal

/-! # Conditions

A condition is a path that is tested for truth or one comparison of a path with a literal, behind any
number of exclamation marks.

* `Condition.parse` reads a text.  The operator is the first one of `Operator.all` that occurs in
  the text at all; what follows its second occurrence is ignored.
* `Condition.holds` evaluates a condition and `Condition.records` keeps what it compared. -/

namespace Stencil

open Text

/-- A condition as it is read. -/
inductive Condition where
  | empty
  | negation (inner : Condition)
  | truth (path : Text)
  | comparison (source path : Text) (op : Operator) (literal : Text)
deriving DecidableEq, Repr

namespace Condition

/-- Reads a condition without exclamation mark and without blanks around it. -/
def ofClause (source : Text) : Condition :=
  match Operator.cut? source with
  | none => truth source
  | some (op, path, rest) =>
    comparison source (trim path) op (((cut? op.text rest).map (·.1)).getD rest)

/-- Reads a condition. -/
def parse (text : Text) : Condition :=
  if text.isEmpty then empty
  else
    match _ : trim text with
    | '!' :: rest => negation (parse rest)
    | source => ofClause source
termination_by text.length
decreasing_by
  have h := length_trim_le text
  rw [‹trim text = '!' :: rest›, List.length_cons] at h
  omega

/-- The operands of a comparison. -/
def operands (path literal : Text) (data : Value) : Except Fault (Value × Value) := do
  let left ← Value.resolve path data
  let right ← Value.ofLiteral literal
  return (left, right)

/-- Whether a condition holds of some data. -/
def holds (data : Value) : Condition → Except Fault Bool
  | empty => .ok false
  | negation inner => (inner.holds data).map (!·)
  | truth path => do (← Value.resolve path data).isTruthy
  | comparison _ path op literal => do
    let (left, right) ← operands path literal data
    Value.compare op left right

/-- The record of the comparison that a condition makes, if it makes one and comes to its end. -/
def records (data : Value) : Condition → List Record
  | empty | truth _ => []
  | negation inner => inner.records data
  | comparison source path op literal =>
    match operands path literal data with
    | .error _ => []
    | .ok (left, right) =>
      match Value.compare op left right with
      | .error _ => []
      | .ok result => [.comparison source left op right result]

end Condition

/-- Whether a condition text holds of some data; an absent one does not. -/
def evaluate (condition : Option Text) (data : Value) : Except Fault Bool :=
  match condition with
  | none => .ok false
  | some text => (Condition.parse text).holds data

end Stencil
