import Stencil.Value.Inspected
import Stencil.Comparison
import Stencil.Block

/-! # Records of a run

Rendering keeps a record of each comparison it makes, of each block it resolves, of each variable
that leads nowhere and of delimiters that bracket nothing. -/

namespace Stencil

/-- What happened at one step of a run. -/
inductive Record where
  | comparison (condition : Text) (left : Value) (op : Operator) (right : Value) (holds : Bool)
  | selection (start stop : Nat) (selected : Option Section)
  | undefinedVariable (path : Text)
  | unusableDelimiter (shown : Text)
deriving Repr

namespace Record

/-- The part of the program that a record comes from. -/
def channel : Record → Text
  | comparison .. => "inkwell.conditions".toList
  | selection .. => "inkwell.conditionals".toList
  | undefinedVariable _ | unusableDelimiter _ => "inkwell.template".toList

/-- The condition of a section as a record shows it. -/
def conditionText : Option Text → Text
  | some condition => condition.quoted
  | none => Value.null.inspected

/-- The wording of a record. -/
def message : Record → Text
  | comparison condition left op right holds =>
    "Condition ".toList ++ condition.quoted ++ ": ".toList ++ left.inspected ++ [' ']
      ++ op.text ++ [' '] ++ right.inspected ++ " -> ".toList ++ (Value.bool holds).inspected
  | selection start stop selected =>
    "Block at ".toList ++ Nat.toDigits 10 start ++ ['-'] ++ Nat.toDigits 10 stop ++ ": ".toList
      ++ match selected with
        | none => "no section selected".toList
        | some s =>
          "selected ".toList ++ s.kind.word ++ " section (".toList
            ++ conditionText s.condition ++ [')']
  | undefinedVariable path => "Variable ".toList ++ path.quoted ++ " is undefined".toList
  | unusableDelimiter shown =>
    "Delimiter ".toList ++ shown ++ " brackets no markers; template unchanged".toList

end Record
end Stencil
