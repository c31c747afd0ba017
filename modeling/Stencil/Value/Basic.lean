import Stencil.Number.Double

/-! # Values

The data that a template is rendered with, and what its conditions compare.  `undefined` is the
value of what is not there; a bareword is the text of a literal that was written without quotes and
is neither a number nor a keyword.  Mappings keep their keys in the order of insertion. -/

namespace Stencil

/-- A value of the template language. -/
inductive Value where
  | undefined
  | null
  | bool (b : Bool)
  | int (n : Int)
  | float (x : Double)
  | str (s : Text)
  | bareword (s : Text)
  | list (items : List Value)
  | tuple (items : List Value)
  | mapping (fields : List (Text × Value))
deriving Repr

namespace Value

/-- Sets the value of a key: a new key goes to the end, a known key keeps its place. -/
def setField (key : Text) (value : Value) : List (Text × Value) → List (Text × Value)
  | [] => [(key, value)]
  | field :: fields =>
    if field.1 = key then (key, value) :: fields else field :: setField key value fields

/-- The mapping with these fields, where the last value of a repeated key counts. -/
def ofFields (fields : List (Text × Value)) : Value :=
  mapping (fields.foldl (fun known field => setField field.1 field.2 known) [])

/-- The characters of a string, quoted or not. -/
def text? : Value → Option Text
  | str s => some s
  | bareword s => some s
  | _ => none

/-! ### Fields -/

theorem lookup_setField_self (key : Text) (value : Value) (fields : List (Text × Value)) :
    (setField key value fields).lookup key = some value := by
  induction fields with
  | nil => simp [setField]
  | cons field fields ih =>
    unfold setField
    split
    · simp
    · rename_i h
      rw [List.lookup_cons, ih, beq_eq_false_iff_ne.mpr (Ne.symm h)]

theorem lookup_setField_of_ne {key other : Text} (h : other ≠ key) (value : Value)
    (fields : List (Text × Value)) :
    (setField key value fields).lookup other = fields.lookup other := by
  induction fields with
  | nil => simp [setField, h]
  | cons field fields ih =>
    unfold setField
    split
    · rename_i hk
      rw [List.lookup_cons, List.lookup_cons, hk, beq_eq_false_iff_ne.mpr h]
    · rw [List.lookup_cons, List.lookup_cons, ih]

end Value
end Stencil
