import Stencil.Fault
import Stencil.Json.Writer

/-! # The text of a value

What a variable marker is replaced by.  Strings stand for themselves, nothing stands for what is not
there, containers are written as JSON, and a double that is a whole number below 10^21 is written
without a point.

An integer of more than `digitCap` digits has no such text, and neither has a container with one at any
depth: `shown` fails there.  `toText` is the text without that limit. -/

namespace Stencil

namespace Value

attribute [local instance] Double.natPow

/-- A double as it appears in a rendered text. -/
def doubleText (x : Double) : Text :=
  match x.toInt? with
  | some n => if n.natAbs < 10 ^ (21 : Nat) then integerText n else doubleLayout.text x
  | none => Json.writeDouble x

/-- The text that stands for a value, with all digits of its integers. -/
def toText : Value → Text
  | undefined => []
  | null => ['n', 'u', 'l', 'l']
  | bool true => ['t', 'r', 'u', 'e']
  | bool false => ['f', 'a', 'l', 's', 'e']
  | int n => integerText n
  | float x => doubleText x
  | str s | bareword s => s
  | list items => Json.write (list items)
  | tuple items => Json.write (tuple items)
  | mapping fields => Json.write (mapping fields)

/-! ### Integers with too many digits -/

mutual

/-- Whether no integer in a value has more digits than are written. -/
def isWritable : Value → Bool
  | int n => (Nat.toDigits 10 n.natAbs).length ≤ digitCap
  | list items | tuple items => areWritable items
  | mapping fields => haveWritable fields
  | _ => true

/-- Whether this is so for all elements of a list or tuple. -/
def areWritable : List Value → Bool
  | [] => true
  | item :: items => isWritable item && areWritable items

/-- Whether this is so for the values of all fields of a mapping. -/
def haveWritable : List (Text × Value) → Bool
  | [] => true
  | (_, value) :: fields => isWritable value && haveWritable fields

end

/-- The text that a value is replaced by. -/
def shown (v : Value) : Except Fault Text :=
  if v.isWritable then .ok v.toText else .error (.digitLimit none)

/-! ### Values that can be written -/

theorem shown_of_isWritable {v : Value} (h : v.isWritable = true) : v.shown = .ok v.toText := if_pos h

theorem shown_eq_ok_iff {v : Value} {text : Text} :
    v.shown = .ok text ↔ v.isWritable = true ∧ text = v.toText := by
  rw [shown]
  split
  · rename_i h
    simp [h, eq_comm]
  · rename_i h
    simp [h]

theorem shown_eq_error_iff {v : Value} {fault : Fault} :
    v.shown = .error fault ↔ v.isWritable = false ∧ fault = .digitLimit none := by
  rw [shown]
  split
  · rename_i h
    simp [h]
  · rename_i h
    simp [h, eq_comm]

/-- The integers that can be written are those below 10^4300 in magnitude. -/
theorem isWritable_int_iff {n : Int} : (int n).isWritable = true ↔ n.natAbs < 10 ^ digitCap := by
  rw [isWritable, decide_eq_true_iff]
  exact Nat.length_toDigits_le_iff (by omega) (by decide)

theorem areWritable_iff {items : List Value} :
    areWritable items = true ↔ ∀ v ∈ items, v.isWritable = true := by
  induction items with
  | nil => simp [areWritable]
  | cons v items ih => rw [areWritable, Bool.and_eq_true, ih, List.forall_mem_cons]

theorem haveWritable_iff {fields : List (Text × Value)} :
    haveWritable fields = true ↔ ∀ field ∈ fields, field.2.isWritable = true := by
  induction fields with
  | nil => simp [haveWritable]
  | cons field fields ih => rw [haveWritable, Bool.and_eq_true, ih, List.forall_mem_cons]

end Value
end Stencil
