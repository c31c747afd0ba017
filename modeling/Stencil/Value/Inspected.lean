import Stencil.Json.Writer
import Stencil.Text.Quoted

/-! # Values in records

The form in which the records of a run show a value.  Unlike the rendered text it tells strings from
barewords and lists from tuples, and it shows what is not there.  Integers are shown with all their
digits. -/

namespace Stencil

namespace Value

mutual

/-- A value as a record shows it. -/
def inspected : Value → Text
  | undefined => ['U', 'N', 'D', 'E', 'F', 'I', 'N', 'E', 'D']
  | null => ['N', 'o', 'n', 'e']
  | bool true => ['T', 'r', 'u', 'e']
  | bool false => ['F', 'a', 'l', 's', 'e']
  | int n => integerText n
  | float x => doubleLayout.text x
  | str s => s.quoted
  | bareword s => ['B', 'a', 'r', 'e', 'w', 'o', 'r', 'd', '('] ++ s.quoted ++ [')']
  | list items => '[' :: inspectedItems items ++ [']']
  | tuple [item] => '(' :: inspected item ++ [',', ')']
  | tuple items => '(' :: inspectedItems items ++ [')']
  | mapping fields => '\x7b' :: inspectedFields fields ++ ['\x7d']

/-- The elements of a list or tuple. -/
def inspectedItems : List Value → Text
  | [] => []
  | [item] => inspected item
  | item :: items => inspected item ++ ',' :: ' ' :: inspectedItems items

/-- The fields of a mapping. -/
def inspectedFields : List (Text × Value) → Text
  | [] => []
  | [(key, value)] => key.quoted ++ ':' :: ' ' :: inspected value
  | (key, value) :: fields =>
    key.quoted ++ ':' :: ' ' :: inspected value ++ ',' :: ' ' :: inspectedFields fields

end

end Value
end Stencil
