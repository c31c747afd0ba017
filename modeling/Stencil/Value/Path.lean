import Stencil.Value.Basic
import Stencil.Fault

/-! # Paths

A path is a row of keys with dots in between, and `resolve` follows it from a value.  A mapping is
asked for the key.  Strings, lists and tuples know the key `length` and the decimal indexes of their
elements.  Everything else leads to `undefined`, and so does every step from there.

`resolve_append`: a path of two parts is followed one part after the other. -/

namespace Stencil

open Text

namespace Value

/-- The value that a key leads to in a row of elements. -/
def elementAt (key : Text) (items : List Value) : Except Fault Value :=
  if key = ['l', 'e', 'n', 'g', 't', 'h'] then .ok (int items.length)
  else
    match digitValues? key with
    | some digits => do
      let index ← wholeNumber digits
      return items[index]?.getD undefined
    | none => .ok undefined

/-- The value that a key leads to. -/
def child (value : Value) (key : Text) : Except Fault Value :=
  match value with
  | mapping fields => .ok ((fields.lookup key).getD undefined)
  | str s | bareword s => elementAt key (s.map fun c => str [c])
  | list items | tuple items => elementAt key items
  | _ => .ok undefined

/-- Follows keys one after the other. -/
def walk (keys : List Text) (value : Value) : Except Fault Value := keys.foldlM child value

/-- Follows a path. -/
def resolve (path : Text) (value : Value) : Except Fault Value := walk (splitOn '.' path) value

end Value

theorem Text.splitOn_ne_nil (separator : Char) (text : Text) : splitOn separator text ≠ [] := by
  cases text with
  | nil => simp [splitOn]
  | cons c text =>
    unfold splitOn
    split
    · simp
    · split <;> simp

theorem Text.splitOn_append (separator : Char) (front rest : Text) :
    splitOn separator (front ++ separator :: rest)
      = splitOn separator front ++ splitOn separator rest := by
  induction front with
  | nil => simp [splitOn]
  | cons c front ih =>
    by_cases hc : c = separator
    · simp [splitOn, hc, ih]
    · simp only [List.cons_append, splitOn, hc, if_false, ih]
      cases h : splitOn separator front with
      | nil => exact absurd h (splitOn_ne_nil separator front)
      | cons part parts => rfl

namespace Value

theorem resolve_append (path rest : Text) (value : Value) :
    resolve (path ++ '.' :: rest) value = (resolve path value >>= resolve rest) := by
  simp only [resolve, splitOn_append, walk, List.foldlM_append]
  rfl

end Value
end Stencil
