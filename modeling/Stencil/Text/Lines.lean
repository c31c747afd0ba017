import Stencil.Text.Blank

/-! # Lines and line breaks

A line break is a line feed, with or without a carriage return in front of it.  `Text.lastLine` and
`Text.firstLine` are the unfinished lines at the two ends of a text, and the two cutting functions
split a text at its first and at its last line feed. -/

namespace Stencil.Text

/-- What follows the last line feed of a text. -/
def lastLine (text : Text) : Text := (text.reverse.takeWhile (· != '\n')).reverse

/-- What precedes the first line feed of a text. -/
def firstLine (text : Text) : Text := text.takeWhile (· != '\n')

/-- Cuts a text at its first line feed, if it has one. -/
def cutFirstBreak? (text : Text) : Option (Text × Text) :=
  match text.dropWhile (· != '\n') with
  | [] => none
  | _ :: rest => some (firstLine text, rest)

/-- Cuts a text at its last line feed, if it has one. -/
def cutLastBreak? (text : Text) : Option (Text × Text) :=
  match text.reverse.dropWhile (· != '\n') with
  | [] => none
  | _ :: front => some (front.reverse, lastLine text)

/-- Whether a text begins with a line break. -/
def startsWithBreak : Text → Bool
  | '\n' :: _ => true
  | '\r' :: '\n' :: _ => true
  | _ => false

/-- Whether a text ends in a line feed. -/
def endsWithFeed (text : Text) : Bool := text.getLast? == some '\n'

/-- The text without its first character, which is a line break of one or two characters. -/
def dropLeadingBreak : Text → Text
  | '\r' :: '\n' :: rest => rest
  | text => text.drop 1

/-- The text without a final carriage return. -/
def dropTrailingReturn (text : Text) : Text :=
  if text.getLast? == some '\r' then text.dropLast else text

/-- The text without the line break that ends it, if one does. -/
def dropTrailingBreak (text : Text) : Text :=
  if endsWithFeed text then dropTrailingReturn text.dropLast else text

/-- The text with every line break written as a line feed, also one that is a lone carriage
return. -/
def normalizeBreaks : Text → Text
  | '\r' :: '\n' :: rest => '\n' :: normalizeBreaks rest
  | '\r' :: rest => '\n' :: normalizeBreaks rest
  | c :: rest => c :: normalizeBreaks rest
  | [] => []

/-- The one-based number of the line that holds a position. -/
def lineNumber (text : Text) (position : Nat) : Nat := (text.take position).count '\n' + 1

/-! ### The cuts lose only the line feed -/

theorem eq_of_cutFirstBreak? {text front rest : Text}
    (h : cutFirstBreak? text = some (front, rest)) : text = front ++ '\n' :: rest := by
  unfold cutFirstBreak? at h
  split at h
  · simp at h
  · rename_i c r hd
    obtain ⟨rfl, rfl⟩ := Prod.mk.injEq .. ▸ Option.some.inj h
    have hc : c = '\n' := by
      have := List.head?_dropWhile_not (p := (· != '\n')) (l := text)
      simpa [hd] using this
    conv => lhs; rw [← List.takeWhile_append_dropWhile (p := (· != '\n')) (l := text), hd, hc]
    rfl

theorem eq_of_cutLastBreak? {text front rest : Text}
    (h : cutLastBreak? text = some (front, rest)) : text = front ++ '\n' :: rest := by
  unfold cutLastBreak? at h
  split at h
  · simp at h
  · rename_i c r hd
    obtain ⟨rfl, rfl⟩ := Prod.mk.injEq .. ▸ Option.some.inj h
    have hc : c = '\n' := by
      have := List.head?_dropWhile_not (p := (· != '\n')) (l := text.reverse)
      simpa [hd] using this
    have hs : text.reverse = text.reverse.takeWhile (· != '\n') ++ '\n' :: r := by
      conv => lhs; rw [← List.takeWhile_append_dropWhile (p := (· != '\n')) (l := text.reverse), hd, hc]
    conv => lhs; rw [← List.reverse_reverse text, hs]
    simp [lastLine]

theorem length_dropLeadingBreak_le (text : Text) : (dropLeadingBreak text).length ≤ text.length := by
  unfold dropLeadingBreak
  split
  · exact Nat.le_trans (Nat.le_succ _) (Nat.le_succ _)
  · rw [List.length_drop]
    exact Nat.sub_le _ _

theorem length_dropTrailingReturn_le (text : Text) :
    (dropTrailingReturn text).length ≤ text.length := by
  unfold dropTrailingReturn
  split <;> simp

theorem length_dropTrailingBreak_le (text : Text) :
    (dropTrailingBreak text).length ≤ text.length := by
  unfold dropTrailingBreak
  split
  · have := length_dropTrailingReturn_le text.dropLast
    simp at this
    omega
  · simp

end Stencil.Text
