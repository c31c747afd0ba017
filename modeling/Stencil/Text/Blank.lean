import Stencil.Text.Search

/-! # Blank characters

The blank characters are those that separate words in Unicode text: the controls from tab to
carriage return, the four information separators, the space, the next-line control and the spaces,
line and paragraph separators outside ASCII.

* `Text.trim` removes blanks from both ends of a text; `Text.isBlank` holds of a text without any
  other character.
* `trim_sublist` and `isBlank_trim` are the facts that the other modules use. -/

namespace Stencil

/-- A blank character. -/
def isBlankChar (c : Char) : Bool :=
  let n := c.toNat
  (9 ≤ n && n ≤ 13) || (28 ≤ n && n ≤ 32) || n == 0x85 || n == 0xA0 || n == 0x1680
    || (0x2000 ≤ n && n ≤ 0x200A) || n == 0x2028 || n == 0x2029 || n == 0x202F || n == 0x205F
    || n == 0x3000

namespace Text

/-- Only blanks, or nothing. -/
def isBlank (text : Text) : Bool := text.all isBlankChar

/-- The text without the leading characters of a class. -/
def trimStart (p : Char → Bool) (text : Text) : Text := text.dropWhile p

/-- The text without the trailing characters of a class. -/
def trimEnd (p : Char → Bool) (text : Text) : Text := (text.reverse.dropWhile p).reverse

/-- The text without the blanks at its ends. -/
def trim (text : Text) : Text := trimEnd isBlankChar (trimStart isBlankChar text)

/-- Cuts a text into its first word, without the blanks in front, and what follows the word. -/
def cutWord (text : Text) : Text × Text :=
  let text := trimStart isBlankChar text
  (text.takeWhile (!isBlankChar ·), text.dropWhile (!isBlankChar ·))

/-! ### What trimming keeps -/

theorem trimStart_sublist (p : Char → Bool) (text : Text) : (trimStart p text).Sublist text :=
  List.dropWhile_sublist p

theorem trimEnd_sublist (p : Char → Bool) (text : Text) : (trimEnd p text).Sublist text := by
  have h := List.Sublist.reverse (List.dropWhile_sublist (l := text.reverse) p)
  rwa [List.reverse_reverse] at h

theorem trim_sublist (text : Text) : (trim text).Sublist text :=
  (trimEnd_sublist _ _).trans (trimStart_sublist _ _)

theorem length_trimStart_le (p : Char → Bool) (text : Text) :
    (trimStart p text).length ≤ text.length := (trimStart_sublist p text).length_le

theorem length_trimEnd_le (p : Char → Bool) (text : Text) :
    (trimEnd p text).length ≤ text.length := (trimEnd_sublist p text).length_le

theorem length_trim_le (text : Text) : (trim text).length ≤ text.length :=
  (trim_sublist text).length_le

/-- A text is the part that `trimEnd` keeps followed by characters of the class. -/
theorem eq_trimEnd_append (p : Char → Bool) (text : Text) :
    ∃ tail : Text, text = trimEnd p text ++ tail ∧ tail.all p = true := by
  refine ⟨(text.reverse.takeWhile p).reverse, ?_, ?_⟩
  · rw [trimEnd, ← List.reverse_append, List.takeWhile_append_dropWhile, List.reverse_reverse]
  · rw [List.all_reverse, List.all_eq_true]
    intro c hc
    exact List.all_eq_true.mp (List.all_takeWhile (p := p)) c hc

theorem trimStart_of_isBlank {text : Text} (h : isBlank text = true) :
    trimStart isBlankChar text = [] := by
  induction text with
  | nil => rfl
  | cons c text ih =>
    simp only [isBlank, List.all_cons, Bool.and_eq_true] at h
    simpa [trimStart, h.1] using ih h.2

theorem isBlank_trim {text : Text} (h : isBlank text = true) : trim text = [] := by
  simp [trim, trimStart_of_isBlank h, trimEnd]

end Text
end Stencil
