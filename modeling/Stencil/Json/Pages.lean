import Stencil.Json.Writer

/-! # JSON over several lines

Lists of strings under names, one string to a line and two blanks to a level. -/

namespace Stencil.Json

/-- Items on lines of their own between brackets, indented by a margin and two blanks. -/
def onLines (opening closing : Char) (margin : Text) : List Text → Text
  | [] => [opening, closing]
  | items =>
    let lines := items.map fun item => '\n' :: margin ++ [' ', ' '] ++ item
    opening :: List.flatten (lines.intersperse [',']) ++ '\n' :: margin ++ [closing]

/-- An object of named lists of strings. -/
def listsPage (fields : List (Text × List Text)) : Text :=
  onLines '\x7b' '\x7d' [] <| fields.map fun field =>
    writeString field.1 ++ [':', ' ']
      ++ onLines '[' ']' [' ', ' '] (field.2.map writeString)

end Stencil.Json
