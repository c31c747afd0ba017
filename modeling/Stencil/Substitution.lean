import Stencil.Marker
import Stencil.Record
import Stencil.Value.Path
import Stencil.Value.Text

/-! # Substituting variables

Every variable marker of a text is replaced by the text of the value that its path leads to.  The
markers are those of the text as it stands: what is put in is not looked at again.  Literal text,
directives and empty markers stay. -/

namespace Stencil

open Text

/-- The text that the variable with a path is replaced by. -/
def Value.shownAt (path : Text) (data : Value) : Except Fault Text := do (← resolve path data).shown

namespace Piece

/-- The path that a variable marker names. -/
def path (p : Piece) : Text := trim p.body

/-- The piece with its variable put in. -/
def substituted (d : Delimiters) (data : Value) (p : Piece) : Except Fault Text :=
  if isVariableBody p.body then
    (Value.shownAt p.path data).map (p.gap ++ ·)
  else .ok (p.source d)

/-- The record of a variable that leads nowhere. -/
def records (data : Value) (p : Piece) : List Record :=
  if isVariableBody p.body then
    match Value.resolve p.path data with
    | .ok .undefined => [.undefinedVariable p.path]
    | _ => []
  else []

end Piece

/-- The text with its variables put in. -/
def substitute (d : Delimiters) (data : Value) (text : Text) : Except Fault Text := do
  let parts := dissect d text
  let shown ← parts.pieces.mapM (Piece.substituted d data)
  return shown.flatten ++ parts.tail

/-- The records of a substitution: those of the pieces up to the first that fails. -/
def substitutionRecords (d : Delimiters) (data : Value) (text : Text) : List Record :=
  let goesWell (p : Piece) : Bool := (p.substituted d data).toBool
  ((dissect d text).pieces.takeWhile goesWell).flatMap (Piece.records data)

end Stencil
