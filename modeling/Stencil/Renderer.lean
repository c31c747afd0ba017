import Stencil.BlankRuns
import Stencil.Conditional
import Stencil.Substitution

/-! # Rendering

A renderer has a delimiter token.  It resolves the blocks of a template, puts the variables in and,
if that changed anything, shortens the runs of blank lines.  Delimiters that bracket nothing leave a
template as it is. -/

namespace Stencil

/-- A renderer for templates with one delimiter token. -/
structure Renderer where
  token : Text := Delimiters.defaultToken
deriving DecidableEq, Repr

namespace Renderer

def delimiters (r : Renderer) : Delimiters := Delimiters.ofToken r.token

/-- Renders a template with data that is there. -/
def renderWith (r : Renderer) (template : Text) (data : Value) : Except Fault Text :=
  if r.delimiters.usable then do
    let resolved ← resolveBlocks r.delimiters data template
    let result ← substitute r.delimiters data resolved
    return if result = template then result else collapseBlankRuns result
  else .ok template

/-- The data that a template is rendered with: an empty mapping where there is none. -/
def dataOr : Value → Value
  | .null => .mapping []
  | data => data

/-- Renders a template. -/
def render (r : Renderer) (template : Text) (data : Value) : Except Fault Text :=
  r.renderWith template (dataOr data)

/-- The records of a rendering. -/
def records (r : Renderer) (template : Text) (data : Value) : List Record :=
  let data := dataOr data
  if r.delimiters.usable then
    runRecords r.delimiters data template
      ++ match resolveBlocks r.delimiters data template with
        | .error _ => []
        | .ok resolved => substitutionRecords r.delimiters data resolved
  else [.unusableDelimiter r.token.quoted]

/-- A renderer as it shows itself. -/
def shown (r : Renderer) : Text := "Renderer(delimiter=".toList ++ r.token.quoted ++ [')']

end Renderer

/-- Renders a template with the delimiters that a token stands for. -/
def render (template : Text) (data : Value) (token : Text) : Except Fault Text :=
  (Renderer.mk token).render template data

end Stencil
