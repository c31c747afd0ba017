import Stencil.Proofs.Run
import Stencil.Renderer

/-! # Filling in a template

A rendering fills in a template and then, if that changed anything, shortens runs of blank lines.

* `render_eq_fill`: what a rendering makes of what comes out of the filling in.
* `resolve_dataOr`, `shownAt_dataOr` and `evaluate_dataOr`: absent data answers as an empty mapping
  does. -/

namespace Stencil

open Text

/-- A text with its blocks resolved and its variables put in. -/
def fill (d : Delimiters) (data : Value) (text : Text) : Except Fault Text := do
  substitute d data (← resolveBlocks d data text)

/-- A rendering fills in its template, and shortens runs of blank lines where that changed it. -/
theorem render_eq_fill {token : Text} (usable : (Delimiters.ofToken token).usable = true)
    (template : Text) (data : Value) : render template data token
      = (fill (Delimiters.ofToken token) (Renderer.dataOr data) template).map fun result =>
          if result = template then result else collapseBlankRuns result := by
  have same : (Renderer.mk token).delimiters = Delimiters.ofToken token := rfl
  rw [render, Renderer.render, Renderer.renderWith, same, if_pos usable, fill]
  cases resolveBlocks (Delimiters.ofToken token) (Renderer.dataOr data) template with
  | error fault => rfl
  | ok resolved =>
    rw [ok_bind rfl, ok_bind rfl]
    cases substitute (Delimiters.ofToken token) (Renderer.dataOr data) resolved <;> rfl

/-! ### Absent data -/

/-- No path leads anywhere from absent data, as from an empty mapping. -/
theorem resolve_dataOr (path : Text) (data : Value) :
    Value.resolve path (Renderer.dataOr data) = Value.resolve path data := by
  cases data with
  | null =>
    rw [Value.resolve, Value.resolve, Value.walk, Value.walk]
    cases keys : splitOn '.' path with
    | nil => exact absurd keys (Text.splitOn_ne_nil '.' path)
    | cons key keys => rfl
  | _ => rfl

theorem shownAt_dataOr (path : Text) (data : Value) :
    Value.shownAt path (Renderer.dataOr data) = Value.shownAt path data := by
  rw [Value.shownAt, Value.shownAt, resolve_dataOr]

theorem holds_dataOr (c : Condition) (data : Value) :
    c.holds (Renderer.dataOr data) = c.holds data := by
  induction c with
  | empty => rfl
  | negation inner ih => rw [Condition.holds, Condition.holds, ih]
  | truth path => rw [Condition.holds, Condition.holds, resolve_dataOr]
  | comparison source path op literal =>
    rw [Condition.holds, Condition.holds, Condition.operands, Condition.operands, resolve_dataOr]

theorem evaluate_dataOr (condition : Option Text) (data : Value) :
    evaluate condition (Renderer.dataOr data) = evaluate condition data := by
  cases condition with
  | none => rfl
  | some text => exact holds_dataOr (Condition.parse text) data

end Stencil
