import Stencil.Marker
import Stencil.Text.Lines
import Stencil.Text.Quoted

/-! # Reports on templates

A report lists the variables and conditions that a template refers to, and the directives that do not
fit together, without rendering it.  One pass over the markers keeps the open blocks on a stack, each
with the line of its header and whether its `#else` has come. -/

namespace Stencil

open Text

/-- What is wrong with a directive. -/
inductive Flaw where
  | elseIfOutside
  | elseIfAfterElse
  | elseOutside
  | secondElse
  | endWithoutIf
  | unknownDirective (body : Text)
  | neverClosed
deriving DecidableEq, Repr

/-- A flaw and the line on which it shows. -/
structure Problem where
  line : Nat
  flaw : Flaw
deriving DecidableEq, Repr

namespace Flaw

/-- The wording of a flaw. -/
def message : Flaw → Text
  | elseIfOutside => "#elseif outside of an #if block".toList
  | elseIfAfterElse => "#elseif after #else".toList
  | elseOutside => "#else outside of an #if block".toList
  | secondElse => "duplicate #else".toList
  | endWithoutIf => "/if without a matching #if".toList
  | unknownDirective body => "unknown directive ".toList ++ (trim body).quoted
  | neverClosed => "#if is never closed".toList

end Flaw

/-- The wording of a problem. -/
def Problem.message (p : Problem) : Text :=
  "line ".toList ++ Nat.toDigits 10 p.line ++ [':', ' '] ++ p.flaw.message

/-- What a template refers to and what is wrong with its directives. -/
structure Report where
  paths : List Text
  conditions : List Text
  problems : List Problem
deriving DecidableEq, Repr

/-- A template is valid if nothing is wrong with its directives. -/
def Report.valid (r : Report) : Bool := r.problems.isEmpty

/-! ### The stack of open blocks -/

/-- A block whose `/if` has not come. -/
structure OpenBlock where
  line : Nat
  elseSeen : Bool
deriving DecidableEq, Repr

namespace OpenBlock

/-- The open blocks after a marker, the innermost first, and the flaw that the marker shows. -/
def next (line : Nat) (m : Marker) (stack : List OpenBlock) : List OpenBlock × Option Flaw :=
  match m.directive?, stack with
  | some .ifHeader, stack => (⟨line, false⟩ :: stack, none)
  | some .elseIf, [] => ([], some .elseIfOutside)
  | some .elseIf, b :: stack => (b :: stack, if b.elseSeen then some .elseIfAfterElse else none)
  | some .otherwise, [] => ([], some .elseOutside)
  | some .otherwise, b :: stack =>
    if b.elseSeen then (b :: stack, some .secondElse)
    else ({ b with elseSeen := true } :: stack, none)
  | some .endIf, [] => ([], some .endWithoutIf)
  | some .endIf, _ :: stack => (stack, none)
  | none, stack =>
    (stack, if m.isVariable || m.body.isEmpty then none else some (.unknownDirective m.body))

/-- The problems of a row of markers with some blocks open.  Those never closed come last, the
outermost first. -/
def problems (template : Text) : List OpenBlock → List Marker → List Problem
  | stack, [] => stack.reverse.map fun b => ⟨b.line, .neverClosed⟩
  | stack, m :: ms =>
    let line := lineNumber template m.start
    let after := next line m stack
    after.2.toList.map (⟨line, ·⟩) ++ problems template after.1 ms

end OpenBlock

namespace Report

/-- The paths of the variables among some markers, each where it first occurs. -/
def pathsOf (ms : List Marker) : List Text :=
  let paths := (ms.filter Marker.isVariable).map fun m => trim m.body
  paths.foldl (fun known path => if known.contains path then known else known ++ [path]) []

/-- The conditions of the `#if` and `#elseif` markers. -/
def conditionsOf (ms : List Marker) : List Text :=
  (ms.filter fun m => m.directive? = some .ifHeader || m.directive? = some .elseIf).map
    Marker.argument

/-- The report on a template. -/
def ofTemplate (d : Delimiters) (template : Text) : Report :=
  let ms := markers d template
  ⟨pathsOf ms, conditionsOf ms, OpenBlock.problems template [] ms⟩

end Report
end Stencil
