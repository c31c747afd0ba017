import Stencil.Text.Blank

/-! # Runs of blank lines

`collapseBlankRuns` shortens every run of two or more blank lines inside a text to a single empty
line.  A line is blank here when it holds spaces, tabs and carriage returns only; the run is read as
a line feed followed by at least two more, with only such characters in between, and two line feeds
are left of it.  Single blank lines keep their padding. -/

namespace Stencil

open Text

/-- The characters that may fill a blank line. -/
def isLineFiller (c : Char) : Bool := c == ' ' || c == '\t' || c == '\r'

/-- What follows a line feed with its filler, if a text starts with one. -/
def afterPaddedFeed? (text : Text) : Option Text := after? ['\n'] (text.dropWhile isLineFiller)

theorem length_of_afterPaddedFeed? {text rest : Text} (h : afterPaddedFeed? text = some rest) :
    rest.length < text.length := by
  have h1 := length_of_after? h
  have h2 := (List.dropWhile_sublist (l := text) isLineFiller).length_le
  simp only [List.length_cons, List.length_nil] at h1
  omega

/-- The number of padded line feeds that a text starts with, and what follows them. -/
def leadingFeeds (text : Text) : Nat × Text :=
  match _ : afterPaddedFeed? text with
  | some rest => (leadingFeeds rest).map (· + 1) id
  | none => (0, text)
termination_by text.length
decreasing_by exact length_of_afterPaddedFeed? ‹afterPaddedFeed? text = some rest›

theorem length_leadingFeeds_le (text : Text) : (leadingFeeds text).2.length ≤ text.length := by
  fun_induction leadingFeeds text with
  | case1 text rest h ih =>
    have := length_of_afterPaddedFeed? h
    rw [Prod.map_snd, id]
    omega
  | case2 => exact Nat.le_refl _

/-- The text with every run of blank lines shortened to one empty line. -/
def collapseBlankRuns : Text → Text
  | [] => []
  | c :: text =>
    if c = '\n' then
      let run := leadingFeeds text
      if 2 ≤ run.1 then '\n' :: '\n' :: collapseBlankRuns run.2
      else '\n' :: collapseBlankRuns text
    else c :: collapseBlankRuns text
termination_by text => text.length
decreasing_by
  · have := length_leadingFeeds_le text
    simp only [List.length_cons]
    omega
  all_goals simp

end Stencil
