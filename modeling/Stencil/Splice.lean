import Stencil.Text.Lines

/-! # Putting content where a block stood

`splice before content after` replaces a block between `before` and `after` by its content.

* A block that shares its line with other text is replaced as it stands, if the content has no line
  feed.
* A block alone on its lines that leaves nothing takes one line break with it.
* Other content keeps lines of its own: what is left blank of the lines of the header and the footer
  is dropped, and a line feed is added where the content would run into its neighbours.

`length_splice_le`: a splice adds at most two characters. -/

namespace Stencil

open Text

/-- The characters that may pad a line around a block. -/
def isPadding (c : Char) : Bool := c == ' ' || c == '\t'

namespace Splice

/-- Whether other text stands on the line on which the block stood. -/
def sharesLine (before after : Text) : Bool :=
  !(isBlank (lastLine before) && isBlank (firstLine after))

/-- Whether the block was the first thing on its line. -/
def opensLine (before : Text) : Bool :=
  (trimEnd isPadding before).isEmpty || endsWithFeed (trimEnd isPadding before)

/-- Whether the block was the last thing on its line. -/
def closesLine (after : Text) : Bool :=
  (trimStart isPadding after).isEmpty || startsWithBreak (trimStart isPadding after)

/-- What remains around a block without content: a block alone on its lines takes the line break
after it, or at the end of the text the one before it. -/
def collapse (before after : Text) : Text :=
  let head := trimEnd isPadding before
  let tail := trimStart isPadding after
  if opensLine before && closesLine after then
    if tail.isEmpty then dropTrailingBreak head else head ++ dropLeadingBreak tail
  else before ++ after

/-- Drops the first line of the content, if it is blank, with the padding before the block. -/
def dropHeaderLine (before content : Text) : Text × Text :=
  match cutFirstBreak? content with
  | some (first, rest) =>
    if isBlank first then (trimEnd isPadding before, rest) else (before, content)
  | none => (before, content)

/-- Drops the last line of the content, if it is blank, with the padding after the block. -/
def dropFooterLine (content after : Text) : Text × Text :=
  match cutLastBreak? content with
  | some (rest, last) =>
    if isBlank last then (dropTrailingReturn rest, trimStart isPadding after)
    else (content, after)
  | none => (content, after)

/-- The content on lines of its own between its neighbours. -/
def keepLines (before content after : Text) : Text :=
  let opens := opensLine before
  let closes := closesLine after
  let (before, content) := if opens then dropHeaderLine before content else (before, content)
  let (content, after) := if closes then dropFooterLine content after else (content, after)
  let content := if !opens && content.head? != some '\n' then '\n' :: content else content
  let content := if !closes && !endsWithFeed content then content ++ ['\n'] else content
  before ++ content ++ after

end Splice

/-- Puts content where a block stood. -/
def splice (before content after : Text) : Text :=
  if Splice.sharesLine before after && !content.contains '\n' then before ++ content ++ after
  else if isBlank content then Splice.collapse before after
  else Splice.keepLines before content after

/-! ### Length -/

namespace Splice

theorem length_collapse_le (before after : Text) :
    (collapse before after).length ≤ before.length + after.length := by
  have hb := length_trimEnd_le isPadding before
  have ha := length_trimStart_le isPadding after
  unfold collapse
  dsimp only
  split
  · split
    · have := length_dropTrailingBreak_le (trimEnd isPadding before)
      omega
    · have := length_dropLeadingBreak_le (trimStart isPadding after)
      rw [List.length_append]
      omega
  · exact Nat.le_of_eq List.length_append

theorem length_dropHeaderLine_le (before content : Text) :
    (dropHeaderLine before content).1.length + (dropHeaderLine before content).2.length
      ≤ before.length + content.length := by
  unfold dropHeaderLine
  split
  · rename_i first rest h
    have := congrArg List.length (eq_of_cutFirstBreak? h)
    have := length_trimEnd_le isPadding before
    simp only [List.length_append, List.length_cons] at *
    split <;> dsimp only <;> omega
  · exact Nat.le_refl _

theorem length_dropFooterLine_le (content after : Text) :
    (dropFooterLine content after).1.length + (dropFooterLine content after).2.length
      ≤ content.length + after.length := by
  unfold dropFooterLine
  split
  · rename_i rest last h
    have := congrArg List.length (eq_of_cutLastBreak? h)
    have := length_dropTrailingReturn_le rest
    have := length_trimStart_le isPadding after
    simp only [List.length_append, List.length_cons] at *
    split <;> dsimp only <;> omega
  · exact Nat.le_refl _

theorem length_keepLines_le (before content after : Text) :
    (keepLines before content after).length
      ≤ before.length + content.length + after.length + 2 := by
  have grow (b : Bool) (t u : Text) (h : u.length = t.length + 1) :
      (if b = true then u else t).length ≤ t.length + 1 := by
    split <;> omega
  unfold keepLines
  dsimp only
  generalize hp : (if opensLine before = true then dropHeaderLine before content
    else (before, content)) = p
  have h1 : p.1.length + p.2.length ≤ before.length + content.length := by
    rw [← hp]
    split
    · exact length_dropHeaderLine_le before content
    · exact Nat.le_refl _
  generalize hq : (if closesLine after = true then dropFooterLine p.2 after
    else (p.2, after)) = q
  have h2 : q.1.length + q.2.length ≤ p.2.length + after.length := by
    rw [← hq]
    split
    · exact length_dropFooterLine_le p.2 after
    · exact Nat.le_refl _
  generalize hr : (if (!opensLine before && q.1.head? != some '\n') = true then '\n' :: q.1
    else q.1) = r
  have h3 : r.length ≤ q.1.length + 1 := hr ▸ grow _ _ _ rfl
  have h4 := grow (!closesLine after && !endsWithFeed r) r (r ++ ['\n']) (by simp)
  simp only [List.length_append] at h4 ⊢
  omega

end Splice

/-- A splice adds at most one line feed on each side of the content. -/
theorem length_splice_le (before content after : Text) :
    (splice before content after).length
      ≤ before.length + content.length + after.length + 2 := by
  unfold splice
  split
  · simp only [List.length_append]
    omega
  · split
    · have := Splice.length_collapse_le before after
      omega
    · exact Splice.length_keepLines_le before content after

end Stencil
