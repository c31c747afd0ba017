import Stencil.Proofs.Document
import Stencil.Proofs.Row.Clauses

/-! # The layout of resolved documents

A run over the text of a document leaves a document after every pass: the lines of the block make way
for the lines of the section that was chosen, or for none if these are blank.

* `RowBlock.ofLines` is the block whose clauses are spread over lines; `print_row_ofLines` finds it in
  the text of the lines.
* `exists_chooseLines`: what one pass makes of the lines.
* `resolveBlocks_text`: a run over a document returns the lines that it keeps, and nothing else. -/

namespace Stencil

open Text

/-! ### Rows of lines -/

/-- A line feed as a symbol. -/
def feed : Symbol := .char '\n'

/-- Lines that end in a line feed each. -/
def Row.finished (lines : List Row) : Row := lines.flatMap (· ++ [feed])

/-- Lines that begin with a line feed each. -/
def Row.following (lines : List Row) : Row := lines.flatMap (feed :: ·)

/-- The content of a section: the rest of its directive's line, its lines, and the padding of the next
directive. -/
def framed (right : Text) (lines : List Row) (left : Text) : Row :=
  Row.literal right ++ feed :: (Row.finished lines ++ Row.literal left)

section rows
variable (d : Delimiters)

theorem print_finished (lines : List Row) :
    (Row.finished lines).print d = finished (lines.map (Row.print d)) := by
  induction lines with
  | nil => rfl
  | cons w lines ih =>
    rw [Row.finished, List.flatMap_cons, ← Row.finished, Row.print_append, Row.print_append, ih]
    rfl

theorem print_following (lines : List Row) :
    (Row.following lines).print d = following (lines.map (Row.print d)) := by
  induction lines with
  | nil => rfl
  | cons w lines ih =>
    rw [Row.following, List.flatMap_cons, ← Row.following, Row.print_append, ih]
    rfl

theorem print_framed (right left : Text) (lines : List Row) : (framed right lines left).print d
    = right ++ '\n' :: (finished (lines.map (Row.print d)) ++ left) := by
  rw [framed, Row.print_append, Row.print_literal, Row.print_cons, Row.print_append, print_finished,
    Row.print_literal]
  rfl

theorem printLines_append_cons (front back : List Row) (w : Row) :
    printLines d (front ++ w :: back)
      = (Row.finished front ++ w ++ Row.following back).print d := by
  rw [printLines, List.map_append, List.map_cons, joinLines_append_cons, Row.print_append,
    Row.print_append, print_finished, print_following]

end rows

/-! ### Clauses on lines of their own -/

/-- A clause of a block: how its directive stands on its line, the directive, and the lines of its
section. -/
structure Clause where
  margin : Margin
  body : Text
  lines : List Row

namespace Clause

/-- The directive of a clause. -/
def symbol (c : Clause) : Symbol := .marker c.margin.level c.body

/-- The padding in front of the next directive, where `last` is that in front of the footer. -/
def nextLeft (last : Text) : List Clause → Text
  | [] => last
  | c :: _ => c.margin.left

/-- The lines of some clauses. -/
def allLines (clauses : List Clause) : List Row :=
  clauses.flatMap fun c => c.margin.line c.body :: c.lines

/-- The clauses of the block that some clauses on lines make. -/
def contents (last : Text) : List Clause → List (Symbol × Row)
  | [] => []
  | c :: clauses =>
    (c.symbol, framed c.margin.right c.lines (nextLeft last clauses)) :: contents last clauses

/-- The lines of the first clause that is an `#else` or whose condition holds. -/
def chooseLines (data : Value) : List Clause → Except Fault (List Row)
  | [] => .ok []
  | c :: clauses =>
    if Directive.ofBody? c.body = some .otherwise then .ok c.lines
    else do
      let holds ← evaluate (some (argumentOf c.body)) data
      if holds then .ok c.lines else chooseLines data clauses

/-- The finished lines of clauses are the padding of the first directive and the joined clauses. -/
theorem finished_allLines (last : Text) (clauses : List Clause) :
    Row.finished (allLines clauses) ++ Row.literal last
      = Row.literal (nextLeft last clauses) ++ joined (contents last clauses) := by
  induction clauses with
  | nil => simp [allLines, Row.finished, nextLeft, contents, joined]
  | cons c clauses ih =>
    have split : Row.finished (allLines (c :: clauses)) = c.margin.line c.body ++ [feed]
        ++ Row.finished c.lines ++ Row.finished (allLines clauses) := by
      simp [allLines, Row.finished]
    have cut : joined (contents last (c :: clauses)) = c.symbol :: (framed c.margin.right c.lines
        (nextLeft last clauses) ++ joined (contents last clauses)) := rfl
    rw [split, List.append_assoc, ih, cut]
    simp [framed, Margin.line, nextLeft, symbol]

theorem isPadding_nextLeft {last : Text} (hlast : IsPadding last) {clauses : List Clause}
    (fits : ∀ c ∈ clauses, c.margin.Fits) : IsPadding (nextLeft last clauses) := by
  cases clauses with
  | nil => exact hlast
  | cons c clauses => exact (fits c List.mem_cons_self).left

/-- A clause whose directive can stand on its line and whose section is settled. -/
structure IsClean (d : Delimiters) (c : Clause) : Prop where
  margin : c.margin.Fits
  nonempty : c.body ≠ []
  body : d.CleanLine c.body
  lines : ∀ w ∈ c.lines, w.IsContentLine d

end Clause

/-- What stands in a block for some lines. -/
inductive FrameOf : List Row → Row → Prop where
  | nothing : FrameOf [] []
  | framed {right left : Text} (lines : List Row) : IsPadding right → IsPadding left →
      FrameOf lines (framed right lines left)

section choose
variable {d : Delimiters} {data : Value} {last : Text} {clauses : List Clause}

open Clause

/-- What is chosen among the contents of clauses stands for the lines that are chosen. -/
theorem exists_chooseLines (hlast : IsPadding last) (clean : ∀ c ∈ clauses, c.IsClean d) {r : Row}
    (h : chooseClause data (contents last clauses) = .ok r) :
    ∃ lines, chooseLines data clauses = .ok lines ∧ FrameOf lines r
      ∧ ∀ w ∈ lines, w.IsContentLine d := by
  induction clauses with
  | nil =>
    rw [contents, chooseClause, Except.ok.injEq] at h
    subst h
    exact ⟨[], rfl, .nothing, List.forall_mem_nil _⟩
  | cons c clauses ih =>
    obtain ⟨own, later⟩ := List.forall_mem_cons.mp clean
    have frame : FrameOf c.lines (framed c.margin.right c.lines (nextLeft last clauses)) :=
      .framed c.lines own.margin.right (isPadding_nextLeft hlast fun x hx => (later x hx).margin)
    rw [contents, chooseClause] at h
    rw [chooseLines]
    by_cases is_else : Directive.ofBody? c.body = some .otherwise
    · rw [if_pos (show c.symbol.directive? = some .otherwise from is_else), Except.ok.injEq] at h
      subst h
      exact ⟨c.lines, if_pos is_else, frame, own.lines⟩
    · rw [if_neg (show c.symbol.directive? ≠ some .otherwise from is_else)] at h
      rw [if_neg is_else]
      obtain ⟨holds, he, h⟩ := ok_of_bind h
      rw [ok_bind (show evaluate (some (argumentOf c.body)) data = .ok holds from he)]
      cases holds with
      | true =>
        obtain rfl := Except.ok.inj h
        exact ⟨c.lines, rfl, frame, own.lines⟩
      | false => exact ih later h

end choose

/-! ### The block of some clauses -/

/-- The block that some clauses make between lines. -/
def RowBlock.ofLines (front : List Row) (first : Clause) (others : List Clause) (footer : Margin)
    (back : List Row) : RowBlock :=
  ⟨Row.finished front ++ Row.literal first.margin.left, first.symbol,
    framed first.margin.right first.lines (Clause.nextLeft footer.left others)
      ++ joined (Clause.contents footer.left others),
    .marker footer.level Directive.endBody, Row.literal footer.right ++ Row.following back⟩

/-- The lines of a block between other lines. -/
def blockLines (front : List Row) (clauses : List Clause) (footer : Margin) (back : List Row) :
    List Row :=
  front ++ (Clause.allLines clauses ++ footer.line Directive.endBody :: back)

section ofLines
variable {d : Delimiters} {front back : List Row} {first : Clause} {others : List Clause}
  {footer : Margin}

theorem row_ofLines : (RowBlock.ofLines front first others footer back).row
    = Row.finished (front ++ Clause.allLines (first :: others)) ++ footer.line Directive.endBody
      ++ Row.following back := by
  have apart : Row.finished (front ++ Clause.allLines (first :: others))
        ++ footer.line Directive.endBody ++ Row.following back
      = Row.finished front ++ (Row.finished (Clause.allLines (first :: others))
        ++ Row.literal footer.left) ++ .marker footer.level Directive.endBody
          :: (Row.literal footer.right ++ Row.following back) := by
    simp [Row.finished, Margin.line]
  rw [apart, Clause.finished_allLines]
  simp [RowBlock.row, RowBlock.ofLines, joined, Clause.contents, Clause.nextLeft]

/-- The lines of a block are the text of the block. -/
theorem print_row_ofLines : printLines d (blockLines front (first :: others) footer back)
    = (RowBlock.ofLines front first others footer back).row.print d := by
  rw [row_ofLines, blockLines, ← List.append_assoc, printLines_append_cons]

theorem clean_feed (solid : d.Solid) : feed.Clean d := by
  have blank : isBlank ['\n'] = true := by decide
  exact solid.clean blank

theorem clean_finished (solid : d.Solid) {lines : List Row} (h : ∀ w ∈ lines, w.Clean d) :
    (Row.finished lines).Clean d := by
  intro s hs
  obtain ⟨w, hw, hs⟩ := List.mem_flatMap.mp hs
  rcases List.mem_append.mp hs with hs | hs
  · exact h w hw s hs
  · rw [List.mem_singleton.mp hs]
    exact clean_feed solid

theorem clean_following (solid : d.Solid) {lines : List Row} (h : ∀ w ∈ lines, w.Clean d) :
    (Row.following lines).Clean d := by
  intro s hs
  obtain ⟨w, hw, hs⟩ := List.mem_flatMap.mp hs
  rcases List.mem_cons.mp hs with rfl | hs
  · exact clean_feed solid
  · exact h w hw s hs

theorem isContent_literal (text : Text) : (Row.literal text).IsContent := by
  intro s hs
  obtain ⟨c, -, rfl⟩ := List.mem_map.mp hs
  trivial

theorem isContent_framed {right left : Text} {lines : List Row} (h : ∀ w ∈ lines, w.IsContent) :
    (framed right lines left).IsContent := by
  refine List.forall_mem_append.mpr ⟨isContent_literal right, ?_⟩
  refine List.forall_mem_cons.mpr ⟨trivial, ?_⟩
  refine List.forall_mem_append.mpr ⟨?_, isContent_literal left⟩
  intro s hs
  obtain ⟨w, hw, hs⟩ := List.mem_flatMap.mp hs
  rcases List.mem_append.mp hs with hs | hs
  · exact h w hw s hs
  · rw [List.mem_singleton.mp hs]
    trivial

theorem unopened_following {lines : List Row} (h : ∀ w ∈ lines, w.Unopened) :
    (Row.following lines).Unopened := by
  intro s hs
  obtain ⟨w, hw, hs⟩ := List.mem_flatMap.mp hs
  rcases List.mem_cons.mp hs with rfl | hs
  · simp [feed, Symbol.directive?]
  · exact h w hw s hs

theorem neutral_framed {c : Clause} (clean : c.IsClean d) (left : Text) :
    (framed c.margin.right c.lines left).Neutral :=
  neutral_of_isContent (isContent_framed fun w hw => (clean.lines w hw).content)

theorem areBranches_contents {last : Text} {clauses : List Clause}
    (clean : ∀ c ∈ clauses, c.IsClean d) (branches : ∀ c ∈ clauses, c.symbol.isBranch = true) :
    AreBranches (Clause.contents last clauses) := by
  induction clauses with
  | nil => exact List.forall_mem_nil _
  | cons c clauses ih =>
    obtain ⟨own, later⟩ := List.forall_mem_cons.mp clean
    obtain ⟨branch, others⟩ := List.forall_mem_cons.mp branches
    exact List.forall_mem_cons.mpr ⟨⟨branch, neutral_framed own _⟩, ih later others⟩

/-- The clauses of the block are those on the lines. -/
theorem clauses_ofLines (first_clean : first.IsClean d) (clean : ∀ c ∈ others, c.IsClean d)
    (branches : ∀ c ∈ others, c.symbol.isBranch = true) :
    (RowBlock.ofLines front first others footer back).clauses
      = Clause.contents footer.left (first :: others) := by
  rw [RowBlock.clauses, RowBlock.ofLines, cutBranches_append (neutral_framed first_clean _),
    cutBranches_joined (areBranches_contents clean branches), List.append_nil]
  rfl

theorem innermost_ofLines (first_clean : first.IsClean d)
    (header : Directive.ofBody? first.body = some .ifHeader)
    (clean : ∀ c ∈ others, c.IsClean d) (branches : ∀ c ∈ others, c.symbol.isBranch = true) :
    (RowBlock.ofLines front first others footer back).Innermost := by
  refine ⟨header, ?_, Directive.ofBody?_endBody⟩
  refine List.forall_mem_append.mpr ⟨level_of_neutral (neutral_framed first_clean _), ?_⟩
  exact level_joined (areBranches_contents clean branches)

theorem unopened_after_ofLines (last : ∀ w ∈ back, w.Unopened) :
    (RowBlock.ofLines front first others footer back).after.Unopened :=
  unopened_append (unopened_of_isContent (isContent_literal footer.right)) (unopened_following last)

/-- The lines of a clean clause are clean. -/
theorem isLine_allLines (solid : d.Solid) {clauses : List Clause}
    (clean : ∀ c ∈ clauses, c.IsClean d) : ∀ w ∈ Clause.allLines clauses, w.IsLine d := by
  intro w hw
  obtain ⟨c, hc, hw⟩ := List.mem_flatMap.mp hw
  have own := clean c hc
  rcases List.mem_cons.mp hw with rfl | hw
  · exact isLine_margin solid own.margin own.nonempty own.body
  · exact (own.lines w hw).toIsLine

theorem clean_row_ofLines (solid : d.Solid) (clean_front : ∀ w ∈ front, w.IsLine d)
    (clean_back : ∀ w ∈ back, w.IsLine d) (clean : ∀ c ∈ first :: others, c.IsClean d)
    (fits : footer.Fits) (word : d.CleanLine Directive.endBody) :
    (RowBlock.ofLines front first others footer back).row.Clean d := by
  rw [row_ofLines, Row.clean_append, Row.clean_append]
  refine ⟨⟨clean_finished solid ?_, ?_⟩, clean_following solid fun w hw => (clean_back w hw).clean⟩
  · intro w hw
    rcases List.mem_append.mp hw with hw | hw
    · exact (clean_front w hw).clean
    · exact (isLine_allLines solid clean w hw).clean
  · exact (isLine_margin solid fits (List.cons_ne_nil _ _) word).clean

end ofLines

/-! ### One pass -/

section pass
variable {d : Delimiters} {data : Value} {front back : List Row} {first : Clause}
  {others : List Clause} {footer : Margin}

/-- Whatever stands in a block for lines, the splice leaves the lines unless they are blank. -/
theorem splice_frameOf (solid : d.Solid) {lines : List Row} {r : Row} (frame : FrameOf lines r)
    (clean : ∀ w ∈ lines, w.IsLine d) (clean_front : ∀ w ∈ front, w.IsLine d) {left right : Text}
    (hl : IsPadding left) (hr : IsPadding right) :
    splice ((Row.finished front ++ Row.literal left).print d) (r.print d)
        ((Row.literal right ++ Row.following back).print d)
      = printLines d (front ++ (Row.unlessBlank lines ++ back)) := by
  have unbroken {ls : List Row} (h : ∀ w ∈ ls, w.IsLine d) :
      ∀ line ∈ ls.map (Row.print d), Unbroken line := by
    intro line hline
    obtain ⟨w, hw, rfl⟩ := List.mem_map.mp hline
    exact unbroken_print solid (h w hw)
  rw [Row.print_append, Row.print_append, print_finished, print_following, Row.print_literal,
    Row.print_literal, printLines, List.map_append, List.map_append]
  cases frame with
  | nothing => 
    rw [Row.print_nil, splice_nothing hl hr (unbroken clean_front)]
    rfl
  | framed lines hright hleft =>
    rw [print_framed, splice_lines hl hr hleft hright (unbroken clean_front) (unbroken clean),
      unlessBlank_print solid fun w hw => (clean w hw).clean, List.append_assoc]

/-- **One pass over lines**: the lines of the block make way for those of the clause that is chosen,
or for none if these are blank. -/
theorem exists_pass (solid : d.Solid) (clean_front : ∀ w ∈ front, w.IsLine d)
    (clean_back : ∀ w ∈ back, w.IsLine d) (last : ∀ w ∈ back, w.Unopened)
    (clean : ∀ c ∈ first :: others, c.IsClean d)
    (header : Directive.ofBody? first.body = some .ifHeader)
    (branches : ∀ c ∈ others, c.symbol.isBranch = true) (fits : footer.Fits)
    (word : d.CleanLine Directive.endBody) {out : Text}
    (h : resolveBlocks d data (printLines d (blockLines front (first :: others) footer back))
      = .ok out) :
    ∃ lines, Clause.chooseLines data (first :: others) = .ok lines
      ∧ (∀ w ∈ lines, w.IsContentLine d)
      ∧ resolveBlocks d data (printLines d (front ++ (Row.unlessBlank lines ++ back))) = .ok out := by
  obtain ⟨first_clean, others_clean⟩ := List.forall_mem_cons.mp clean
  rw [print_row_ofLines] at h
  have last_after : (RowBlock.ofLines front first others footer back).after.Unopened :=
    unopened_after_ofLines last
  have found := Row.block?_append (innermost_ofLines first_clean header others_clean branches)
    last_after
  have clean_row := clean_row_ofLines solid clean_front clean_back clean fits word
  obtain ⟨r, hr, h⟩ := exists_chooseClause solid.usable (clean_row.legible solid.usable) found h
  rw [clauses_ofLines first_clean others_clean branches] at hr
  obtain ⟨lines, chosen, frame, content⟩ := exists_chooseLines fits.left clean hr
  refine ⟨lines, chosen, content, ?_⟩
  rw [← splice_frameOf solid frame (fun w hw => (content w hw).toIsLine) clean_front
    first_clean.margin.left fits.right]
  exact h

end pass

/-! ### Clauses of a document -/

/-- The clauses of some branches with the lines that each keeps. -/
def Alternatives.clauses (data : Value) : Alternatives → Except Fault (List Clause)
  | .none => .ok []
  | .elseIf margin condition body later => do
    let own ← body.kept data
    return ⟨margin, Directive.elseIfBody condition, own⟩ :: (← later.clauses data)
  | .otherwise margin body later => do
    let own ← body.kept data
    return ⟨margin, Directive.elseBody, own⟩ :: (← later.clauses data)

section clauses
variable {d : Delimiters} {data : Value}

/-- The clauses of clean branches are clean and begin with branches. -/
theorem isClean_clauses (plain : d.Plain) : {others : Alternatives} → others.Clean d →
    {clauses : List Clause} → others.clauses data = .ok clauses →
    ∀ c ∈ clauses, c.IsClean d ∧ c.symbol.isBranch = true
  | .none, _, _, h => by
    rw [← Except.ok.inj h]
    exact List.forall_mem_nil _
  | .elseIf margin condition body later, clean, _, h => by
    obtain ⟨own, ho, h⟩ := ok_of_bind h
    obtain ⟨rest, hr, h⟩ := ok_of_bind h
    rw [← Except.ok.inj h]
    refine List.forall_mem_cons.mpr ⟨⟨?_, ?_⟩, isClean_clauses plain clean.2.2 hr⟩
    · exact ⟨clean.1.1, List.cons_ne_nil _ _, cleanLine_elseIfBody plain clean.1.2,
        Document.isContentLine_kept clean.2.1 ho⟩
    · simp [Clause.symbol, Symbol.isBranch, Symbol.directive?, Directive.ofBody?_elseIfBody]
  | .otherwise margin body later, clean, _, h => by
    obtain ⟨own, ho, h⟩ := ok_of_bind h
    obtain ⟨rest, hr, h⟩ := ok_of_bind h
    rw [← Except.ok.inj h]
    refine List.forall_mem_cons.mpr ⟨⟨?_, ?_⟩, isClean_clauses plain clean.2.2 hr⟩
    · exact ⟨clean.1, List.cons_ne_nil _ _, cleanLine_elseBody plain,
        Document.isContentLine_kept clean.2.1 ho⟩
    · simp [Clause.symbol, Symbol.isBranch, Symbol.directive?, Directive.ofBody?_elseBody]

/-- Choosing among the clauses is choosing among the branches. -/
theorem chooseLines_clauses : {others : Alternatives} → {clauses : List Clause} →
    others.clauses data = .ok clauses → Clause.chooseLines data clauses = others.kept data
  | .none, _, h => by
    rw [← Except.ok.inj h]
    rfl
  | .elseIf margin condition body later, _, h => by
    obtain ⟨own, ho, h⟩ := ok_of_bind h
    obtain ⟨rest, hr, h⟩ := ok_of_bind h
    have no_else : Directive.ofBody? (Directive.elseIfBody condition) ≠ some .otherwise := by
      simp [Directive.ofBody?_elseIfBody]
    rw [← Except.ok.inj h, Clause.chooseLines, if_neg no_else, Directive.argumentOf_elseIfBody,
      chooseLines_clauses hr, Alternatives.kept, ho]
  | .otherwise margin body later, _, h => by
    obtain ⟨own, ho, h⟩ := ok_of_bind h
    obtain ⟨rest, hr, h⟩ := ok_of_bind h
    rw [← Except.ok.inj h, Clause.chooseLines, if_pos Directive.ofBody?_elseBody,
      Alternatives.kept, ho]

/-- What is chosen of a block: the lines of its first section, or what is chosen of its branches. -/
theorem chooseLines_block {header : Margin} {condition : Text} {body : Document}
    {others : Alternatives} {own : List Row} {clauses : List Clause} (ho : body.kept data = .ok own)
    (hc : others.clauses data = .ok clauses) {lines : List Row}
    (h : Clause.chooseLines data (⟨header, Directive.ifBody condition, own⟩ :: clauses)
      = .ok lines) :
    ∃ holds, evaluate (some (trim condition)) data = .ok holds
      ∧ (if holds then body.kept data else others.kept data) = .ok lines := by
  have no_else : Directive.ofBody? (Directive.ifBody condition) ≠ some .otherwise := by
    simp [Directive.ofBody?_ifBody]
  rw [Clause.chooseLines, if_neg no_else, Directive.argumentOf_ifBody] at h
  obtain ⟨holds, he, h⟩ := ok_of_bind h
  rw [chooseLines_clauses hc, ← ho] at h
  exact ⟨holds, he, h⟩

end clauses

/-! ### Resolving a document -/

/-- A line without a header. -/
structure Row.IsSettledLine (d : Delimiters) (w : Row) : Prop extends Row.IsLine d w where
  unopened : w.Unopened

/-- Whatever lines stand in front of a document and whatever without a header behind it, a run comes
to the lines that the document keeps. -/
def Document.Resolves (d : Delimiters) (data : Value) (out : Text) (doc : Document) : Prop :=
  ∀ {pre post : List Row}, (∀ w ∈ pre, w.IsLine d) → (∀ w ∈ post, w.IsSettledLine d) →
    resolveBlocks d data (printLines d (pre ++ (doc.lines ++ post))) = .ok out →
    ∃ kept, doc.kept data = .ok kept
      ∧ resolveBlocks d data (printLines d (pre ++ (kept ++ post))) = .ok out

/-- The same of branches and the lines that each keeps. -/
def Alternatives.Resolves (d : Delimiters) (data : Value) (out : Text) (others : Alternatives) :
    Prop :=
  ∀ {pre post : List Row}, (∀ w ∈ pre, w.IsLine d) → (∀ w ∈ post, w.IsSettledLine d) →
    resolveBlocks d data (printLines d (pre ++ (others.lines ++ post))) = .ok out →
    ∃ clauses, others.clauses data = .ok clauses
      ∧ resolveBlocks d data (printLines d (pre ++ (Clause.allLines clauses ++ post))) = .ok out

section resolves
variable {d : Delimiters} {data : Value} {out : Text}

theorem isSettledLine_of_isContentLine {w : Row} (h : w.IsContentLine d) : w.IsSettledLine d :=
  ⟨h.toIsLine, unopened_of_isContent h.content⟩

/-- The line of a directive that is no header. -/
theorem isSettledLine_margin (solid : d.Solid) {m : Margin} (fits : m.Fits) {body : Text}
    (hne : body ≠ []) (clean : d.CleanLine body)
    (no_header : Directive.ofBody? body ≠ some .ifHeader) : (m.line body).IsSettledLine d := by
  refine ⟨isLine_margin solid fits hne clean, ?_⟩
  refine unopened_append (unopened_of_isContent (isContent_literal m.left)) ?_
  exact List.forall_mem_cons.mpr ⟨no_header, unopened_of_isContent (isContent_literal m.right)⟩

theorem isSettledLine_allLines (solid : d.Solid) {clauses : List Clause}
    (h : ∀ c ∈ clauses, c.IsClean d ∧ c.symbol.isBranch = true) :
    ∀ w ∈ Clause.allLines clauses, w.IsSettledLine d := by
  intro w hw
  obtain ⟨c, hc, hw⟩ := List.mem_flatMap.mp hw
  obtain ⟨clean, branch⟩ := h c hc
  rcases List.mem_cons.mp hw with rfl | hw
  · exact isSettledLine_margin solid clean.margin clean.nonempty clean.body
      (level_of_isBranch branch).1
  · exact isSettledLine_of_isContentLine (clean.lines w hw)

theorem resolves_line {w : Row} {rest : Document} (own : w.IsLine d)
    (later : rest.Resolves d data out) : (Document.line w rest).Resolves d data out := by
  intro pre post front back h
  have apart (ls : List Row) : pre ++ ((w :: ls) ++ post) = (pre ++ [w]) ++ (ls ++ post) := by
    simp
  rw [Document.lines, apart] at h
  have front_w : ∀ x ∈ pre ++ [w], x.IsLine d :=
    List.forall_mem_append.mpr ⟨front, List.forall_mem_singleton.mpr own⟩
  obtain ⟨kept, hk, h⟩ := later front_w back h
  refine ⟨w :: kept, ?_, ?_⟩
  · rw [Document.kept, ok_bind hk]
    rfl
  · rw [apart]
    exact h

/-- A section is resolved after the branches behind it. -/
theorem resolves_clause (plain : d.Plain) {margin : Margin} {opener : Text} {body : Document}
    {later : Alternatives} {pre post : List Row} (clean : later.Clean d)
    (own : (margin.line opener).IsLine d) (body_lines : ∀ w ∈ body.lines, w.IsLine d)
    (inside : body.Resolves d data out) (aside : later.Resolves d data out)
    (front : ∀ w ∈ pre, w.IsLine d) (back : ∀ w ∈ post, w.IsSettledLine d)
    (h : resolveBlocks d data
      (printLines d (pre ++ ((margin.line opener :: (body.lines ++ later.lines)) ++ post))) = .ok out) :
    ∃ kept clauses, body.kept data = .ok kept ∧ later.clauses data = .ok clauses
      ∧ resolveBlocks d data
        (printLines d (pre ++ (Clause.allLines (⟨margin, opener, kept⟩ :: clauses) ++ post)))
          = .ok out := by
  have at_later : resolveBlocks d data (printLines d ((pre ++ margin.line opener :: body.lines)
      ++ (later.lines ++ post))) = .ok out := by
    simpa using h
  have front_later : ∀ w ∈ pre ++ margin.line opener :: body.lines, w.IsLine d := by
    simp only [List.forall_mem_append, List.forall_mem_cons]
    exact ⟨front, own, body_lines⟩
  obtain ⟨clauses, hc, h⟩ := aside front_later back at_later
  have back_clauses : ∀ w ∈ Clause.allLines clauses ++ post, w.IsSettledLine d :=
    List.forall_mem_append.mpr
      ⟨isSettledLine_allLines plain.toSolid (isClean_clauses plain clean hc), back⟩
  have at_body : resolveBlocks d data (printLines d ((pre ++ [margin.line opener])
      ++ (body.lines ++ (Clause.allLines clauses ++ post)))) = .ok out := by
    simpa using h
  have front_body : ∀ w ∈ pre ++ [margin.line opener], w.IsLine d :=
    List.forall_mem_append.mpr ⟨front, List.forall_mem_singleton.mpr own⟩
  obtain ⟨kept, hk, h⟩ := inside front_body back_clauses at_body
  refine ⟨kept, clauses, hk, hc, ?_⟩
  simpa [Clause.allLines] using h

/-- A block is resolved from its end: first what follows it, then its sections.  The next
pass is its own. -/
theorem resolves_block (plain : d.Plain) {header footer : Margin} {condition : Text}
    {body rest : Document} {others : Alternatives}
    (clean : (Document.block header condition body others footer rest).Clean d)
    (inside : body.Resolves d data out) (aside : others.Resolves d data out)
    (later : rest.Resolves d data out) :
    (Document.block header condition body others footer rest).Resolves d data out := by
  intro pre post front back h
  obtain ⟨⟨fits, hc, fits'⟩, hbody, hothers, hrest⟩ := clean
  let first := header.line (Directive.ifBody condition)
  let last := footer.line Directive.endBody
  have first_line : first.IsLine d :=
    isLine_margin plain.toSolid fits (List.cons_ne_nil _ _) (cleanLine_ifBody plain hc)
  have last_line : last.IsSettledLine d :=
    isSettledLine_margin plain.toSolid fits' (List.cons_ne_nil _ _) (cleanLine_endBody plain)
      (by simp [Directive.ofBody?_endBody])
  have body_lines := Document.isLine_lines plain body hbody
  have others_lines := Alternatives.isLine_lines plain others hothers
  have at_rest : resolveBlocks d data (printLines d ((pre ++ first :: (body.lines ++ (others.lines
      ++ [last]))) ++ (rest.lines ++ post))) = .ok out := by
    simpa [Document.lines, first, last] using h
  have front_rest : ∀ w ∈ pre ++ first :: (body.lines ++ (others.lines ++ [last])),
      w.IsLine d := by
    simp only [List.forall_mem_append, List.forall_mem_cons]
    exact ⟨front, first_line, body_lines, others_lines, last_line.toIsLine, List.forall_mem_nil _⟩
  obtain ⟨kept, hk, h⟩ := later front_rest back at_rest
  have kept_lines := Document.isContentLine_kept hrest hk
  have back_kept : ∀ w ∈ kept ++ post, w.IsSettledLine d :=
    List.forall_mem_append.mpr
      ⟨fun w hw => isSettledLine_of_isContentLine (kept_lines w hw), back⟩
  have back_last : ∀ w ∈ last :: (kept ++ post), w.IsSettledLine d :=
    List.forall_mem_cons.mpr ⟨last_line, back_kept⟩
  have at_sections : resolveBlocks d data (printLines d (pre
      ++ ((first :: (body.lines ++ others.lines)) ++ last :: (kept ++ post)))) = .ok out := by
    simpa using h
  obtain ⟨own, clauses, ho, hcl, h⟩ := resolves_clause plain hothers first_line body_lines inside
    aside front back_last at_sections
  have clauses_clean := isClean_clauses plain hothers hcl
  let head : Clause := ⟨header, Directive.ifBody condition, own⟩
  have head_clean : head.IsClean d := ⟨fits, List.cons_ne_nil _ _, cleanLine_ifBody plain hc,
    Document.isContentLine_kept hbody ho⟩
  have at_block : resolveBlocks d data (printLines d (blockLines pre (head :: clauses) footer
      (kept ++ post))) = .ok out := by
    simpa [blockLines, Clause.allLines, head, first, last] using h
  obtain ⟨lines, chosen, -, h⟩ := exists_pass plain.toSolid front
    (fun w hw => (back_kept w hw).toIsLine) (fun w hw => (back_kept w hw).unopened)
    (List.forall_mem_cons.mpr ⟨head_clean, fun c hc => (clauses_clean c hc).1⟩)
    (Directive.ofBody?_ifBody condition) (fun c hc => (clauses_clean c hc).2) fits'
    (cleanLine_endBody plain) at_block
  obtain ⟨holds, he, shown⟩ := chooseLines_block ho hcl chosen
  refine ⟨Row.unlessBlank lines ++ kept, ?_, ?_⟩
  · rw [Document.kept, ok_bind he, ok_bind shown, ok_bind hk]
    rfl
  · rw [List.append_assoc]
    exact h

mutual

/-- **A run over a document comes to the lines that it keeps.** -/
theorem Document.resolves (plain : d.Plain) : (doc : Document) → doc.Clean d →
    doc.Resolves d data out
  | .empty, _ => fun _ _ h => ⟨[], rfl, h⟩
  | .line _ rest, clean => resolves_line clean.1.toIsLine (Document.resolves plain rest clean.2)
  | .block _ _ body others _ rest, clean =>
    resolves_block plain clean (Document.resolves plain body clean.2.1)
      (Alternatives.resolves plain others clean.2.2.1) (Document.resolves plain rest clean.2.2.2)

theorem Alternatives.resolves (plain : d.Plain) : (others : Alternatives) → others.Clean d →
    others.Resolves d data out
  | .none, _ => fun _ _ h => ⟨[], rfl, h⟩
  | .elseIf margin condition body later, ⟨⟨fits, hc⟩, hbody, hlater⟩ => by
    intro front back h
    have own := isLine_margin plain.toSolid fits (List.cons_ne_nil _ _)
      (cleanLine_elseIfBody plain hc)
    obtain ⟨kept, clauses, hk, hc, h⟩ := resolves_clause plain hlater own
      (Document.isLine_lines plain body hbody) (Document.resolves plain body hbody)
      (Alternatives.resolves plain later hlater) front back h
    refine ⟨_, ?_, h⟩
    rw [Alternatives.clauses, ok_bind hk, ok_bind hc]
    rfl
  | .otherwise margin body later, ⟨fits, hbody, hlater⟩ => by
    intro front back h
    have own := isLine_margin plain.toSolid fits (List.cons_ne_nil _ _) (cleanLine_elseBody plain)
    obtain ⟨kept, clauses, hk, hc, h⟩ := resolves_clause plain hlater own
      (Document.isLine_lines plain body hbody) (Document.resolves plain body hbody)
      (Alternatives.resolves plain later hlater) front back h
    refine ⟨_, ?_, h⟩
    rw [Alternatives.clauses, ok_bind hk, ok_bind hc]
    rfl

end

/-- Lines of literals and variables hold no block. -/
theorem resolveBlocks_printLines (solid : d.Solid) {lines : List Row}
    (content : ∀ w ∈ lines, w.IsContentLine d) :
    resolveBlocks d data (printLines d lines) = .ok (printLines d lines) := by
  have settled {w : Row} (clean : w.Clean d) (unopened : w.Unopened) :
      resolveBlocks d data (w.print d) = .ok (w.print d) :=
    resolveBlocks_of_none
      (pass?_print_of_none solid.usable (clean.legible solid.usable) (Row.block?_eq_none unopened))
  cases lines with
  | nil => exact settled (w := []) (List.forall_mem_nil _) (List.forall_mem_nil _)
  | cons w lines =>
    obtain ⟨own, later⟩ := List.forall_mem_cons.mp content
    have row : printLines d (w :: lines) = (w ++ Row.following lines).print d :=
      printLines_append_cons d [] lines w
    rw [row]
    apply settled
    · exact Row.clean_append.mpr
        ⟨own.clean, clean_following solid fun w hw => (later w hw).clean⟩
    · exact unopened_append (unopened_of_isContent own.content)
        (unopened_following fun w hw => unopened_of_isContent (later w hw).content)

/-- **The layout of a resolved document.**  Let the delimiters hold no blank and no character of a
directive's word.  If no condition fails, a run over a clean document returns the lines that the
document keeps, joined by line feeds. -/
theorem resolveBlocks_text (plain : d.Plain) {doc : Document} (clean : doc.Clean d)
    (calm : Calm d data (doc.text d)) :
    ∃ kept, doc.kept data = .ok kept ∧ resolveBlocks d data (doc.text d) = .ok (printLines d kept) := by
  obtain ⟨out, resolved⟩ := calm_iff.mp calm
  have at_doc : resolveBlocks d data (printLines d ([] ++ (doc.lines ++ []))) = .ok out := by
    simpa [Document.text] using resolved
  obtain ⟨kept, hk, h⟩ := Document.resolves plain doc clean (List.forall_mem_nil _)
    (List.forall_mem_nil _) at_doc
  rw [List.nil_append, List.append_nil, resolveBlocks_printLines plain.toSolid
    (Document.isContentLine_kept clean hk)] at h
  exact ⟨kept, hk, resolved.trans h.symm⟩

end resolves

/-- A block whose first section starts with a block that leaves blank lines only. -/
theorem resolveBlocks_text_nested :
    let d : Delimiters := ⟨['<'], ['>']⟩
    let data : Value := .mapping [(['a'], .bool true)]
    let margin : Margin := ⟨[' ', '\t'], 1, [' ']⟩
    let inner : Document := .block margin ['a'] (.line (Row.literal [' ', ' ']) .empty)
      (.otherwise margin (.line [.char 'y'] .empty) .none) margin .empty
    let nested : Document := .block margin ['b'] inner .none margin
      (.line [.char 'x', .marker 1 ['n']] (.line [] .empty))
    let doc : Document := .block margin ['!', 'b'] nested
      (.elseIf margin ['a'] inner .none) margin (.line [.char 'z'] .empty)
    d.Plain ∧ doc.Clean d ∧ Calm d data (doc.text d)
      ∧ doc.kept data = .ok [[.char 'x', .marker 1 ['n']], [], [.char 'z']]
      ∧ resolveBlocks d data (doc.text d) = .ok ['x', '<', 'n', '>', '\n', '\n', 'z'] := by
  intro d data margin inner nested doc
  have plain : d.Plain := by decide
  have clean : doc.Clean d := by decide
  have calm : Calm d data (doc.text d) := by decide +kernel
  have kept_lines : doc.kept data = .ok [[.char 'x', .marker 1 ['n']], [], [.char 'z']] := by
    decide +kernel
  obtain ⟨kept, hk, resolved⟩ := resolveBlocks_text plain clean calm
  obtain rfl := Except.ok.inj (kept_lines.symm.trans hk)
  refine ⟨plain, clean, calm, kept_lines, resolved.trans ?_⟩
  decide

end Stencil
