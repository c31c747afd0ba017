import Mathlib.Data.List.SplitBy
import Stencil.Proofs.Lines
import Stencil.BlankRuns
import Stencil.Value.Path

/-! # Runs of blank lines, line by line

A text is its lines with line feeds in between.  The lines between the first and the last one are its
inner lines, and `collapseBlankRuns` is told in terms of these alone: a run of two or more blank inner
lines becomes one empty line, and every other line stays as it is.

* `shortenRuns` shortens the runs of a row of lines, and `onInner` does so between the ends of a text.
* `collapse_run`: what becomes of blank lines and the line that ends them, with all that follows.
* `collapse_following`: so the lines behind the first are shortened as they should be.
* `collapseBlankRuns_by_lines`: the text that is left, which has no run of blank lines any more and has
  lost no other line. -/

namespace Stencil

open Text

namespace Text

/-! ### Cutting at line feeds -/

theorem splitOn_eq (separator : Char) (text : Text) :
    splitOn separator text = List.splitOn separator text := by
  induction text with
  | nil => rfl
  | cons c text ih =>
    rw [List.splitOn_eq_splitOnP, List.splitOnP_cons_eq_if_modifyHead, ← List.splitOn_eq_splitOnP,
      ← ih, splitOn]
    by_cases hc : c = separator
    · rw [if_pos hc, if_pos (beq_iff_eq.mpr hc)]
    · rw [if_neg hc, if_neg (by simpa using hc)]
      cases h : splitOn separator text with
      | nil => exact absurd h (splitOn_ne_nil separator text)
      | cons part parts => rfl

/-- A text is its lines, joined. -/
theorem joinLines_splitOn (text : Text) : joinLines (splitOn '\n' text) = text := by
  rw [joinLines, splitOn_eq]
  exact List.intercalate_splitOn '\n'

theorem splitOn_joinLines {lines : List Text} (hne : lines ≠ []) (h : ∀ line ∈ lines, '\n' ∉ line) :
    splitOn '\n' (joinLines lines) = lines := by
  rw [joinLines, splitOn_eq]
  exact List.splitOn_intercalate '\n' h hne

theorem feed_notMem_of_mem_splitOn {text line : Text} (h : line ∈ splitOn '\n' text) :
    '\n' ∉ line := by
  induction text generalizing line with
  | nil =>
    rw [splitOn, List.mem_singleton] at h
    simp [h]
  | cons c text ih =>
    rw [splitOn] at h
    split at h
    · rcases List.mem_cons.mp h with rfl | h
      · simp
      · exact ih h
    · rename_i other
      split at h
      · rename_i none_left
        exact absurd none_left (splitOn_ne_nil '\n' text)
      · rename_i part parts cut
        rw [cut] at ih
        rcases List.mem_cons.mp h with rfl | h
        · exact List.not_mem_cons_of_ne_of_not_mem (Ne.symm other) (ih List.mem_cons_self)
        · exact ih (List.mem_cons_of_mem part h)

theorem splitOn_of_notMem {line : Text} (h : '\n' ∉ line) : splitOn '\n' line = [line] := by
  have single := splitOn_joinLines (List.cons_ne_nil line []) (by simpa using h)
  rwa [joinLines, List.intercalate_singleton] at single

theorem splitOn_finished {lines : List Text} (h : ∀ line ∈ lines, '\n' ∉ line) (rest : Text) :
    splitOn '\n' (finished lines ++ rest) = lines ++ splitOn '\n' rest := by
  induction lines with
  | nil => rfl
  | cons line lines ih =>
    obtain ⟨first, later⟩ := List.forall_mem_cons.mp h
    have e : finished (line :: lines) ++ rest = line ++ '\n' :: (finished lines ++ rest) := by
      simp [finished]
    rw [e, splitOn_append, splitOn_of_notMem first, ih later]
    rfl

theorem following_append_cons (front back : List Text) (line : Text) :
    following (front ++ line :: back) = '\n' :: (finished front ++ (line ++ following back)) := by
  induction front with
  | nil => rfl
  | cons first front ih =>
    have e : following (first :: front ++ line :: back)
        = '\n' :: (first ++ following (front ++ line :: back)) := rfl
    rw [e, ih]
    simp [finished]

/-! ### Blank lines -/

/-- A line of spaces, tabs and carriage returns. -/
def isFillerLine (line : Text) : Bool := line.all isLineFiller

theorem feed_notMem_of_isFillerLine {line : Text} (h : isFillerLine line = true) : '\n' ∉ line := by
  intro feed
  have filler := List.all_eq_true.mp h '\n' feed
  exact absurd filler (by decide)

/-- Some blank lines, as a run that is shortened has them: a line feed, and at least two more with only
filler in front of each. -/
def IsBlankRun (run : Text) : Prop :=
  ∃ blanks : List Text, 2 ≤ blanks.length ∧ (∀ line ∈ blanks, isFillerLine line = true)
    ∧ run = '\n' :: finished blanks

/-- A row of lines where every longest run of two or more blank ones has become one empty line. -/
def shortenRuns (lines : List Text) : List Text :=
  (lines.splitBy fun a b => isFillerLine a && isFillerLine b).flatMap fun run =>
    if 2 ≤ run.length then [[]] else run

/-- Changes the lines between the first and the last one. -/
def onInner (f : List Text → List Text) : List Text → List Text
  | first :: second :: rest =>
    first :: (f (second :: rest).dropLast ++ [(second :: rest).getLast (List.cons_ne_nil second rest)])
  | lines => lines

section shorten
variable {blanks : List Text} {line : Text}

theorem shortenRuns_blanks (h : ∀ b ∈ blanks, isFillerLine b = true) :
    shortenRuns blanks = if 2 ≤ blanks.length then [[]] else blanks := by
  cases blanks with
  | nil => rfl
  | cons b bs =>
    have chain : (b :: bs).IsChain fun x y => (isFillerLine x && isFillerLine y) = true := by
      apply (List.pairwise_of_forall_mem_list _).isChain
      intro x hx y hy
      rw [h x hx, h y hy]
      rfl
    rw [shortenRuns, List.splitBy_of_isChain (List.cons_ne_nil b bs) chain, List.flatMap_cons,
      List.flatMap_nil, List.append_nil]

/-- A line that is not blank ends one run and stands in no other. -/
theorem shortenRuns_append_cons (h : isFillerLine line = false) (front back : List Text) :
    shortenRuns (front ++ line :: back) = shortenRuns front ++ line :: shortenRuns back := by
  have alone : (line :: back).splitBy (fun a b => isFillerLine a && isFillerLine b)
      = [line] :: back.splitBy fun a b => isFillerLine a && isFillerLine b := by
    rw [← List.singleton_append, List.splitBy_append (by simp [h])]
    rfl
  rw [shortenRuns, List.splitBy_append (by simp [h]), alone, List.flatMap_append, List.flatMap_cons]
  rfl

/-- Lines are blank lines only, or blank lines up to one that is not, with more lines behind it. -/
theorem runInduction {motive : List Text → Prop}
    (blank : ∀ blanks, (∀ b ∈ blanks, isFillerLine b = true) → motive blanks)
    (visible : ∀ blanks line back, (∀ b ∈ blanks, isFillerLine b = true) →
      isFillerLine line = false → motive blanks → motive back → motive (blanks ++ line :: back))
    (lines : List Text) : motive lines := by
  -- The blank lines that the induction has passed are kept in front of the others.
  have passed (lines : List Text) : ∀ blanks, (∀ b ∈ blanks, isFillerLine b = true) →
      motive (blanks ++ lines) := by
    induction lines with
    | nil =>
      intro blanks hb
      rw [List.append_nil]
      exact blank blanks hb
    | cons line lines ih =>
      intro blanks hb
      cases h : isFillerLine line with
      | true =>
        have longer := ih (blanks ++ [line]) (List.forall_mem_append.mpr ⟨hb, by simpa using h⟩)
        rwa [List.append_assoc, List.singleton_append] at longer
      | false => exact visible blanks line lines hb h (blank blanks hb) (ih [] (List.forall_mem_nil _))
  exact passed lines [] (List.forall_mem_nil _)

theorem mem_of_mem_shortenRuns {lines : List Text} (h : line ∈ shortenRuns lines) :
    line = [] ∨ line ∈ lines := by
  obtain ⟨run, hrun, hline⟩ := List.mem_flatMap.mp h
  split at hline
  · exact .inl (List.mem_singleton.mp hline)
  · refine .inr ?_
    rw [← List.flatten_splitBy (fun a b => isFillerLine a && isFillerLine b) lines]
    exact List.mem_flatten.mpr ⟨run, hrun, hline⟩

/-! ### The lines between the ends -/

theorem onInner_append (f : List Text → List Text) (first last : Text) (inner : List Text) :
    onInner f (first :: (inner ++ [last])) = first :: (f inner ++ [last]) := by
  cases inner with
  | nil => rfl
  | cons line inner =>
    rw [List.cons_append, onInner]
    simp only [← List.cons_append, List.dropLast_concat, List.getLast_concat]

/-- Lines are one line, or they have a first and a last line. -/
theorem eq_singleton_or_exists_inner {lines : List Text} (hne : lines ≠ []) :
    (∃ only, lines = [only]) ∨ ∃ first inner last, lines = first :: (inner ++ [last]) := by
  cases lines with
  | nil => exact absurd rfl hne
  | cons first rest =>
    rcases List.eq_nil_or_concat rest with rfl | ⟨inner, last, rfl⟩
    · exact .inl ⟨first, rfl⟩
    · exact .inr ⟨first, inner, last, by rw [List.concat_eq_append]⟩

theorem onInner_onInner (f g : List Text → List Text) {lines : List Text} (hne : lines ≠ []) :
    onInner f (onInner g lines) = onInner (f ∘ g) lines := by
  rcases eq_singleton_or_exists_inner hne with ⟨only, rfl⟩ | ⟨first, inner, last, rfl⟩
  · rfl
  · rw [onInner_append, onInner_append, onInner_append]
    rfl

/-! ### What shortening leaves -/

/-- No two blank lines follow one another. -/
theorem isChain_shortenRuns (lines : List Text) : (shortenRuns lines).IsChain fun a b =>
    ¬ (isFillerLine a = true ∧ isFillerLine b = true) := by
  induction lines using runInduction with
  | blank blanks hb =>
    rw [shortenRuns_blanks hb]
    split
    · exact List.isChain_singleton _
    · rename_i few
      match blanks with
      | [] => exact .nil
      | [b] => exact List.isChain_singleton b
      | _ :: _ :: _ => exact absurd (by simp) few
  | visible blanks line back _ hline in_front behind =>
    rw [shortenRuns_append_cons hline, List.isChain_append]
    refine ⟨in_front, List.isChain_cons.mpr ⟨?_, behind⟩, ?_⟩
    · simp [hline]
    · simp [hline]

theorem shortenRuns_shortenRuns (lines : List Text) :
    shortenRuns (shortenRuns lines) = shortenRuns lines := by
  induction lines using runInduction with
  | blank blanks hb =>
    rw [shortenRuns_blanks hb]
    split
    · rfl
    · rename_i few
      rw [shortenRuns_blanks hb, if_neg few]
  | visible blanks line back _ hline in_front behind =>
    rw [shortenRuns_append_cons hline, shortenRuns_append_cons hline, in_front, behind]

/-- The lines that are not blank are kept. -/
theorem filter_shortenRuns (lines : List Text) :
    (shortenRuns lines).filter (!isFillerLine ·) = lines.filter (!isFillerLine ·) := by
  induction lines using runInduction with
  | blank blanks hb =>
    have none_kept : blanks.filter (!isFillerLine ·) = [] := by simpa using hb
    rw [shortenRuns_blanks hb]
    split
    · rw [none_kept]
      rfl
    · rfl
  | visible blanks line back _ hline in_front behind =>
    rw [shortenRuns_append_cons hline, List.filter_append, List.filter_append, in_front,
      List.filter_cons, List.filter_cons, behind]

end shorten
end Text

/-! ### Shortening a text -/

section collapse
variable {blanks back lines : List Text} {line : Text}

theorem collapseBlankRuns_append (h : '\n' ∉ line) (rest : Text) :
    collapseBlankRuns (line ++ rest) = line ++ collapseBlankRuns rest := by
  induction line with
  | nil => rfl
  | cons c line ih =>
    obtain ⟨hc, later⟩ := List.ne_and_not_mem_of_not_mem_cons h
    rw [List.cons_append, collapseBlankRuns, if_neg (Ne.symm hc), ih later]
    rfl

theorem afterPaddedFeed?_append_feed (h : isFillerLine line = true) (rest : Text) :
    afterPaddedFeed? (line ++ '\n' :: rest) = some rest := by
  rw [afterPaddedFeed?, List.dropWhile_append_of_pos (List.all_eq_true.mp h)]
  rfl

/-- A line that is not blank, or that no line feed ends, is no padded line feed. -/
theorem afterPaddedFeed?_eq_none (free : '\n' ∉ line) (ends : isFillerLine line = false ∨ back = []) :
    afterPaddedFeed? (line ++ following back) = none := by
  induction line with
  | nil =>
    rcases ends with visible | rfl
    · exact absurd visible (by decide)
    · rfl
  | cons c line ih =>
    obtain ⟨hc, later⟩ := List.ne_and_not_mem_of_not_mem_cons free
    cases filler : isLineFiller c with
    | true =>
      have same : isFillerLine (c :: line) = isFillerLine line := by
        rw [isFillerLine, List.all_cons, filler, Bool.true_and]
        rfl
      rw [same] at ends
      rw [List.cons_append, afterPaddedFeed?, List.dropWhile_cons_of_pos filler]
      exact ih later ends
    | false =>
      rw [List.cons_append, afterPaddedFeed?, List.dropWhile_cons_of_neg (by simp [filler]), after?,
        if_neg hc]

theorem leadingFeeds_finished (hb : ∀ b ∈ blanks, isFillerLine b = true) {rest : Text}
    (stops : afterPaddedFeed? rest = none) :
    leadingFeeds (finished blanks ++ rest) = (blanks.length, rest) := by
  induction blanks with
  | nil =>
    rw [leadingFeeds]
    split
    · rename_i found
      rw [show finished [] ++ rest = rest from rfl, stops] at found
      cases found
    · rfl
  | cons b blanks ih =>
    obtain ⟨filler, later⟩ := List.forall_mem_cons.mp hb
    have e : finished (b :: blanks) ++ rest = b ++ '\n' :: (finished blanks ++ rest) := by
      simp [finished]
    have starts := afterPaddedFeed?_append_feed filler (finished blanks ++ rest)
    rw [e, leadingFeeds]
    split
    · rename_i found
      rw [starts] at found
      rw [← Option.some.inj found, ih later]
      rfl
    · rename_i found
      rw [starts] at found
      cases found

/-- Blank lines are shortened up to the line that ends them, whatever comes behind it. -/
theorem collapse_run (hb : ∀ b ∈ blanks, isFillerLine b = true) (free : '\n' ∉ line)
    (ends : isFillerLine line = false ∨ back = []) :
    collapseBlankRuns (following (blanks ++ line :: back))
      = following (shortenRuns blanks ++ [line]) ++ collapseBlankRuns (following back) := by
  have stops := afterPaddedFeed?_eq_none free ends
  have feed (text : Text) (few : (leadingFeeds text).1 < 2) :
      collapseBlankRuns ('\n' :: text) = '\n' :: collapseBlankRuns text := by
    rw [collapseBlankRuns, if_pos rfl, if_neg (by omega)]
  -- The line feed in front of the last line is read after at most one blank line.
  have last : collapseBlankRuns ('\n' :: (line ++ following back))
      = '\n' :: (line ++ collapseBlankRuns (following back)) := by
    have none_left := leadingFeeds_finished (List.forall_mem_nil _) stops
    rw [show finished [] ++ (line ++ following back) = line ++ following back from rfl] at none_left
    rw [feed _ (by simp [none_left]), collapseBlankRuns_append free]
  have run := leadingFeeds_finished hb stops
  rw [following_append_cons, shortenRuns_blanks hb]
  cases blanks with
  | nil => simpa [finished, following] using last
  | cons b more =>
    cases more with
    | nil =>
      obtain ⟨filler, -⟩ := List.forall_mem_cons.mp hb
      have e : finished [b] ++ (line ++ following back) = b ++ '\n' :: (line ++ following back) := by
        simp [finished]
      rw [feed _ (by simp [run]), e,
        collapseBlankRuns_append (feed_notMem_of_isFillerLine filler), last]
      simp [following]
    | cons b' more =>
      rw [collapseBlankRuns, if_pos rfl, run]
      simp [collapseBlankRuns_append free, following]

/-- The lines behind the first one, with the last of them left alone. -/
theorem collapse_following (free : ∀ l ∈ lines, '\n' ∉ l) (hl : '\n' ∉ line) :
    collapseBlankRuns (following (lines ++ [line])) = following (shortenRuns lines ++ [line]) := by
  induction lines using runInduction with
  | blank blanks hb =>
    rw [collapse_run hb hl (.inr rfl), show following [] = [] from rfl, collapseBlankRuns,
      List.append_nil]
  | visible blanks other back hb visible _ ih =>
    obtain ⟨-, h⟩ := List.forall_mem_append.mp free
    obtain ⟨free_other, free_back⟩ := List.forall_mem_cons.mp h
    rw [List.append_assoc, List.cons_append, collapse_run hb free_other (.inl visible), ih free_back,
      shortenRuns_append_cons visible]
    simp [following]

/-- The text that is left has the lines of the text, shortened. -/
theorem collapseBlankRuns_eq (text : Text) :
    collapseBlankRuns text = joinLines (onInner shortenRuns (splitOn '\n' text)) := by
  have free : ∀ l ∈ splitOn '\n' text, '\n' ∉ l := fun _ => feed_notMem_of_mem_splitOn
  have whole := joinLines_splitOn text
  rcases eq_singleton_or_exists_inner (splitOn_ne_nil '\n' text) with
    ⟨only, e⟩ | ⟨first, inner, last, e⟩
  · rw [e] at free whole ⊢
    have alone := collapseBlankRuns_append (free only List.mem_cons_self) []
    rw [← whole]
    simpa [joinLines, onInner, collapseBlankRuns] using alone
  · rw [e] at free whole ⊢
    obtain ⟨free_first, h⟩ := List.forall_mem_cons.mp free
    obtain ⟨free_inner, free_last⟩ := List.forall_mem_append.mp h
    have joined (lines : List Text) : joinLines (first :: lines) = first ++ following lines :=
      joinLines_append_cons [] lines first
    rw [← whole, joined, collapseBlankRuns_append free_first,
      collapse_following free_inner (free_last last List.mem_cons_self), onInner_append, joined]

theorem splitOn_collapseBlankRuns (text : Text) :
    splitOn '\n' (collapseBlankRuns text) = onInner shortenRuns (splitOn '\n' text) := by
  have free : ∀ l ∈ splitOn '\n' text, '\n' ∉ l := fun _ => feed_notMem_of_mem_splitOn
  rw [collapseBlankRuns_eq]
  rcases eq_singleton_or_exists_inner (splitOn_ne_nil '\n' text) with
    ⟨only, e⟩ | ⟨first, inner, last, e⟩
  · rw [e] at free ⊢
    exact splitOn_joinLines (List.cons_ne_nil only []) free
  · rw [e] at free ⊢
    obtain ⟨free_first, h⟩ := List.forall_mem_cons.mp free
    obtain ⟨free_inner, free_last⟩ := List.forall_mem_append.mp h
    rw [onInner_append]
    refine splitOn_joinLines (List.cons_ne_nil first _) (List.forall_mem_cons.mpr ⟨free_first, ?_⟩)
    refine List.forall_mem_append.mpr ⟨fun l hl => ?_, free_last⟩
    rcases mem_of_mem_shortenRuns hl with rfl | hl
    · simp
    · exact free_inner l hl

/-- Lines with other lines on both sides are inner lines. -/
theorem infix_of_append_eq_onInner {front mid rest lines : List Text} {f : List Text → List Text}
    (hne : lines ≠ []) (hf : front ≠ []) (hr : rest ≠ [])
    (e : front ++ (mid ++ rest) = onInner f lines) : ∃ inner, mid <:+: f inner := by
  obtain ⟨head, front, rfl⟩ := List.exists_cons_of_ne_nil hf
  obtain ⟨rest, tail, rfl⟩ : ∃ init last, rest = init ++ [last] :=
    ⟨_, _, (List.dropLast_append_getLast hr).symm⟩
  rcases eq_singleton_or_exists_inner hne with ⟨only, rfl⟩ | ⟨first, inner, last, rfl⟩
  · simp [onInner] at e
  · rw [onInner_append, List.cons_append, ← List.append_assoc, ← List.append_assoc] at e
    refine ⟨inner, front, rest, ?_⟩
    exact (List.append_inj' (List.cons.inj e).2 rfl).1

/-- No run of blank lines is left. -/
theorem not_infix_of_isBlankRun {text run : Text} (h : IsBlankRun run) :
    ¬ run <:+: collapseBlankRuns text := by
  rintro ⟨front, rest, e⟩
  obtain ⟨blanks, two, filler, rfl⟩ := h
  have free : ∀ b ∈ blanks, '\n' ∉ b := fun b hb => feed_notMem_of_isFillerLine (filler b hb)
  have cut : splitOn '\n' (collapseBlankRuns text)
      = splitOn '\n' front ++ (blanks ++ splitOn '\n' rest) := by
    rw [← e, List.append_assoc, List.cons_append, splitOn_append, splitOn_finished free]
  rw [splitOn_collapseBlankRuns] at cut
  obtain ⟨inner, before, after, e⟩ := infix_of_append_eq_onInner (splitOn_ne_nil '\n' text)
    (splitOn_ne_nil '\n' front) (splitOn_ne_nil '\n' rest) cut.symm
  have chain := isChain_shortenRuns inner
  rw [← e] at chain
  have chain := chain.left_of_append.right_of_append
  match blanks with
  | [] => simp at two
  | [b] => simp at two
  | a :: b :: more =>
    have apart := (List.isChain_cons_cons.mp chain).1
    exact apart ⟨filler a (by simp), filler b (by simp)⟩

end collapse

/-- **Blank lines by lines**: shortening replaces every longest run of two or more blank inner lines by
one empty line and changes no other line.  So no run is left, shortening once more changes nothing, and
the lines that are not blank inner lines are the same, in the same order. -/
theorem collapseBlankRuns_by_lines (text : Text) :
    collapseBlankRuns text = joinLines (onInner shortenRuns (splitOn '\n' text))
      ∧ splitOn '\n' (collapseBlankRuns text) = onInner shortenRuns (splitOn '\n' text)
      ∧ (∀ run, IsBlankRun run → ¬ run <:+: collapseBlankRuns text)
      ∧ collapseBlankRuns (collapseBlankRuns text) = collapseBlankRuns text
      ∧ onInner (List.filter (!isFillerLine ·)) (splitOn '\n' (collapseBlankRuns text))
        = onInner (List.filter (!isFillerLine ·)) (splitOn '\n' text) := by
  have cut := splitOn_collapseBlankRuns text
  have some_line := splitOn_ne_nil '\n' text
  refine ⟨collapseBlankRuns_eq text, cut, fun _ => not_infix_of_isBlankRun, ?_, ?_⟩
  · have twice : shortenRuns ∘ shortenRuns = shortenRuns := funext shortenRuns_shortenRuns
    rw [collapseBlankRuns_eq (collapseBlankRuns text), cut, onInner_onInner _ _ some_line, twice,
      ← collapseBlankRuns_eq]
  · have kept : List.filter (!isFillerLine ·) ∘ shortenRuns = List.filter (!isFillerLine ·) :=
      funext filter_shortenRuns
    rw [cut, onInner_onInner _ _ some_line, kept]

/-- A padded line and the blank ends of a text stay, runs do not. -/
theorem collapseBlankRuns_by_lines_padded :
    let text := " \n\t\n\r\na\n \nb\n\n \n\n".toList
    let run := "\n\t\n\r\n".toList
    IsBlankRun run ∧ run <:+: text ∧ ¬ run <:+: collapseBlankRuns text
      ∧ collapseBlankRuns text = " \n\na\n \nb\n\n".toList := by
  intro text run
  have blank : IsBlankRun run :=
    ⟨["\t".toList, "\r".toList], by decide, List.all_eq_true.mp (by decide), rfl⟩
  obtain ⟨-, -, no_run, -⟩ := collapseBlankRuns_by_lines text
  exact ⟨blank, ⟨[' '], "a\n \nb\n\n \n\n".toList, rfl⟩, no_run run blank, by decide +kernel⟩

end Stencil
