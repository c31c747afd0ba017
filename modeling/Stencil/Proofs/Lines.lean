import Stencil.Proofs.Seams

/-! # Splices between lines

Where a block stands on lines of its own, what stands before it are finished lines and the padding of
its header, and what stands after it is the padding of its footer and the lines that follow.  A
section is the rest of its directive's line, finished lines, and the padding of the next directive.

`splice_lines`: such a splice puts the lines of the section between its neighbours, or nothing if all
of them are blank, and no trace of the lines of the directives is left. -/

namespace Stencil

open Text

namespace Text

/-! ### Lines -/

/-- A text without line feeds and carriage returns. -/
def Unbroken (text : Text) : Prop := ∀ c ∈ text, c ≠ '\n' ∧ c ≠ '\r'

instance (text : Text) : Decidable (Unbroken text) :=
  List.decidableBAll (fun c => c ≠ '\n' ∧ c ≠ '\r') text

theorem unbroken_append {front rest : Text} :
    Unbroken (front ++ rest) ↔ Unbroken front ∧ Unbroken rest := List.forall_mem_append

theorem feed_notMem_of_unbroken {text : Text} (h : Unbroken text) : '\n' ∉ text :=
  fun feed => (h _ feed).1 rfl

/-- A text of spaces and tabs. -/
def IsPadding (text : Text) : Prop := ∀ c ∈ text, isPadding c = true

instance (text : Text) : Decidable (IsPadding text) :=
  List.decidableBAll (fun c => isPadding c = true) text

/-- Lines joined by line feeds. -/
def joinLines (lines : List Text) : Text := ['\n'].intercalate lines

/-- Lines that end in a line feed each. -/
def finished (lines : List Text) : Text := lines.flatMap (· ++ ['\n'])

/-- Lines that begin with a line feed each. -/
def following (lines : List Text) : Text := lines.flatMap ('\n' :: ·)

theorem intercalate_append_cons {α : Type} (sep : List α) (front : List (List α)) (x : List α)
    (back : List (List α)) : sep.intercalate (front ++ x :: back)
      = front.flatMap (· ++ sep) ++ x ++ back.flatMap (sep ++ ·) := by
  have at_head (x : List α) : sep.intercalate (x :: back) = x ++ back.flatMap (sep ++ ·) := by
    induction back generalizing x with
    | nil => simp
    | cons y back ih =>
      rw [List.intercalate_cons_cons, ih, List.flatMap_cons]
      simp only [List.append_assoc]
  induction front with
  | nil => exact at_head x
  | cons y front ih =>
    rw [List.cons_append, List.intercalate_cons_of_ne_nil (by simp), ih, List.flatMap_cons]
    simp only [List.append_assoc]

theorem joinLines_append_cons (front back : List Text) (line : Text) :
    joinLines (front ++ line :: back) = finished front ++ line ++ following back :=
  intercalate_append_cons ['\n'] front line back

theorem finished_append (front back : List Text) :
    finished (front ++ back) = finished front ++ finished back := List.flatMap_append

theorem finished_concat (front : List Text) (line : Text) :
    finished (front ++ [line]) = joinLines (front ++ [line]) ++ ['\n'] := by
  rw [joinLines_append_cons, finished_append]
  simp [finished, following]

theorem mem_joinLines {c : Char} {lines : List Text} (h : c ∈ joinLines lines) :
    c = '\n' ∨ ∃ line ∈ lines, c ∈ line := by
  cases lines with
  | nil => simp [joinLines] at h
  | cons line lines =>
    have e := joinLines_append_cons [] lines line
    rw [List.nil_append] at e
    simp only [e, finished, following, List.flatMap_nil, List.nil_append, List.mem_append,
      List.mem_flatMap, List.mem_cons] at h
    rcases h with h | ⟨l, hl, h | h⟩
    · exact .inr ⟨line, List.mem_cons_self, h⟩
    · exact .inl h
    · exact .inr ⟨l, List.mem_cons_of_mem line hl, h⟩

theorem finished_append_joinLines (front : List Text) {lines : List Text} (hne : lines ≠ [])
    (back : List Text) :
    finished front ++ joinLines lines ++ following back = joinLines (front ++ lines ++ back) := by
  cases lines with
  | nil => exact absurd rfl hne
  | cons line lines =>
    have e := joinLines_append_cons [] lines line
    rw [List.nil_append] at e
    rw [e, List.append_assoc front, List.cons_append, joinLines_append_cons]
    simp [finished, following]

/-! ### Padding -/

variable {pad rest : Text}

theorem isBlank_of_isPadding (h : IsPadding pad) : isBlank pad = true :=
  List.all_eq_true.mpr fun c hc => isBlankChar_of_isPadding (h c hc)

theorem unbroken_of_isPadding (h : IsPadding pad) : Unbroken pad := by
  intro c hc
  have padding := h c hc
  constructor
  · rintro rfl
    simp [isPadding] at padding
  · rintro rfl
    simp [isPadding] at padding

/-- A text that does not start with padding. -/
def Unpadded (text : Text) : Prop := ∀ c ∈ text.head?, isPadding c = false

theorem trimStart_padding (h : IsPadding pad) (hr : Unpadded rest) :
    trimStart isPadding (pad ++ rest) = rest := by
  rw [trimStart, List.dropWhile_append_of_pos h]
  cases rest with
  | nil => rfl
  | cons c rest =>
    have hc : isPadding c = false := hr c rfl
    rw [List.dropWhile_cons_of_neg (by simp [hc])]

theorem trimEnd_padding (h : IsPadding pad) (hr : Unpadded rest.reverse) :
    trimEnd isPadding (rest ++ pad) = rest := by
  have hp : IsPadding pad.reverse := fun c hc => h c (List.mem_reverse.mp hc)
  have e := trimStart_padding hp hr
  rw [trimStart] at e
  rw [trimEnd, List.reverse_append, e, List.reverse_reverse]

theorem trimStart_eq_nil_iff {text : Text} : trimStart isPadding text = [] ↔ IsPadding text := by
  constructor
  · intro nothing c hc
    rw [← List.takeWhile_append_dropWhile (p := isPadding) (l := text), ← trimStart, nothing,
      List.append_nil] at hc
    exact List.all_eq_true.mp List.all_takeWhile c hc
  · intro h
    have nothing_behind : Unpadded [] := by simp [Unpadded]
    simpa using trimStart_padding h nothing_behind

theorem trimEnd_eq_nil_iff {text : Text} : trimEnd isPadding text = [] ↔ IsPadding text := by
  rw [trimEnd, List.reverse_eq_nil_iff, ← trimStart, trimStart_eq_nil_iff]
  simp only [IsPadding, List.mem_reverse]

theorem unpadded_following (lines : List Text) : Unpadded (following lines) := by
  cases lines with
  | nil => simp [Unpadded, following]
  | cons line lines =>
    intro c hc
    rw [← Option.some.inj hc]
    rfl

theorem unpadded_finished (lines : List Text) : Unpadded (finished lines).reverse := by
  rcases List.eq_nil_or_concat lines with rfl | ⟨front, line, rfl⟩
  · simp [Unpadded, finished]
  · intro c hc
    rw [List.concat_eq_append, finished_concat, List.reverse_append] at hc
    rw [← Option.some.inj hc]
    rfl

theorem feed_notMem_of_isPadding (h : IsPadding pad) : '\n' ∉ pad :=
  feed_notMem_of_unbroken (unbroken_of_isPadding h)

/-! ### Cutting at a break -/

theorem cutFirstBreak?_append_feed {first : Text} (h : '\n' ∉ first) (rest : Text) :
    cutFirstBreak? (first ++ '\n' :: rest) = some (first, rest) := by
  induction first with
  | nil => rfl
  | cons c first ih =>
    rw [List.cons_append, cutFirstBreak?_cons, if_neg (Ne.symm (List.ne_of_not_mem_cons h)),
      ih (List.not_mem_of_not_mem_cons h)]
    rfl

theorem cutFirstBreak?_of_notMem {text : Text} (h : '\n' ∉ text) : cutFirstBreak? text = none := by
  induction text with
  | nil => rfl
  | cons c text ih =>
    rw [cutFirstBreak?_cons, if_neg (Ne.symm (List.ne_of_not_mem_cons h)),
      ih (List.not_mem_of_not_mem_cons h)]
    rfl

theorem cutLastBreak?_append_feed {last : Text} (h : '\n' ∉ last) (front : Text) :
    cutLastBreak? (front ++ '\n' :: last) = some (front, last) := by
  have backwards : '\n' ∉ last.reverse := fun feed => h (List.mem_reverse.mp feed)
  rw [cutLastBreak?_eq, List.reverse_append, List.reverse_cons, List.append_assoc,
    List.singleton_append, cutFirstBreak?_append_feed backwards]
  simp

theorem cutLastBreak?_of_notMem {text : Text} (h : '\n' ∉ text) : cutLastBreak? text = none := by
  have backwards : '\n' ∉ text.reverse := fun feed => h (List.mem_reverse.mp feed)
  rw [cutLastBreak?_eq, cutFirstBreak?_of_notMem backwards]
  rfl

/-- A text without a line feed, or cut at its last one. -/
theorem notMem_or_exists_lastFeed (text : Text) :
    '\n' ∉ text ∨ ∃ front last, text = front ++ '\n' :: last ∧ '\n' ∉ last := by
  by_cases feed : '\n' ∈ text
  · obtain ⟨back, front, e, free⟩ := List.eq_append_cons_of_mem (List.mem_reverse.mpr feed)
    refine .inr ⟨front.reverse, back.reverse, ?_, fun h => free (List.mem_reverse.mp h)⟩
    rw [← List.reverse_reverse text, e]
    simp
  · exact .inl feed

theorem takeWhile_append_feed {first : Text} (h : '\n' ∉ first) (rest : Text) :
    (first ++ rest).takeWhile (· != '\n') = first ++ rest.takeWhile (· != '\n') := by
  apply List.takeWhile_append_of_pos
  intro c hc
  rw [bne_iff_ne]
  rintro rfl
  exact h hc

theorem firstLine_following {first : Text} (h : '\n' ∉ first) (lines : List Text) :
    firstLine (first ++ following lines) = first := by
  rw [firstLine, takeWhile_append_feed h]
  cases lines with
  | nil => simp [following]
  | cons line lines => simp [following]

theorem firstLine_of_notMem {text : Text} (h : '\n' ∉ text) : firstLine text = text := by
  have alone := firstLine_following h []
  rwa [following, List.flatMap_nil, List.append_nil] at alone

theorem lastLine_append_feed {last : Text} (h : '\n' ∉ last) (front : Text) :
    lastLine (front ++ '\n' :: last) = last := by
  have backwards : '\n' ∉ last.reverse := fun feed => h (List.mem_reverse.mp feed)
  rw [lastLine, List.reverse_append, List.reverse_cons, List.append_assoc, takeWhile_append_feed backwards]
  simp

theorem lastLine_of_notMem {text : Text} (h : '\n' ∉ text) : lastLine text = text := by
  have backwards : '\n' ∉ text.reverse := fun feed => h (List.mem_reverse.mp feed)
  have whole := takeWhile_append_feed backwards []
  rw [List.append_nil] at whole
  rw [lastLine, whole]
  simp

theorem lastLine_finished {last : Text} (h : '\n' ∉ last) (lines : List Text) :
    lastLine (finished lines ++ last) = last := by
  rcases List.eq_nil_or_concat lines with rfl | ⟨front, line, rfl⟩
  · exact lastLine_of_notMem h
  · rw [List.concat_eq_append, finished_concat, List.append_assoc, List.singleton_append,
      lastLine_append_feed h]

theorem feed_mem_of_startsWithBreak {text : Text} (h : startsWithBreak text = true) :
    '\n' ∈ text := by
  unfold startsWithBreak at h
  split at h
  · exact List.mem_cons_self
  · exact List.mem_cons_of_mem _ List.mem_cons_self
  · simp at h

theorem dropTrailingReturn_of_notMem {text : Text} (h : '\r' ∉ text) :
    dropTrailingReturn text = text := by
  rw [dropTrailingReturn, if_neg]
  exact fun last => h (List.mem_of_getLast? (beq_iff_eq.mp last))

end Text

/-! ### Splices -/

/-- The lines of a section, unless all of them are blank. -/
def Text.unlessBlank (lines : List Text) : List Text := if lines.all isBlank then [] else lines

namespace Splice
variable {left right before after : Text} {front back lines : List Text}

theorem sharesLine_lines (hb : IsPadding before) (ha : IsPadding after) :
    sharesLine (finished front ++ before) (after ++ following back) = false := by
  rw [sharesLine, lastLine_finished (feed_notMem_of_isPadding hb),
    firstLine_following (feed_notMem_of_isPadding ha), isBlank_of_isPadding hb,
    isBlank_of_isPadding ha]
  rfl

theorem opensLine_lines (hb : IsPadding before) : opensLine (finished front ++ before) = true := by
  rw [opensLine, trimEnd_padding hb (unpadded_finished front)]
  rcases List.eq_nil_or_concat front with rfl | ⟨front, line, rfl⟩
  · rfl
  · rw [List.concat_eq_append, finished_concat]
    simp [endsWithFeed]

theorem closesLine_lines (ha : IsPadding after) : closesLine (after ++ following back) = true := by
  rw [closesLine, trimStart_padding ha (unpadded_following back)]
  cases back with
  | nil => rfl
  | cons line back => rfl

theorem dropTrailingReturn_joinLines (hf : ∀ line ∈ lines, Unbroken line) :
    dropTrailingReturn (joinLines lines) = joinLines lines := by
  apply dropTrailingReturn_of_notMem
  intro final
  rcases mem_joinLines final with feed | ⟨line, hl, hc⟩
  · simp at feed
  · exact (hf line hl _ hc).2 rfl

/-- Where a block without content stood on lines of its own, its neighbours follow one another. -/
theorem collapse_lines (hb : IsPadding before) (ha : IsPadding after)
    (hf : ∀ line ∈ front, Unbroken line) :
    collapse (finished front ++ before) (after ++ following back) = joinLines (front ++ back) := by
  rw [collapse, opensLine_lines hb, closesLine_lines ha, trimEnd_padding hb (unpadded_finished front),
    trimStart_padding ha (unpadded_following back)]
  rw [Bool.and_self, if_pos rfl]
  cases back with
  | nil =>
    rw [if_pos (by rfl), List.append_nil]
    rcases List.eq_nil_or_concat front with rfl | ⟨front, line, rfl⟩
    · rfl
    · rw [List.concat_eq_append] at hf ⊢
      rw [finished_concat, dropTrailingBreak, if_pos (by simp [endsWithFeed]), List.dropLast_concat,
        dropTrailingReturn_joinLines hf]
  | cons line back =>
    rw [if_neg (by simp [following]), joinLines_append_cons]
    simp [following, dropLeadingBreak]

/-- A section with a line is left as its lines. -/
theorem keepLines_lines (hb : IsPadding before) (ha : IsPadding after) (hl : IsPadding left)
    (hr : IsPadding right) (hs : ∀ line ∈ lines, Unbroken line) (hne : lines ≠ []) :
    keepLines (finished front ++ before) (right ++ '\n' :: (finished lines ++ left))
      (after ++ following back) = joinLines (front ++ lines ++ back) := by
  have header : dropHeaderLine (finished front ++ before) (right ++ '\n' :: (finished lines ++ left))
      = (finished front, finished lines ++ left) := by
    rw [dropHeaderLine, cutFirstBreak?_append_feed (feed_notMem_of_isPadding hr)]
    dsimp only
    rw [if_pos (isBlank_of_isPadding hr), trimEnd_padding hb (unpadded_finished front)]
  obtain ⟨init, last, rfl⟩ : ∃ init last, lines = init ++ [last] := by
    rcases List.eq_nil_or_concat lines with rfl | ⟨init, last, rfl⟩
    · exact absurd rfl hne
    · exact ⟨init, last, List.concat_eq_append ..⟩
  have footer : dropFooterLine (finished (init ++ [last]) ++ left) (after ++ following back)
      = (joinLines (init ++ [last]), following back) := by
    rw [dropFooterLine, finished_concat, List.append_assoc, List.singleton_append,
      cutLastBreak?_append_feed (feed_notMem_of_isPadding hl)]
    dsimp only
    rw [if_pos (isBlank_of_isPadding hl), dropTrailingReturn_joinLines hs,
      trimStart_padding ha (unpadded_following back)]
  rw [keepLines, opensLine_lines hb, closesLine_lines ha]
  simp only [if_true, header, footer, Bool.not_true, Bool.false_and, Bool.false_eq_true, if_false]
  exact finished_append_joinLines front hne back

end Splice

section splice
variable {left right before after : Text} {front back lines : List Text}

theorem isBlank_section (hl : IsPadding left) (hr : IsPadding right) :
    isBlank (right ++ '\n' :: (finished lines ++ left)) = lines.all isBlank := by
  have feed : isBlank (finished lines) = lines.all isBlank := by
    induction lines with
    | nil => rfl
    | cons line lines ih =>
      rw [finished, List.flatMap_cons, isBlank_append, isBlank_append, ← finished, ih, List.all_cons]
      simp [isBlank, show isBlankChar '\n' = true by decide]
  rw [← List.singleton_append, isBlank_append, isBlank_append, isBlank_append,
    isBlank_of_isPadding hl, isBlank_of_isPadding hr, feed]
  simp [isBlank, show isBlankChar '\n' = true by decide]

/-- **A splice between lines** puts the lines of the section there, or nothing if they are blank. -/
theorem splice_lines (hb : IsPadding before) (ha : IsPadding after) (hl : IsPadding left)
    (hr : IsPadding right) (hf : ∀ line ∈ front, Unbroken line)
    (hs : ∀ line ∈ lines, Unbroken line) :
    splice (finished front ++ before) (right ++ '\n' :: (finished lines ++ left))
      (after ++ following back) = joinLines (front ++ unlessBlank lines ++ back) := by
  rw [splice, Splice.sharesLine_lines hb ha, Bool.false_and, if_neg (by simp), isBlank_section hl hr,
    Text.unlessBlank]
  by_cases blank : lines.all isBlank = true
  · rw [if_pos blank, if_pos blank, List.append_nil, Splice.collapse_lines hb ha hf]
  · have hne : lines ≠ [] := by
      rintro rfl
      exact blank rfl
    rw [if_neg blank, if_neg blank, Splice.keepLines_lines hb ha hl hr hs hne]

/-- A block that leaves nothing leaves no line. -/
theorem splice_nothing (hb : IsPadding before) (ha : IsPadding after)
    (hf : ∀ line ∈ front, Unbroken line) :
    splice (finished front ++ before) [] (after ++ following back) = joinLines (front ++ back) := by
  rw [splice, Splice.sharesLine_lines hb ha, Bool.false_and, if_neg (by simp), if_pos (by rfl),
    Splice.collapse_lines hb ha hf]

end splice

end Stencil
