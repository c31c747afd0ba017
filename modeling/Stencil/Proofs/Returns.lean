import Stencil.Proofs.Conservation

/-! # Splices with carriage returns

A text whose line breaks are written with carriage returns is spliced like the same text with bare line
feeds, up to the returns.  There is one exception: where the block does not open its line and its
visible content starts with a line break, that break is not seen behind its return, and a line feed is
added in front of it.

* `Text.withReturns` and `Text.withoutReturns` change the line breaks of a text.
* `Splice.collapse_withReturns` and `Splice.keptParts_withReturns`: every way to splice takes the same
  parts of both texts.
* `withoutReturns_splice`: so the splices are the same, the exception apart. -/

namespace Stencil

open Text

namespace Text

/-- A line feed with a carriage return in front of it, and any other character as it is. -/
def withReturn (c : Char) : Text := if c = '\n' then ['\r', '\n'] else [c]

/-- The text with a carriage return in front of every line feed. -/
def withReturns (text : Text) : Text := text.flatMap withReturn

/-- The text without the carriage returns that a line feed follows. -/
def withoutReturns : Text → Text
  | '\r' :: '\n' :: rest => '\n' :: withoutReturns rest
  | c :: rest => c :: withoutReturns rest
  | [] => []

variable {text front rest last : Text} {c : Char}

/-! ### Changing the breaks and back -/

theorem withReturns_append (front rest : Text) :
    withReturns (front ++ rest) = withReturns front ++ withReturns rest := List.flatMap_append

theorem withReturns_feed (rest : Text) :
    withReturns ('\n' :: rest) = '\r' :: '\n' :: withReturns rest := rfl

theorem withReturns_cons (h : c ≠ '\n') (rest : Text) :
    withReturns (c :: rest) = c :: withReturns rest := by
  rw [withReturns, List.flatMap_cons, withReturn, if_neg h]
  rfl

/-- The cases of `withReturns`: nothing, a line feed in front, or another character in front. -/
@[elab_as_elim]
theorem feedInduction {motive : Text → Prop} (nil : motive [])
    (feed : ∀ rest, motive rest → motive ('\n' :: rest))
    (cons : ∀ c rest, c ≠ '\n' → motive rest → motive (c :: rest)) (text : Text) : motive text := by
  induction text with
  | nil => exact nil
  | cons c rest ih =>
    by_cases h : c = '\n'
    · exact h ▸ feed rest ih
    · exact cons c rest h ih

theorem withReturns_of_notMem (h : '\n' ∉ text) : withReturns text = text := by
  induction text using feedInduction with
  | nil => rfl
  | feed rest ih => exact absurd List.mem_cons_self h
  | cons c rest hc ih => rw [withReturns_cons hc, ih (List.not_mem_of_not_mem_cons h)]

theorem withoutReturns_cons (h : c ≠ '\r') (rest : Text) :
    withoutReturns (c :: rest) = c :: withoutReturns rest := by
  conv => lhs; unfold withoutReturns
  split <;> simp_all

/-- Taking the returns away gives a text back, whatever follows it. -/
theorem withoutReturns_withReturns_append (h : '\r' ∉ text) (rest : Text) :
    withoutReturns (withReturns text ++ rest) = text ++ withoutReturns rest := by
  induction text using feedInduction with
  | nil => rfl
  | feed text ih => exact congrArg ('\n' :: ·) (ih (List.not_mem_of_not_mem_cons h))
  | cons c text hc ih =>
    rw [withReturns_cons hc, List.cons_append,
      withoutReturns_cons (Ne.symm (List.ne_of_not_mem_cons h)), ih (List.not_mem_of_not_mem_cons h)]
    rfl

theorem withoutReturns_withReturns (h : '\r' ∉ text) : withoutReturns (withReturns text) = text := by
  simpa [withoutReturns] using withoutReturns_withReturns_append h []

theorem withoutReturns_append_of_atMostFeed (h : AtMostFeed front) (rest : Text) :
    withoutReturns (front ++ rest) = front ++ withoutReturns rest := by
  rcases h with rfl | rfl
  · rfl
  · exact withoutReturns_cons (by decide) rest

/-! ### What returns do not change -/

theorem isEmpty_withReturns (text : Text) : (withReturns text).isEmpty = text.isEmpty := by
  cases text using feedInduction with
  | nil => rfl
  | feed rest => rfl
  | cons c rest hc => rw [withReturns_cons hc]; rfl

theorem isBlank_withReturns (text : Text) : isBlank (withReturns text) = isBlank text := by
  induction text using feedInduction with
  | nil => rfl
  | feed rest ih => exact ih
  | cons c rest hc ih =>
    rw [withReturns_cons hc, isBlank, List.all_cons, ← isBlank, ih]
    rfl

theorem contains_withReturns (text : Text) :
    (withReturns text).contains '\n' = text.contains '\n' := by
  induction text using feedInduction with
  | nil => rfl
  | feed rest => rfl
  | cons c rest hc ih => rw [withReturns_cons hc, List.contains_cons, List.contains_cons, ih]

theorem head?_withReturns_ne (text : Text) : (withReturns text).head? ≠ some '\n' := by
  cases text using feedInduction with
  | nil => exact nofun
  | feed rest => exact nofun
  | cons c rest hc => rw [withReturns_cons hc]; simpa using hc

theorem getLast?_withReturns (text : Text) : (withReturns text).getLast? = text.getLast? := by
  rcases List.eq_nil_or_concat text with rfl | ⟨front, c, rfl⟩
  · rfl
  · rw [List.concat_eq_append, withReturns_append, List.getLast?_concat, List.getLast?_append]
    by_cases hc : c = '\n'
    · rw [hc]
      rfl
    · rw [withReturns_cons hc]
      rfl

theorem endsWithFeed_withReturns (text : Text) :
    endsWithFeed (withReturns text) = endsWithFeed text := by
  rw [endsWithFeed, getLast?_withReturns, endsWithFeed]

theorem startsWithBreak_withReturns (h : '\r' ∉ text) :
    startsWithBreak (withReturns text) = startsWithBreak text := by
  cases text using feedInduction with
  | nil => rfl
  | feed rest => rfl
  | cons c rest hc =>
    rw [withReturns_cons hc]
    simp [startsWithBreak, hc, Ne.symm (List.ne_of_not_mem_cons h)]

theorem isBlank_firstLine_withReturns (text : Text) :
    isBlank (firstLine (withReturns text)) = isBlank (firstLine text) := by
  induction text using feedInduction with
  | nil => rfl
  | feed rest => rfl
  | cons c rest hc ih =>
    have step (t : Text) : firstLine (c :: t) = c :: firstLine t := by simp [firstLine, hc]
    rw [withReturns_cons hc, step, step, isBlank, List.all_cons, ← isBlank, ih]
    rfl

theorem lastLine_withReturns (text : Text) : lastLine (withReturns text) = lastLine text := by
  rcases notMem_or_exists_lastFeed text with free | ⟨front, last, rfl, free⟩
  · rw [withReturns_of_notMem free]
  · rw [withReturns_append, withReturns_feed, withReturns_of_notMem free, lastLine_append_feed free,
      ← List.singleton_append, ← List.append_assoc, lastLine_append_feed free]

/-! ### Cuts that returns go through -/

theorem trimStart_withReturns (text : Text) :
    trimStart isPadding (withReturns text) = withReturns (trimStart isPadding text) := by
  induction text using feedInduction with
  | nil => rfl
  | feed rest => rfl
  | cons c rest hc ih =>
    rw [withReturns_cons hc, trimStart, trimStart, List.dropWhile_cons, List.dropWhile_cons]
    split
    · exact ih
    · rw [withReturns_cons hc]

theorem trimEnd_withReturns (text : Text) :
    trimEnd isPadding (withReturns text) = withReturns (trimEnd isPadding text) := by
  obtain ⟨pad, e, hp⟩ := exists_trimEnd_padding text
  have unpadded : Unpadded (withReturns (trimEnd isPadding text)).reverse := by
    intro c hc
    rw [List.head?_reverse, getLast?_withReturns, ← List.head?_reverse, trimEnd,
      List.reverse_reverse] at hc
    have first := List.head?_dropWhile_not (p := isPadding) (l := text.reverse)
    rw [Option.mem_def.mp hc] at first
    simpa using first
  conv => lhs; rw [e]
  rw [withReturns_append, withReturns_of_notMem (feed_notMem_of_isPadding hp),
    trimEnd_padding hp unpadded]

theorem dropLeadingBreak_withReturns (h : '\r' ∉ text) (breaks : startsWithBreak text = true) :
    dropLeadingBreak (withReturns text) = withReturns (dropLeadingBreak text) := by
  unfold startsWithBreak at breaks
  split at breaks
  · rfl
  · simp at h
  · simp at breaks

theorem dropTrailingReturn_withReturns (text : Text) :
    dropTrailingReturn (withReturns text ++ ['\r']) = withReturns text := by
  rw [dropTrailingReturn, if_pos (by simp), List.dropLast_concat]

theorem dropTrailingBreak_withReturns (h : '\r' ∉ text) :
    dropTrailingBreak (withReturns text) = withReturns (dropTrailingBreak text) := by
  rw [dropTrailingBreak, endsWithFeed_withReturns, dropTrailingBreak]
  split
  · rename_i ends
    obtain ⟨front, rfl⟩ := List.getLast?_eq_some_iff.mp (beq_iff_eq.mp ends)
    have no_return : '\r' ∉ front := fun hr => h (List.mem_append_left _ hr)
    have shape : withReturns (front ++ ['\n']) = (withReturns front ++ ['\r']) ++ ['\n'] := by
      rw [withReturns_append, List.append_assoc]
      rfl
    rw [shape, List.dropLast_concat, List.dropLast_concat, dropTrailingReturn_withReturns,
      dropTrailingReturn_of_notMem no_return]
  · rfl

/-- The first line feed of a text stays the first, with its return at the end of the first line. -/
theorem cutFirstBreak?_withReturns (text : Text) : cutFirstBreak? (withReturns text)
    = (cutFirstBreak? text).map fun parts => (withReturns parts.1 ++ ['\r'], withReturns parts.2) := by
  induction text using feedInduction with
  | nil => rfl
  | feed rest => rfl
  | cons c rest hc ih =>
    rw [withReturns_cons hc, cutFirstBreak?_cons, if_neg hc, cutFirstBreak?_cons, if_neg hc, ih,
      Option.map_map, Option.map_map]
    congr 1
    funext parts
    simp [withReturns_cons hc]

/-- The last line feed of a text stays the last, with its return in front of it. -/
theorem cutLastBreak?_withReturns (text : Text) : cutLastBreak? (withReturns text)
    = (cutLastBreak? text).map fun parts => (withReturns parts.1 ++ ['\r'], parts.2) := by
  rcases notMem_or_exists_lastFeed text with free | ⟨front, last, rfl, free⟩
  · rw [withReturns_of_notMem free, cutLastBreak?_of_notMem free]
    rfl
  · rw [withReturns_append, withReturns_feed, withReturns_of_notMem free,
      cutLastBreak?_append_feed free, ← List.singleton_append, ← List.append_assoc,
      cutLastBreak?_append_feed free]
    rfl

end Text

namespace Splice
variable {before content after : Text}

/-! ### Ways to splice -/

theorem sharesLine_withReturns (before after : Text) :
    sharesLine (withReturns before) (withReturns after) = sharesLine before after := by
  rw [sharesLine, lastLine_withReturns, isBlank_firstLine_withReturns, sharesLine]

theorem opensLine_withReturns (before : Text) :
    opensLine (withReturns before) = opensLine before := by
  rw [opensLine, trimEnd_withReturns, isEmpty_withReturns, endsWithFeed_withReturns, opensLine]

theorem closesLine_withReturns (h : '\r' ∉ after) :
    closesLine (withReturns after) = closesLine after := by
  have no_return : '\r' ∉ trimStart isPadding after :=
    fun hr => h ((trimStart_sublist isPadding after).subset hr)
  rw [closesLine, trimStart_withReturns, isEmpty_withReturns, startsWithBreak_withReturns no_return,
    closesLine]

/-- Nothing is left of a block without content, and of the break that goes with it, either way. -/
theorem collapse_withReturns (hb : '\r' ∉ before) (ha : '\r' ∉ after) :
    collapse (withReturns before) (withReturns after) = withReturns (collapse before after) := by
  have head_free : '\r' ∉ trimEnd isPadding before :=
    fun hr => hb ((trimEnd_sublist isPadding before).subset hr)
  have tail_free : '\r' ∉ trimStart isPadding after :=
    fun hr => ha ((trimStart_sublist isPadding after).subset hr)
  unfold collapse
  dsimp only
  rw [opensLine_withReturns, closesLine_withReturns ha, trimEnd_withReturns, trimStart_withReturns,
    isEmpty_withReturns]
  split
  · rename_i alone
    rw [Bool.and_eq_true] at alone
    split
    · exact dropTrailingBreak_withReturns head_free
    · rename_i inside
      have breaks : startsWithBreak (trimStart isPadding after) = true := by
        simpa [closesLine, inside] using alone.2
      rw [dropLeadingBreak_withReturns tail_free breaks, withReturns_append]
  · rw [withReturns_append]

theorem dropHeaderLine_withReturns (before content : Text) :
    dropHeaderLine (withReturns before) (withReturns content)
      = (withReturns (dropHeaderLine before content).1, withReturns (dropHeaderLine before content).2) := by
  unfold dropHeaderLine
  rw [cutFirstBreak?_withReturns]
  cases cutFirstBreak? content with
  | none => rfl
  | some parts =>
    have blank : isBlank (withReturns parts.1 ++ ['\r']) = isBlank parts.1 := by
      rw [isBlank_append, isBlank_withReturns]
      exact Bool.and_true _
    dsimp only [Option.map_some]
    rw [blank, trimEnd_withReturns]
    split <;> rfl

theorem dropFooterLine_withReturns (hc : '\r' ∉ content) (after : Text) :
    dropFooterLine (withReturns content) (withReturns after)
      = (withReturns (dropFooterLine content after).1, withReturns (dropFooterLine content after).2) := by
  unfold dropFooterLine
  rw [cutLastBreak?_withReturns]
  cases cut : cutLastBreak? content with
  | none => rfl
  | some parts =>
    have no_return : '\r' ∉ parts.1 := by
      rw [eq_of_cutLastBreak? cut] at hc
      exact fun hr => hc (List.mem_append_left _ hr)
    dsimp only [Option.map_some]
    rw [dropTrailingReturn_withReturns, dropTrailingReturn_of_notMem no_return, trimStart_withReturns]
    split <;> rfl

/-- The same parts are kept of texts with returns. -/
theorem keptParts_withReturns (hc : '\r' ∉ content) (ha : '\r' ∉ after) (before : Text) :
    keptParts (withReturns before) (withReturns content) (withReturns after)
      = ⟨withReturns (keptParts before content after).front,
          withReturns (keptParts before content after).inside,
          withReturns (keptParts before content after).back⟩ := by
  unfold keptParts
  dsimp only
  rw [opensLine_withReturns, closesLine_withReturns ha]
  cases opensLine before with
  | false => cases closesLine after <;> simp [dropFooterLine_withReturns hc]
  | true =>
    obtain ⟨-, blanks, -, -, e, -⟩ := exists_dropHeaderLine before content
    have no_return : '\r' ∉ (dropHeaderLine before content).2 :=
      fun hr => hc (e ▸ List.mem_append_right blanks hr)
    cases closesLine after <;>
      simp [dropHeaderLine_withReturns, dropFooterLine_withReturns no_return]

/-! ### Content on lines of its own -/

theorem feedBehind_withReturns (ha : '\r' ∉ after) (front content : Text) :
    feedBehind (front ++ withReturns content) (withReturns after)
      = feedBehind (front ++ content) after := by
  have ends : endsWithFeed (front ++ withReturns content) = endsWithFeed (front ++ content) := by
    rw [endsWithFeed, endsWithFeed, List.getLast?_append, List.getLast?_append, getLast?_withReturns]
  rw [feedBehind, closesLine_withReturns ha, ends, feedBehind]

/-- With returns, a line feed is added in front of the content wherever the block does not open its
line. -/
theorem feedInFront_withReturns (before content : Text) :
    feedInFront (withReturns before) (withReturns content)
      = if opensLine before then [] else ['\n'] := by
  rw [feedInFront, opensLine_withReturns, bne_iff_ne.mpr (head?_withReturns_ne content)]
  cases opensLine before <;> rfl

theorem withoutReturns_keepLines (hb : '\r' ∉ before) (hc : '\r' ∉ content) (ha : '\r' ∉ after) :
    withoutReturns (keepLines (withReturns before) (withReturns content) (withReturns after)) =
      let parts := keptParts before content after
      let fed := (if opensLine before then [] else ['\n']) ++ parts.inside
      parts.front ++ (fed ++ feedBehind fed after) ++ parts.back := by
  obtain ⟨frontPadding, leftBlanks, rightBlanks, backPadding, before_eq, -, content_eq, -, -,
    after_eq, -⟩ := exists_keptParts before content after
  rw [keepLines_eq_keptParts, keptParts_withReturns hc ha]
  dsimp only
  rw [feedInFront_withReturns, feedBehind_withReturns ha]
  generalize keptParts before content after = parts at *
  have no_return_front : '\r' ∉ parts.front := fun hr => hb (before_eq ▸ by simp [hr])
  have no_return_inside : '\r' ∉ parts.inside := fun hr => hc (content_eq ▸ by simp [hr])
  have no_return_back : '\r' ∉ parts.back := fun hr => ha (after_eq ▸ by simp [hr])
  generalize hl : (if opensLine before = true then [] else ['\n']) = lead
  have in_front : AtMostFeed lead := by
    rw [← hl]
    split
    · exact .inl rfl
    · exact .inr rfl
  have behind := atMostFeed_feedBehind (lead ++ parts.inside) after
  rw [List.append_assoc, withoutReturns_withReturns_append no_return_front]
  simp only [List.append_assoc]
  rw [withoutReturns_append_of_atMostFeed in_front, withoutReturns_withReturns_append no_return_inside,
    withoutReturns_append_of_atMostFeed behind, withoutReturns_withReturns no_return_back]

/-- A block whose visible content starts with a line feed, behind other characters than padding. -/
def DoublesFeed (before content : Text) : Prop :=
  opensLine before = false ∧ isBlank content = false ∧ content.head? = some '\n'

instance (before content : Text) : Decidable (DoublesFeed before content) :=
  inferInstanceAs (Decidable (_ ∧ _ ∧ _))

/-- Visible content that does not open its line keeps its first character. -/
theorem head?_inside (visible : isBlank content = false) (opens : opensLine before = false)
    (after : Text) : (keptParts before content after).inside.head? = content.head? := by
  obtain ⟨blanks, e, hb⟩ : ∃ blanks, content = (keptParts before content after).inside ++ blanks
      ∧ isBlank blanks = true := by
    rw [keptParts, opens, if_neg Bool.false_ne_true]
    dsimp only
    split
    · obtain ⟨blanks, -, e, hb, -⟩ := exists_dropFooterLine content after
      exact ⟨blanks, e, hb⟩
    · exact ⟨[], by simp, rfl⟩
  cases h : (keptParts before content after).inside with
  | nil =>
    rw [h, List.nil_append] at e
    rw [e, hb] at visible
    simp at visible
  | cons c rest =>
    conv => rhs; rw [e, h]
    rfl

theorem withoutReturns_keepLines_of_not_doublesFeed (hb : '\r' ∉ before) (hc : '\r' ∉ content)
    (ha : '\r' ∉ after) (visible : isBlank content = false) (h : ¬ DoublesFeed before content) :
    withoutReturns (keepLines (withReturns before) (withReturns content) (withReturns after))
      = keepLines before content after := by
  have same : feedInFront before (keptParts before content after).inside
      = if opensLine before then [] else ['\n'] := by
    cases opens : opensLine before with
    | true => simp [feedInFront, opens]
    | false =>
      have other : content.head? ≠ some '\n' := fun head => h ⟨opens, visible, head⟩
      rw [feedInFront, opens, head?_inside visible opens after, bne_iff_ne.mpr other]
      rfl
  rw [withoutReturns_keepLines hb hc ha, keepLines_eq_keptParts]
  dsimp only
  rw [same]

theorem exists_keepLines_of_doublesFeed (hb : '\r' ∉ before) (hc : '\r' ∉ content)
    (ha : '\r' ∉ after) (h : DoublesFeed before content) :
    ∃ rest, keepLines before content after = before ++ rest
      ∧ withoutReturns (keepLines (withReturns before) (withReturns content) (withReturns after))
        = before ++ '\n' :: rest := by
  obtain ⟨opens, visible, head⟩ := h
  have front : (keptParts before content after).front = before := by simp [keptParts, opens]
  have starts := (head?_inside visible opens after).trans head
  rw [withoutReturns_keepLines hb hc ha, keepLines_eq_keptParts]
  dsimp only
  rw [front, opens, if_neg Bool.false_ne_true]
  obtain ⟨inside, e⟩ := List.head?_eq_some_iff.mp starts
  have nothing_in_front : feedInFront before (keptParts before content after).inside = [] := by
    simp [feedInFront, starts]
  have same_behind : feedBehind (['\n'] ++ (keptParts before content after).inside) after
      = feedBehind (keptParts before content after).inside after := by
    rw [e, List.singleton_append, feedBehind, endsWithFeed, List.getLast?_cons_cons]
    rfl
  rw [nothing_in_front, same_behind]
  simp only [List.append_assoc, List.nil_append, List.cons_append]
  exact ⟨_, rfl, rfl⟩

end Splice

/-- **Texts with carriage returns are spliced like texts without**, unless visible content starts with
a line feed and the block does not open its line.  Then one more line feed stands in front of it. -/
theorem withoutReturns_splice {before content after : Text} (hb : '\r' ∉ before)
    (hc : '\r' ∉ content) (ha : '\r' ∉ after) :
    (¬ Splice.DoublesFeed before content →
        withoutReturns (splice (withReturns before) (withReturns content) (withReturns after))
          = splice before content after)
      ∧ (Splice.DoublesFeed before content → ∃ rest, splice before content after = before ++ rest
        ∧ withoutReturns (splice (withReturns before) (withReturns content) (withReturns after))
          = before ++ '\n' :: rest) := by
  rw [splice, splice, Splice.sharesLine_withReturns, contains_withReturns, isBlank_withReturns]
  constructor
  · intro h
    split
    · rw [← withReturns_append, ← withReturns_append]
      apply withoutReturns_withReturns
      simp [hb, hc, ha]
    · split
      · rw [Splice.collapse_withReturns hb ha]
        exact withoutReturns_withReturns fun hr => (Splice.mem_of_mem_collapse hr).elim hb ha
      · rename_i visible
        exact Splice.withoutReturns_keepLines_of_not_doublesFeed hb hc ha (by simpa using visible) h
  · intro h
    have feed : content.contains '\n' = true := by
      simpa using List.mem_of_head? h.2.2
    rw [feed, h.2.1, if_neg (by simp), if_neg (by simp), if_neg (by simp), if_neg (by simp)]
    exact Splice.exists_keepLines_of_doublesFeed hb hc ha h

/-- An indented block whose content starts with a break: the padding goes, and with it the break. -/
theorem withoutReturns_splice_indented :
    let before := "a:\n  ".toList
    let content := "\n x\n\t".toList
    let after := " \nb".toList
    '\r' ∉ before ∧ '\r' ∉ content ∧ '\r' ∉ after ∧ ¬ Splice.DoublesFeed before content
      ∧ withoutReturns (splice (withReturns before) (withReturns content) (withReturns after))
        = splice before content after
      ∧ splice (withReturns before) (withReturns content) (withReturns after)
        = "a:\r\n x\r\nb".toList := by
  intro before content after
  have hb : '\r' ∉ before := by decide
  have hc : '\r' ∉ content := by decide
  have ha : '\r' ∉ after := by decide
  have opens : ¬ Splice.DoublesFeed before content := by decide
  exact ⟨hb, hc, ha, opens, (withoutReturns_splice hb hc ha).1 opens, by decide⟩

/-- Behind a title, a break with a return in front of it gets another one. -/
theorem not_forall_withoutReturns_splice :
    ¬ ∀ before content after : Text, '\r' ∉ before → '\r' ∉ content → '\r' ∉ after →
      withoutReturns (splice (withReturns before) (withReturns content) (withReturns after))
        = splice before content after := by
  intro same
  have doubled := same "Title:".toList "\nX\n".toList " end".toList (by decide) (by decide) (by decide)
  revert doubled
  decide

end Stencil
