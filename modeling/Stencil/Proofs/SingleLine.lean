import Stencil.Proofs.Conservation

/-! # Splices on a single line

A splice of texts without line feeds has none either, as long as a glyph stands next to the block, or
nothing but padding does, or the content is blank.  Other blanks are no text on the line of the block,
but they are no padding either: between them, visible content gets a line of its own.

* `Splice.keepLines_of_notMem`: what is made of visible content that has the line to itself.
* `feed_mem_splice_iff`: exactly when a single line is broken. -/

namespace Stencil

open Text

namespace Splice
variable {before content after : Text}

/-! ### The ends of a single line -/

theorem opensLine_of_notMem (h : '\n' ∉ before) :
    opensLine before = true ↔ IsPadding before := by
  have no_feed : endsWithFeed (trimEnd isPadding before) = false := by
    rw [endsWithFeed, beq_eq_false_iff_ne]
    exact fun last => h ((trimEnd_sublist isPadding before).subset (List.mem_of_getLast? last))
  rw [opensLine, no_feed, Bool.or_false, List.isEmpty_iff, trimEnd_eq_nil_iff]

theorem closesLine_of_notMem (h : '\n' ∉ after) : closesLine after = true ↔ IsPadding after := by
  have no_feed : startsWithBreak (trimStart isPadding after) = false := by
    rw [Bool.eq_false_iff]
    exact fun breaks =>
      h ((trimStart_sublist isPadding after).subset (feed_mem_of_startsWithBreak breaks))
  rw [closesLine, no_feed, Bool.or_false, List.isEmpty_iff, trimStart_eq_nil_iff]

/-! ### Content that has the line to itself -/

/-- Content without a line feed is kept whole, with the padding around it. -/
theorem keptParts_of_notMem (h : '\n' ∉ content) (before after : Text) :
    keptParts before content after = ⟨before, content, after⟩ := by
  have header : dropHeaderLine before content = (before, content) := by
    rw [dropHeaderLine, cutFirstBreak?_of_notMem h]
  have footer : dropFooterLine content after = (content, after) := by
    rw [dropFooterLine, cutLastBreak?_of_notMem h]
  simp [keptParts, header, footer]

/-- Visible content without a line feed gets one on each side where the block is not at the end of its
line. -/
theorem keepLines_of_notMem (h : '\n' ∉ content) (visible : isBlank content = false) :
    keepLines before content after
      = before ++ (if opensLine before then [] else ['\n']) ++ content
        ++ (if closesLine after then [] else ['\n']) ++ after := by
  have head : content.head? ≠ some '\n' := fun e => h (List.mem_of_head? e)
  have last : endsWithFeed (feedInFront before content ++ content) = false := by
    cases content with
    | nil => simp [isBlank] at visible
    | cons c content =>
      rw [endsWithFeed, List.getLast?_append, Option.or_of_isSome (by simp), beq_eq_false_iff_ne]
      exact fun e => h (List.mem_of_getLast? e)
  rw [keepLines_eq_keptParts, keptParts_of_notMem h]
  dsimp only
  rw [feedBehind, last, feedInFront, bne_iff_ne.mpr head]
  cases opensLine before <;> cases closesLine after <;> simp

theorem feed_mem_keepLines_iff (hb : '\n' ∉ before) (hc : '\n' ∉ content) (ha : '\n' ∉ after)
    (visible : isBlank content = false) :
    '\n' ∈ keepLines before content after ↔ ¬ (IsPadding before ∧ IsPadding after) := by
  rw [keepLines_of_notMem hc visible, ← opensLine_of_notMem hb, ← closesLine_of_notMem ha]
  cases opensLine before <;> cases closesLine after <;> simp [hb, hc, ha]

end Splice

/-- **A single line is broken** by a splice exactly where visible content stands between blanks that are
not all padding. -/
theorem feed_mem_splice_iff {before content after : Text} (hb : '\n' ∉ before) (hc : '\n' ∉ content)
    (ha : '\n' ∉ after) :
    '\n' ∈ splice before content after ↔ isBlank before = true ∧ isBlank content = false
      ∧ isBlank after = true ∧ ¬ (IsPadding before ∧ IsPadding after) := by
  have no_feed : content.contains '\n' = false := by simpa using hc
  rw [splice, Splice.sharesLine, lastLine_of_notMem hb, firstLine_of_notMem ha, no_feed,
    Bool.not_false, Bool.and_true]
  cases alone : isBlank before && isBlank after with
  | false =>
    have shared : ¬ (isBlank before = true ∧ isBlank after = true) := by simpa using alone
    rw [if_pos (by rfl)]
    simp only [List.mem_append, hb, hc, ha, or_self, false_iff]
    rintro ⟨blank_before, -, blank_after, -⟩
    exact shared ⟨blank_before, blank_after⟩
  | true =>
    obtain ⟨blank_before, blank_after⟩ := Bool.and_eq_true .. ▸ alone
    rw [if_neg (by simp)]
    cases visible : isBlank content with
    | true =>
      have free : '\n' ∉ Splice.collapse before after :=
        fun feed => (Splice.mem_of_mem_collapse feed).elim hb ha
      simp [free]
    | false =>
      rw [if_neg Bool.false_ne_true, Splice.feed_mem_keepLines_iff hb hc ha visible]
      simp [blank_before, blank_after]

/-- A vertical tab is no text on the line of a block, but padding it is not. -/
theorem feed_mem_splice_behind_tab :
    let before := " \x0b".toList
    let content := "x y".toList
    let after := "\t".toList
    '\n' ∉ before ∧ '\n' ∉ content ∧ '\n' ∉ after ∧ '\n' ∈ splice before content after
      ∧ '\n' ∉ splice after content after := by
  intro before content after
  have hb : '\n' ∉ before := by decide
  have hc : '\n' ∉ content := by decide
  have ha : '\n' ∉ after := by decide
  exact ⟨hb, hc, ha, (feed_mem_splice_iff hb hc ha).mpr (by decide),
    fun feed => absurd ((feed_mem_splice_iff ha hc ha).mp feed) (by decide)⟩

/-- A space that does not break a line is the reason why one is broken. -/
theorem not_forall_feed_notMem_splice :
    ¬ ∀ before content after : Text, '\n' ∉ before → '\n' ∉ content → '\n' ∉ after →
      '\n' ∉ splice before content after := by
  intro single
  exact single ['\u00a0'] ['x'] [] (by decide) (by decide) (by decide) (by decide)

end Stencil
