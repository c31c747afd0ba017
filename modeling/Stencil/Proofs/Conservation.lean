import Stencil.Proofs.Lines
import Stencil.Proofs.Seams

/-! # What a splice keeps, drops and adds

A splice works next to the block only.  Of the text before the block it may drop the padding at the end
and a line break in front of that, of the text after it the padding at the start and a line break behind
that, but never more than one line break in all.  Of the content it keeps a stretch without some of the
blanks at its ends, and it may add a line feed on each side of that stretch.

* `Splice.Account` lists the parts that are kept, dropped and added.
* `Splice.exists_account_collapse` and `Splice.exists_account_keepLines` give the account of each way to
  splice.
* `splice_conserves`: every splice has an account. -/

namespace Stencil

open Text

namespace Text

/-! ### Dropped ends -/

/-- A line break, or nothing. -/
def AtMostBreak (text : Text) : Prop := text = [] ∨ text = ['\n'] ∨ text = ['\r', '\n']

/-- A line feed, or nothing. -/
def AtMostFeed (text : Text) : Prop := text = [] ∨ text = ['\n']

theorem exists_trimStart_padding (text : Text) :
    ∃ pad, text = pad ++ trimStart isPadding text ∧ IsPadding pad := by
  refine ⟨text.takeWhile isPadding, List.takeWhile_append_dropWhile.symm, ?_⟩
  exact fun c hc => List.all_eq_true.mp List.all_takeWhile c hc

theorem exists_trimEnd_padding (text : Text) :
    ∃ pad, text = trimEnd isPadding text ++ pad ∧ IsPadding pad := by
  obtain ⟨pad, e, all⟩ := eq_trimEnd_append isPadding text
  exact ⟨pad, e, List.all_eq_true.mp all⟩

theorem exists_dropLeadingBreak {text : Text} (h : startsWithBreak text = true) :
    ∃ lost, text = lost ++ dropLeadingBreak text ∧ AtMostBreak lost := by
  unfold startsWithBreak at h
  split at h
  · exact ⟨['\n'], rfl, .inr (.inl rfl)⟩
  · exact ⟨['\r', '\n'], rfl, .inr (.inr rfl)⟩
  · simp at h

theorem exists_dropTrailingReturn (text : Text) :
    ∃ lost, text = dropTrailingReturn text ++ lost ∧ (lost = [] ∨ lost = ['\r']) := by
  unfold dropTrailingReturn
  split
  · rename_i last
    obtain ⟨front, rfl⟩ := List.getLast?_eq_some_iff.mp (beq_iff_eq.mp last)
    exact ⟨['\r'], by rw [List.dropLast_concat], .inr rfl⟩
  · exact ⟨[], (List.append_nil text).symm, .inl rfl⟩

theorem exists_dropTrailingBreak (text : Text) :
    ∃ lost, text = dropTrailingBreak text ++ lost ∧ AtMostBreak lost := by
  unfold dropTrailingBreak
  split
  · rename_i last
    obtain ⟨front, rfl⟩ := List.getLast?_eq_some_iff.mp (beq_iff_eq.mp last)
    rw [List.dropLast_concat]
    obtain ⟨lost, e, rfl | rfl⟩ := exists_dropTrailingReturn front
    · rw [List.append_nil] at e
      exact ⟨['\n'], congrArg (· ++ ['\n']) e, .inr (.inl rfl)⟩
    · refine ⟨['\r', '\n'], ?_, .inr (.inr rfl)⟩
      conv => lhs; rw [e, List.append_assoc]
      rfl
  · exact ⟨[], (List.append_nil text).symm, .inl rfl⟩

end Text

namespace Splice

/-! ### Accounts -/

/-- The parts of a splice: what is kept of the text before the block, of its content and of the text
after it, with what is dropped between them and what is added to the content. -/
structure Account (before content after : Text) where
  front : Text
  frontBreak : Text
  frontPadding : Text
  leftBlanks : Text
  kept : Text
  rightBlanks : Text
  backPadding : Text
  backBreak : Text
  back : Text
  leftFeed : Text
  rightFeed : Text
  before_eq : before = front ++ frontBreak ++ frontPadding
  content_eq : content = leftBlanks ++ kept ++ rightBlanks
  after_eq : after = backPadding ++ backBreak ++ back
  isPadding_front : IsPadding frontPadding
  isPadding_back : IsPadding backPadding
  one_break : AtMostBreak frontBreak ∧ backBreak = [] ∨ frontBreak = [] ∧ AtMostBreak backBreak
  isBlank_left : isBlank leftBlanks = true
  isBlank_right : isBlank rightBlanks = true
  atMostFeed_left : AtMostFeed leftFeed
  atMostFeed_right : AtMostFeed rightFeed

/-- What is left after the splice. -/
def Account.result {before content after : Text} (a : Account before content after) : Text :=
  a.front ++ (a.leftFeed ++ a.kept ++ a.rightFeed) ++ a.back

variable {before content after : Text}

theorem isPadding_nil : IsPadding [] := List.forall_mem_nil _

theorem exists_account_verbatim (before content after : Text) :
    ∃ a : Account before content after, before ++ content ++ after = a.result :=
  ⟨{ front := before, frontBreak := [], frontPadding := [], leftBlanks := [], kept := content,
     rightBlanks := [], backPadding := [], backBreak := [], back := after, leftFeed := [],
     rightFeed := [], before_eq := by simp, content_eq := by simp, after_eq := by simp,
     isPadding_front := isPadding_nil, isPadding_back := isPadding_nil,
     one_break := .inl ⟨.inl rfl, rfl⟩, isBlank_left := rfl, isBlank_right := rfl,
     atMostFeed_left := .inl rfl, atMostFeed_right := .inl rfl }, by simp [Account.result]⟩

/-- An account of a block that leaves nothing: its blank content is dropped. -/
theorem exists_account_of_isBlank (blank : isBlank content = true)
    {front frontBreak frontPadding backPadding backBreak back : Text}
    (before_eq : before = front ++ frontBreak ++ frontPadding)
    (after_eq : after = backPadding ++ backBreak ++ back) (hf : IsPadding frontPadding)
    (hb : IsPadding backPadding)
    (one_break : AtMostBreak frontBreak ∧ backBreak = [] ∨ frontBreak = [] ∧ AtMostBreak backBreak) :
    ∃ a : Account before content after, front ++ back = a.result :=
  ⟨{ front, frontBreak, frontPadding, leftBlanks := content, kept := [], rightBlanks := [],
     backPadding, backBreak, back, leftFeed := [], rightFeed := [], before_eq,
     content_eq := by simp, after_eq, isPadding_front := hf, isPadding_back := hb, one_break,
     isBlank_left := blank, isBlank_right := rfl, atMostFeed_left := .inl rfl,
     atMostFeed_right := .inl rfl }, by simp [Account.result]⟩

theorem exists_account_collapse (blank : isBlank content = true) (before after : Text) :
    ∃ a : Account before content after, collapse before after = a.result := by
  obtain ⟨frontPadding, hbefore, hf⟩ := exists_trimEnd_padding before
  obtain ⟨backPadding, hafter, hb⟩ := exists_trimStart_padding after
  unfold collapse
  dsimp only
  split
  · rename_i alone
    rw [Bool.and_eq_true] at alone
    split
    · rename_i atEnd
      obtain ⟨lost, e, hl⟩ := exists_dropTrailingBreak (trimEnd isPadding before)
      have before_eq : before = dropTrailingBreak (trimEnd isPadding before) ++ lost
          ++ frontPadding := by rw [← e, ← hbefore]
      have after_eq : after = backPadding ++ [] ++ [] := by
        rw [List.append_nil, ← List.isEmpty_iff.mp atEnd, ← hafter]
      have account := exists_account_of_isBlank blank before_eq after_eq hf hb (.inl ⟨hl, rfl⟩)
      rwa [List.append_nil] at account
    · rename_i inside
      have breaks : startsWithBreak (trimStart isPadding after) = true := by
        simpa [closesLine, inside] using alone.2
      obtain ⟨lost, e, hl⟩ := exists_dropLeadingBreak breaks
      have before_eq : before = trimEnd isPadding before ++ [] ++ frontPadding := by
        rw [List.append_nil, ← hbefore]
      have after_eq : after = backPadding ++ lost
          ++ dropLeadingBreak (trimStart isPadding after) := by
        rw [List.append_assoc, ← e, ← hafter]
      exact exists_account_of_isBlank blank before_eq after_eq hf hb (.inr ⟨rfl, hl⟩)
  · have before_eq : before = before ++ [] ++ [] := by simp
    have after_eq : after = [] ++ [] ++ after := rfl
    exact exists_account_of_isBlank blank before_eq after_eq isPadding_nil isPadding_nil
      (.inr ⟨rfl, .inl rfl⟩)

/-- Where a block without content stood, nothing is added. -/
theorem mem_of_mem_collapse {c : Char} (h : c ∈ collapse before after) : c ∈ before ∨ c ∈ after := by
  unfold collapse at h
  dsimp only at h
  split at h
  · split at h
    · obtain ⟨lost, e, -⟩ := exists_dropTrailingBreak (trimEnd isPadding before)
      exact .inl ((trimEnd_sublist isPadding before).subset (e ▸ List.mem_append_left lost h))
    · rcases List.mem_append.mp h with h | h
      · exact .inl ((trimEnd_sublist isPadding before).subset h)
      · exact .inr ((trimStart_sublist isPadding after).subset ((dropLeadingBreak_sublist _).subset h))
  · exact List.mem_append.mp h

theorem exists_dropHeaderLine (before content : Text) : ∃ padding blanks,
    before = (dropHeaderLine before content).1 ++ padding ∧ IsPadding padding
      ∧ content = blanks ++ (dropHeaderLine before content).2 ∧ isBlank blanks = true := by
  have nothing : before = before ++ [] ∧ content = [] ++ content := by simp
  unfold dropHeaderLine
  split
  · rename_i first rest cut
    split
    · rename_i blank
      obtain ⟨padding, e, hp⟩ := exists_trimEnd_padding before
      refine ⟨padding, first ++ ['\n'], e, hp, ?_, ?_⟩
      · rw [eq_of_cutFirstBreak? cut, List.append_assoc]
        rfl
      · rw [isBlank_append, blank]
        rfl
    · exact ⟨[], [], nothing.1, isPadding_nil, nothing.2, rfl⟩
  · exact ⟨[], [], nothing.1, isPadding_nil, nothing.2, rfl⟩

theorem exists_dropFooterLine (content after : Text) : ∃ blanks padding,
    content = (dropFooterLine content after).1 ++ blanks ∧ isBlank blanks = true
      ∧ after = padding ++ (dropFooterLine content after).2 ∧ IsPadding padding := by
  have nothing : content = content ++ [] ∧ after = [] ++ after := by simp
  unfold dropFooterLine
  split
  · rename_i rest last cut
    split
    · rename_i blank
      obtain ⟨padding, e, hp⟩ := exists_trimStart_padding after
      obtain ⟨lost, hr, hl⟩ := exists_dropTrailingReturn rest
      refine ⟨lost ++ '\n' :: last, padding, ?_, ?_, e, hp⟩
      · conv => lhs; rw [eq_of_cutLastBreak? cut, hr, List.append_assoc]
      · have feed : isBlank ('\n' :: last) = true := by
          rw [isBlank, List.all_cons, ← isBlank, blank]
          rfl
        rw [isBlank_append, feed]
        rcases hl with rfl | rfl <;> rfl
    · exact ⟨[], [], nothing.1, rfl, nothing.2, isPadding_nil⟩
  · exact ⟨[], [], nothing.1, rfl, nothing.2, isPadding_nil⟩

/-- What is kept of the three texts where content gets lines of its own. -/
structure Parts where
  front : Text
  inside : Text
  back : Text

/-- The parts that `keepLines` keeps. -/
def keptParts (before content after : Text) : Parts :=
  let left := if opensLine before then dropHeaderLine before content else (before, content)
  let right := if closesLine after then dropFooterLine left.2 after else (left.2, after)
  ⟨left.1, right.1, right.2⟩

/-- The line feed that is added in front of the content. -/
def feedInFront (before content : Text) : Text :=
  if !opensLine before && content.head? != some '\n' then ['\n'] else []

/-- The line feed that is added behind the content. -/
def feedBehind (content after : Text) : Text :=
  if !closesLine after && !endsWithFeed content then ['\n'] else []

theorem atMostFeed_feedInFront (before content : Text) : AtMostFeed (feedInFront before content) := by
  unfold feedInFront
  split
  · exact .inr rfl
  · exact .inl rfl

theorem atMostFeed_feedBehind (content after : Text) : AtMostFeed (feedBehind content after) := by
  unfold feedBehind
  split
  · exact .inr rfl
  · exact .inl rfl

theorem keepLines_eq_keptParts (before content after : Text) :
    keepLines before content after =
      let parts := keptParts before content after
      let fed := feedInFront before parts.inside ++ parts.inside
      parts.front ++ (fed ++ feedBehind fed after) ++ parts.back := by
  have in_front (needed : Bool) (t : Text) :
      (if needed then '\n' :: t else t) = (if needed then ['\n'] else []) ++ t := by
    cases needed <;> rfl
  have behind (needed : Bool) (t : Text) :
      (if needed then t ++ ['\n'] else t) = t ++ if needed then ['\n'] else [] := by
    cases needed <;> simp
  unfold keepLines
  dsimp only
  rw [in_front, behind]
  rfl

/-- The parts that are kept of content are the texts without padding and blanks at the seams. -/
theorem exists_keptParts (before content after : Text) :
    ∃ frontPadding leftBlanks rightBlanks backPadding,
      before = (keptParts before content after).front ++ frontPadding ∧ IsPadding frontPadding
        ∧ content = leftBlanks ++ (keptParts before content after).inside ++ rightBlanks
        ∧ isBlank leftBlanks = true ∧ isBlank rightBlanks = true
        ∧ after = backPadding ++ (keptParts before content after).back ∧ IsPadding backPadding := by
  unfold keptParts
  dsimp only
  generalize hp : (if opensLine before = true then dropHeaderLine before content
    else (before, content)) = p
  obtain ⟨frontPadding, leftBlanks, before_eq, hf, hc, hl⟩ : ∃ padding blanks,
      before = p.1 ++ padding ∧ IsPadding padding ∧ content = blanks ++ p.2
        ∧ isBlank blanks = true := by
    rw [← hp]
    split
    · exact exists_dropHeaderLine before content
    · exact ⟨[], [], by simp, isPadding_nil, by simp, rfl⟩
  generalize hq : (if closesLine after = true then dropFooterLine p.2 after
    else (p.2, after)) = q
  obtain ⟨rightBlanks, backPadding, hc', hr, after_eq, hb⟩ : ∃ blanks padding,
      p.2 = q.1 ++ blanks ∧ isBlank blanks = true ∧ after = padding ++ q.2
        ∧ IsPadding padding := by
    rw [← hq]
    split
    · exact exists_dropFooterLine p.2 after
    · exact ⟨[], [], by simp, rfl, by simp, isPadding_nil⟩
  refine ⟨frontPadding, leftBlanks, rightBlanks, backPadding, before_eq, hf, ?_, hl, hr, after_eq, hb⟩
  rw [List.append_assoc, ← hc', ← hc]

theorem exists_account_keepLines (before content after : Text) :
    ∃ a : Account before content after, keepLines before content after = a.result := by
  obtain ⟨frontPadding, leftBlanks, rightBlanks, backPadding, before_eq, hf, content_eq, hl, hr,
    after_eq, hb⟩ := exists_keptParts before content after
  rw [keepLines_eq_keptParts]
  generalize keptParts before content after = parts at *
  refine
    ⟨{ front := parts.front, frontBreak := [], frontPadding, leftBlanks, kept := parts.inside,
       rightBlanks, backPadding, backBreak := [], back := parts.back, leftFeed := _,
       rightFeed := _,
       before_eq := ?front_eq, content_eq, after_eq := ?back_eq, isPadding_front := hf,
       isPadding_back := hb, one_break := .inl ⟨.inl rfl, rfl⟩, isBlank_left := hl,
       isBlank_right := hr, atMostFeed_left := atMostFeed_feedInFront before parts.inside,
       atMostFeed_right := atMostFeed_feedBehind _ after }, rfl⟩
  case front_eq => rw [List.append_nil, ← before_eq]
  case back_eq => rw [List.append_nil, ← after_eq]

end Splice

/-- A splice drops blanks next to the block only, and with them one line break at most, and adds at
most a line feed on each side of the content: it keeps every visible character in order. -/
theorem splice_conserves (before content after : Text) :
    (∃ a : Splice.Account before content after, splice before content after = a.result)
      ∧ glyphs (splice before content after) = glyphs before ++ glyphs content ++ glyphs after
      ∧ (splice before content after).length
          ≤ before.length + content.length + after.length + 2 := by
  refine ⟨?_, glyphs_splice before content after, length_splice_le before content after⟩
  unfold splice
  split
  case isTrue => exact Splice.exists_account_verbatim before content after
  case isFalse =>
    split
    case isTrue blank => exact Splice.exists_account_collapse blank before after
    case isFalse => exact Splice.exists_account_keepLines before content after

end Stencil
