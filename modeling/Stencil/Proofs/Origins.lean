import Stencil.Proofs.Conservation

/-! # Where the lines of a splice come from

A glyph of a splice comes from the text before the block, from its content or from the text after it.
Visible content that has a line feed, or that stands alone on its line, keeps lines of its own: whatever
remains of the lines around it, no line of the splice shows glyphs of two origins.

* `Splice.Account.trace` is a splice character by character, each with its origin, and `Splice.Trace.lines`
  cuts it into lines.
* `Splice.feed_mem_leftSeam` and `Splice.feed_mem_rightSeam`: the seams around visible content hold a
  line feed, where there is a glyph beyond them.
* `unmixed_splice`: no line of such a splice is of two origins. -/

namespace Stencil

open Text

/-! ### Where firm text begins and ends -/

namespace Text
variable {p u v q front rest : Text}

theorem eq_nil_of_firmStart (hb : isBlank u = true) (firm : FirmStart (u ++ q)) : u = [] := by
  cases u with
  | nil => rfl
  | cons c u =>
    have blank := List.all_eq_true.mp hb c List.mem_cons_self
    have visible : isBlankChar c = false := firm c rfl
    rw [visible] at blank
    simp at blank

theorem eq_nil_of_firmEnd (hb : isBlank u = true) (firm : FirmEnd (p ++ u)) : u = [] := by
  rw [← firmStart_reverse, List.reverse_append] at firm
  have blank : isBlank u.reverse = true := by rwa [isBlank, List.all_reverse]
  simpa using eq_nil_of_firmStart blank firm

/-- Where only blanks are cut off behind, the firm part at the front is kept. -/
theorem exists_of_firmEnd (e : p ++ u = front ++ rest) (firm : FirmEnd p)
    (hr : isBlank rest = true) : ∃ w, front = p ++ w ∧ u = w ++ rest := by
  rcases List.append_eq_append_iff.mp e with ⟨w, hf, hu⟩ | ⟨w, hp, hu⟩
  · exact ⟨w, hf, hu⟩
  · rw [hu, isBlank_append, Bool.and_eq_true] at hr
    obtain rfl := eq_nil_of_firmEnd hr.1 (hp ▸ firm)
    exact ⟨[], by simpa using hp.symm, by simpa using hu.symm⟩

/-- Where only blanks are cut off in front, the firm part at the back is kept. -/
theorem exists_of_firmStart (e : v ++ q = front ++ rest) (firm : FirmStart q)
    (hf : isBlank front = true) : ∃ w, rest = w ++ q ∧ v = front ++ w := by
  rcases List.append_eq_append_iff.mp e with ⟨w, hv, hq⟩ | ⟨w, hv, hq⟩
  · rw [hv, isBlank_append, Bool.and_eq_true] at hf
    obtain rfl := eq_nil_of_firmStart hf.2 (hq ▸ firm)
    exact ⟨[], by simpa using hq.symm, by simpa using hv.symm⟩
  · exact ⟨w, hq, hv⟩

/-- Blanks in front of a firm text are told apart from it. -/
theorem append_inj_of_firmStart {s t : Text} (e : u ++ s = v ++ t) (hu : isBlank u = true)
    (hv : isBlank v = true) (hs : FirmStart s) (ht : FirmStart t) : u = v ∧ s = t := by
  obtain ⟨w, rfl, rfl⟩ := exists_of_firmStart e hs hv
  obtain rfl : w = [] := by
    rw [isBlank_append, Bool.and_eq_true] at hu
    exact eq_nil_of_firmStart hu.2 ht
  exact ⟨List.append_nil v, rfl⟩

end Text

namespace Splice

/-! ### Traces -/

/-- The part of a template that a character of a splice comes from. -/
inductive Origin where
  | before
  | content
  | after
deriving DecidableEq, Repr

/-- Characters with their origins. -/
abbrev Trace := List (Char × Origin)

/-- The characters of a text, all of one origin. -/
def Origin.mark (o : Origin) (text : Text) : Trace := text.map fun c => (c, o)

namespace Trace

/-- The characters of a trace. -/
def text (t : Trace) : Text := t.map Prod.fst

/-- The lines of a trace. -/
def lines (t : Trace) : List Trace := t.splitOnP (·.1 == '\n')

/-- All glyphs of a trace have one origin. -/
def GlyphsFrom (o : Origin) (t : Trace) : Prop := ∀ x ∈ t, isBlankChar x.1 = false → x.2 = o

/-- No line of a trace has glyphs of two origins. -/
def Unmixed (t : Trace) : Prop := ∀ line ∈ lines t, ∃ o, GlyphsFrom o line

variable {s t l : Trace} {o : Origin}

@[simp] theorem text_mark (o : Origin) (text : Text) : Trace.text (o.mark text) = text := by
  simp [Trace.text, Origin.mark, Function.comp_def]

@[simp] theorem text_append (s t : Trace) : text (s ++ t) = text s ++ text t := List.map_append

/-- The lines of a trace are those of its text. -/
theorem text_lines (t : Trace) : (lines t).map text = splitOn '\n' (text t) := by
  induction t with
  | nil => simp [lines, text, splitOn]
  | cons x t ih =>
    rw [lines, List.splitOnP_cons_eq_if_modifyHead, ← lines, text, List.map_cons, ← text, splitOn]
    by_cases feed : x.1 = '\n'
    · rw [if_pos (beq_iff_eq.mpr feed), if_pos feed, List.map_cons, ih]
      rfl
    · rw [if_neg (by simpa using feed), if_neg feed, ← ih]
      cases h : lines t with
      | nil => exact absurd h (List.splitOnP_ne_nil _ t)
      | cons line rest => rfl

theorem mem_of_mem_lines {line : Trace} {x : Char × Origin} (hl : line ∈ lines t) (hx : x ∈ line) :
    x ∈ t := by
  induction t generalizing line with
  | nil => simp_all [lines]
  | cons y t ih =>
    rw [lines, List.splitOnP_cons_eq_if_modifyHead, ← lines] at hl
    split at hl
    · rcases List.mem_cons.mp hl with rfl | hl
      · simp at hx
      · exact List.mem_cons_of_mem y (ih hl hx)
    · cases h : lines t with
      | nil => simp [h] at hl
      | cons first rest =>
        rw [h, List.modifyHead_cons] at hl
        rw [h] at ih
        rcases List.mem_cons.mp hl with rfl | hl
        · rcases List.mem_cons.mp hx with rfl | hx
          · exact List.mem_cons_self
          · exact List.mem_cons_of_mem y (ih List.mem_cons_self hx)
        · exact List.mem_cons_of_mem y (ih (List.mem_cons_of_mem first hl) hx)

/-! ### Glyphs of one origin -/

theorem glyphsFrom_mark (o : Origin) (text : Text) : GlyphsFrom o (o.mark text) := by
  intro x hx _
  obtain ⟨c, -, rfl⟩ := List.mem_map.mp hx
  rfl

theorem glyphsFrom_of_isBlank (h : isBlank (text t) = true) (o : Origin) : GlyphsFrom o t := by
  intro x hx visible
  have blank := List.all_eq_true.mp h x.1 (List.mem_map_of_mem hx)
  rw [visible] at blank
  simp at blank

theorem glyphsFrom_append : GlyphsFrom o (s ++ t) ↔ GlyphsFrom o s ∧ GlyphsFrom o t :=
  List.forall_mem_append

theorem GlyphsFrom.unmixed (h : GlyphsFrom o t) : Unmixed t :=
  fun _ hl => ⟨o, fun x hx => h x (mem_of_mem_lines hl hx)⟩

/-- At a line feed, the lines fall into those in front of it and those behind it. -/
theorem unmixed_append_feed {feed : Char × Origin} (h : feed.1 = '\n') :
    Unmixed (s ++ feed :: t) ↔ Unmixed s ∧ Unmixed t := by
  rw [Unmixed, lines, List.splitOnP_append_cons s t (by simpa using h)]
  exact List.forall_mem_append

/-- A seam of blanks with a line feed parts what stands in front of it from what stands behind it. -/
theorem unmixed_of_seam (hs : GlyphsFrom o s) (hl : isBlank (text l) = true)
    (parted : s = [] ∨ '\n' ∈ text l)
    (ht : ∀ blanks, isBlank (text blanks) = true → Unmixed (blanks ++ t)) :
    Unmixed (s ++ l ++ t) := by
  rcases parted with rfl | feed
  · exact ht l hl
  · obtain ⟨x, hx, isFeed⟩ := List.mem_map.mp feed
    obtain ⟨front, rest, rfl⟩ := List.append_of_mem hx
    rw [text_append, isBlank_append, Bool.and_eq_true] at hl
    have rest_blank : isBlank (text rest) = true :=
      isBlank_of_sublist (List.sublist_cons_self x.1 (text rest)) hl.2
    have shape : s ++ (front ++ x :: rest) ++ t = (s ++ front) ++ x :: (rest ++ t) := by simp
    rw [shape]
    refine (unmixed_append_feed isFeed).mpr ⟨?_, ht rest rest_blank⟩
    exact (glyphsFrom_append.mpr ⟨hs, glyphsFrom_of_isBlank hl.1 o⟩).unmixed

/-- Three texts with seams of blanks between them that hold line feeds do not share a line. -/
theorem unmixed_of_seams {p m q : Text} {r : Trace} (hl : isBlank (text l) = true)
    (hr : isBlank (text r) = true) (left : p = [] ∨ '\n' ∈ text l) (right : q = [] ∨ '\n' ∈ text r) :
    Unmixed (Origin.before.mark p ++ l ++ (Origin.content.mark m ++ r ++ Origin.after.mark q)) := by
  apply unmixed_of_seam (glyphsFrom_mark .before p) hl
  · rcases left with rfl | feed
    · exact .inl rfl
    · exact .inr feed
  intro blanks hb
  have inner := glyphsFrom_append.mpr
    ⟨glyphsFrom_of_isBlank hb .content, glyphsFrom_mark .content m⟩
  rw [← List.append_assoc, ← List.append_assoc]
  rcases right with rfl | feed
  · rw [show Origin.after.mark [] = [] from rfl, List.append_nil]
    exact (glyphsFrom_append.mpr ⟨inner, glyphsFrom_of_isBlank hr .content⟩).unmixed
  · apply unmixed_of_seam inner hr (.inr feed)
    intro blanks hb
    exact (glyphsFrom_append.mpr
      ⟨glyphsFrom_of_isBlank hb .after, glyphsFrom_mark .after q⟩).unmixed

end Trace

variable {p u x m y v q : Text}

/-! ### Seams around visible content -/

theorem feed_mem_leftSeam (firm : FirmEnd p) (hne : p ≠ []) (u x : Text) :
    '\n' ∈ leftSeam (opensLine (p ++ u)) u x := by
  unfold leftSeam
  dsimp only
  cases opens : opensLine (p ++ u) with
  | false =>
    rw [if_neg Bool.false_ne_true]
    by_cases head : x.head? = some '\n'
    · simp [head, List.mem_of_head? head]
    · simp [head]
  | true =>
    have feed : '\n' ∈ trimEnd isPadding u := by
      rw [opensLine, trimEnd_append_firm firm, endsWithFeed_append_firm firm] at opens
      have last : endsWithFeed (trimEnd isPadding u) = true := by simpa [hne] using opens
      exact List.mem_of_getLast? (beq_iff_eq.mp last)
    have kept : '\n' ∈ (dropHeaderLine u x).1 := by
      have all : '\n' ∈ u := (trimEnd_sublist isPadding u).subset feed
      unfold dropHeaderLine
      split
      · split
        · exact feed
        · exact all
      · exact all
    exact List.mem_append_left _ kept

theorem feed_mem_rightSeam (firm : FirmStart q) (hne : q ≠ []) (y v : Text) :
    '\n' ∈ rightSeam (closesLine (v ++ q)) y v := by
  unfold rightSeam
  dsimp only
  cases closes : closesLine (v ++ q) with
  | false =>
    rw [if_neg Bool.false_ne_true]
    by_cases last : endsWithFeed y = true
    · simp [last, List.mem_of_getLast? (beq_iff_eq.mp last)]
    · simp [last]
  | true =>
    have feed : '\n' ∈ trimStart isPadding v := by
      rw [closesLine, trimStart_append_firm firm, startsWithBreak_append_firm firm] at closes
      exact feed_mem_of_startsWithBreak (by simpa [hne] using closes)
    have kept : '\n' ∈ (dropFooterLine y v).2 := by
      have all : '\n' ∈ v := (trimStart_sublist isPadding v).subset feed
      unfold dropFooterLine
      split
      · split
        · exact feed
        · exact all
      · exact all
    exact List.mem_append_right _ kept

/-! ### The trace of an account -/

variable {before content after : Text}

/-- The result of a splice with the origin of each character.  A line feed that is added counts with
the content. -/
def Account.trace (a : Account before content after) : Trace :=
  Origin.before.mark a.front ++ Origin.content.mark (a.leftFeed ++ a.kept ++ a.rightFeed)
    ++ Origin.after.mark a.back

theorem Account.text_trace (a : Account before content after) : Trace.text a.trace = a.result := by
  simp [Account.trace, Account.result]

theorem isBlank_of_atMostBreak {text : Text} (h : AtMostBreak text) : isBlank text = true := by
  rcases h with rfl | rfl | rfl <;> rfl

theorem isBlank_of_atMostFeed {text : Text} (h : AtMostFeed text) : isBlank text = true := by
  rcases h with rfl | rfl <;> rfl

/-- An account keeps the firm parts of the three texts, with blanks around them. -/
theorem Account.exists_blanks (a : Account (p ++ u) (x ++ m ++ y) (v ++ q)) (hp : FirmEnd p)
    (hu : isBlank u = true) (hx : isBlank x = true) (hs : FirmStart m) (he : FirmEnd m)
    (hne : m ≠ []) (hy : isBlank y = true) (hv : isBlank v = true) (hq : FirmStart q) :
    ∃ u' x' y' v', a.front = p ++ u' ∧ a.kept = x' ++ m ++ y' ∧ a.back = v' ++ q
      ∧ isBlank (u' ++ x') = true ∧ isBlank (y' ++ v') = true := by
  have front_lost : isBlank (a.frontBreak ++ a.frontPadding) = true := by
    rw [isBlank_append, isBlank_of_isPadding a.isPadding_front, Bool.and_true]
    rcases a.one_break with ⟨h, -⟩ | ⟨h, -⟩
    · exact isBlank_of_atMostBreak h
    · exact isBlank_of_atMostBreak (.inl h)
  have back_lost : isBlank (a.backPadding ++ a.backBreak) = true := by
    rw [isBlank_append, isBlank_of_isPadding a.isPadding_back, Bool.true_and]
    rcases a.one_break with ⟨-, h⟩ | ⟨-, h⟩
    · exact isBlank_of_atMostBreak (.inl h)
    · exact isBlank_of_atMostBreak h
  obtain ⟨u', front_eq, eu⟩ :=
    exists_of_firmEnd (a.before_eq.trans (List.append_assoc ..)) hp front_lost
  obtain ⟨v', back_eq, ev⟩ := exists_of_firmStart a.after_eq hq back_lost
  obtain ⟨y', upto, ey⟩ :=
    exists_of_firmEnd a.content_eq (firmEnd_append he hne x) a.isBlank_right
  obtain ⟨x', kept_eq, ex⟩ :=
    exists_of_firmStart ((List.append_assoc ..).symm.trans upto.symm) (firmStart_append hs hne y')
      a.isBlank_left
  rw [eu, isBlank_append, Bool.and_eq_true] at hu
  rw [ex, isBlank_append, Bool.and_eq_true] at hx
  rw [ey, isBlank_append, Bool.and_eq_true] at hy
  rw [ev, isBlank_append, Bool.and_eq_true] at hv
  refine ⟨u', x', y', v', front_eq, by rw [kept_eq, List.append_assoc], back_eq, ?_, ?_⟩
  · rw [isBlank_append, hu.1, hx.2]
    rfl
  · rw [isBlank_append, hy.1, hv.2]
    rfl

/-- The trace of an account is made of the firm parts of the three texts, with seams of blanks. -/
theorem Account.exists_trace (a : Account (p ++ u) (x ++ m ++ y) (v ++ q)) (hp : FirmEnd p)
    (hu : isBlank u = true) (hx : isBlank x = true) (hs : FirmStart m) (he : FirmEnd m)
    (hne : m ≠ []) (hy : isBlank y = true) (hv : isBlank v = true) (hq : FirmStart q) :
    ∃ l r, a.trace
        = Origin.before.mark p ++ l ++ (Origin.content.mark m ++ r ++ Origin.after.mark q)
      ∧ isBlank (Trace.text l) = true ∧ isBlank (Trace.text r) = true := by
  obtain ⟨u', x', y', v', front_eq, kept_eq, back_eq, left, right⟩ :=
    a.exists_blanks hp hu hx hs he hne hy hv hq
  rw [isBlank_append, Bool.and_eq_true] at left right
  refine ⟨Origin.before.mark u' ++ Origin.content.mark (a.leftFeed ++ x'),
    Origin.content.mark (y' ++ a.rightFeed) ++ Origin.after.mark v', ?_, ?_, ?_⟩
  · rw [Account.trace, front_eq, kept_eq, back_eq]
    simp [Origin.mark]
  · simp [isBlank_append, left, isBlank_of_atMostFeed a.atMostFeed_left]
  · simp [isBlank_append, right, isBlank_of_atMostFeed a.atMostFeed_right]

/-- Every account of visible content on lines of its own keeps the lines of the three texts apart. -/
theorem unmixed_trace (visible : isBlank content = false) (a : Account before content after)
    (e : keepLines before content after = a.result) : Trace.Unmixed a.trace := by
  obtain ⟨p, u, rfl, hp, hu⟩ := exists_firmEnd before
  obtain ⟨x, m, y, rfl, hx, hs, he, hy, bare⟩ := exists_firm content
  obtain ⟨v, q, rfl, hv, hq⟩ := exists_firmStart after
  have hne : m ≠ [] := by
    rintro rfl
    rw [bare rfl, List.append_nil, List.append_nil, hx] at visible
    simp at visible
  obtain ⟨l, r, shape, hl, hr⟩ := a.exists_trace hp hu hx hs he hne hy hv hq
  -- The blanks that the account leaves around the firm parts are the seams of the splice.
  rw [keepLines_eq hp hx hs he hne hy hq, ← a.text_trace, shape] at e
  simp only [Trace.text_append, Trace.text_mark, List.append_assoc, List.append_cancel_left_eq] at e
  obtain ⟨left, rest⟩ := append_inj_of_firmStart e (isBlank_leftSeam _ hu hx) hl
    (firmStart_append hs hne _) (firmStart_append hs hne _)
  have right := List.append_cancel_right (List.append_cancel_left rest)
  rw [shape]
  apply Trace.unmixed_of_seams hl hr
  · rw [← left]
    exact Decidable.or_iff_not_imp_left.mpr fun hne => feed_mem_leftSeam hp hne u x
  · rw [← right]
    exact Decidable.or_iff_not_imp_left.mpr fun hne => feed_mem_rightSeam hq hne y v

end Splice

/-- **Visible content keeps its own lines** if it has a line feed or stands alone on its line: every
account of the splice has the lines of the splice, and none of them has glyphs of two origins. -/
theorem unmixed_splice {before content after : Text} (visible : isBlank content = false)
    (own : '\n' ∈ content ∨ isBlank (lastLine before) = true ∧ isBlank (firstLine after) = true) :
    (∃ a : Splice.Account before content after, splice before content after = a.result)
      ∧ ∀ a : Splice.Account before content after, splice before content after = a.result →
        (Splice.Trace.lines a.trace).map Splice.Trace.text = splitOn '\n' (splice before content after)
          ∧ Splice.Trace.Unmixed a.trace := by
  have kept : splice before content after = Splice.keepLines before content after := by
    rw [splice, if_neg, if_neg (by simp [visible])]
    rcases own with feed | ⟨hb, ha⟩
    · simp [feed]
    · simp [Splice.sharesLine, hb, ha]
  rw [kept]
  refine ⟨Splice.exists_account_keepLines before content after, fun a e => ⟨?_, ?_⟩⟩
  · rw [Splice.Trace.text_lines, Splice.Account.text_trace, e]
  · exact Splice.unmixed_trace visible a e

/-- A control that is no padding in front of a block, and text on the line behind it. -/
theorem unmixed_splice_behind_control :
    let before := "a\n \x0b".toList
    let content := " \r\n x\n y".toList
    let after := "\t z\n".toList
    isBlank content = false ∧ '\n' ∈ content
      ∧ splice before content after = "a\n \x0b\n \r\n x\n y\n\t z\n".toList
      ∧ ∀ a : Splice.Account before content after, splice before content after = a.result →
        Splice.Trace.Unmixed a.trace := by
  intro before content after
  have visible : isBlank content = false := by decide
  have feed : '\n' ∈ content := by decide
  exact ⟨visible, feed, by decide, fun a e => ((unmixed_splice visible (.inl feed)).2 a e).2⟩

end Stencil
