import Stencil.Proofs.Settling
import Stencil.Proofs.SingleLine

/-! # Templates on one line

A template without line breaks, whose only blanks are spaces and tabs, is resolved verbatim.  As long
as any text stands next to a block, the content of the block is put there as it is; a block that
stands alone keeps its content and the padding around it, unless all of that is blank.

* `splice_inline`: a splice of such texts puts nothing in and takes nothing away, or leaves nothing of
  blanks.
* `Row.exists_settles`: so a run comes to what a run without any splicing comes to, or to nothing.
* `resolveBlocks_inline`: what is left of a written tree is exactly what is chosen of it. -/

namespace Stencil

open Text

namespace Text

/-- A text whose blanks are spaces and tabs. -/
def isInline (text : Text) : Bool := text.all fun c => isPadding c || !isBlankChar c

variable {text : Text}

theorem isPadding_of_isInline (h : isInline text = true) (blank : isBlank text = true) :
    IsPadding text := by
  intro c hc
  have allowed := List.all_eq_true.mp h c hc
  rw [List.all_eq_true.mp blank c hc] at allowed
  simpa using allowed

theorem unbroken_of_isInline (h : isInline text = true) : Unbroken text := by
  intro c hc
  have allowed := List.all_eq_true.mp h c hc
  constructor
  · rintro rfl
    simp [isPadding, isBlankChar] at allowed
  · rintro rfl
    simp [isPadding, isBlankChar] at allowed

end Text

/-! ### Splices on one line -/

section splice
variable {before content after : Text}

/-- Between padding alone, visible content without a line feed keeps the line to itself. -/
theorem keepLines_inline (hb : IsPadding before) (hc : '\n' ∉ content)
    (visible : isBlank content = false) (ha : IsPadding after) :
    Splice.keepLines before content after = before ++ content ++ after := by
  have opens := (Splice.opensLine_of_notMem (feed_notMem_of_isPadding hb)).mpr hb
  have closes := (Splice.closesLine_of_notMem (feed_notMem_of_isPadding ha)).mpr ha
  rw [Splice.keepLines_of_notMem hc visible, if_pos opens, if_pos closes, List.append_nil,
    List.append_nil]

/-- **A splice on one line is verbatim**, unless only blanks meet there. -/
theorem splice_inline (hb : isInline before = true) (hc : isInline content = true)
    (ha : isInline after = true) :
    splice before content after = before ++ content ++ after
      ∨ isBlank (before ++ content ++ after) = true ∧ splice before content after = [] := by
  have free := feed_notMem_of_unbroken (unbroken_of_isInline hc)
  have no_feed : content.contains '\n' = false := by
    rwa [List.contains_eq_mem, decide_eq_false_iff_not]
  have last := lastLine_of_notMem (feed_notMem_of_unbroken (unbroken_of_isInline hb))
  have first := firstLine_of_notMem (feed_notMem_of_unbroken (unbroken_of_isInline ha))
  rw [splice, Splice.sharesLine, last, first, no_feed, Bool.not_false, Bool.and_true]
  cases alone : isBlank before && isBlank after with
  | false => exact .inl (by simp)
  | true =>
    obtain ⟨blank_before, blank_after⟩ := Bool.and_eq_true .. ▸ alone
    have pad_before := isPadding_of_isInline hb blank_before
    have pad_after := isPadding_of_isInline ha blank_after
    rw [Bool.not_true, if_neg Bool.false_ne_true]
    split
    · rename_i blank
      refine .inr ⟨by rw [isBlank_append, isBlank_append, blank_before, blank, blank_after]; rfl, ?_⟩
      have collapsed : Splice.collapse (finished [] ++ before) (after ++ following []) = [] :=
        Splice.collapse_lines pad_before pad_after (List.forall_mem_nil _)
      rwa [following, List.flatMap_nil, List.append_nil] at collapsed
    · rename_i visible
      exact .inl (keepLines_inline pad_before free (by simpa using visible) pad_after)

end splice

/-! ### Rows on one line -/

/-- A row whose blanks are spaces and tabs. -/
def Row.Inline (w : Row) : Prop := ∀ s ∈ w, isInline s.text = true

namespace Row
variable {d : Delimiters}

theorem inline_append {u w : Row} : Inline (u ++ w) ↔ Inline u ∧ Inline w := List.forall_mem_append

theorem inline_cons {s : Symbol} {w : Row} : Inline (s :: w) ↔ isInline s.text = true ∧ Inline w :=
  List.forall_mem_cons

theorem inline_literal {text : Text} (h : isInline text = true) : Inline (literal text) := by
  intro s hs
  obtain ⟨c, hc, rfl⟩ := List.mem_map.mp hs
  exact List.all_eq_true.mpr (List.forall_mem_singleton.mpr (List.all_eq_true.mp h c hc))

theorem isInline_print (solid : d.Solid) {w : Row} (h : w.Inline) : isInline (w.print d) = true := by
  apply List.all_eq_true.mpr
  refine forall_mem_print (p := fun c => (isPadding c || !isBlankChar c) = true) solid ?_ ?_
  · intro c firm
    simp [firm]
  · exact fun s hs => List.all_eq_true.mp (h s hs)

theorem splice_inline (solid : d.Solid) {before content after : Row} (hb : before.Legible d)
    (hc : content.Legible d) (ha : after.Legible d)
    (inline : Inline (before ++ content ++ after)) :
    splice before content after = before ++ content ++ after
      ∨ (before ++ content ++ after).all Symbol.isBlank = true ∧ splice before content after = [] := by
  have together := legible_append.mpr ⟨legible_append.mpr ⟨hb, hc⟩, ha⟩
  have spliced : (splice before content after).Legible d := by
    intro s hs
    rcases mem_of_mem_splice hs with hs | hs | hs | blank
    · exact hb s hs
    · exact hc s hs
    · exact ha s hs
    · exact (solid.clean_of_isBlank blank).legible solid.usable
  obtain ⟨front, inline_after⟩ := inline_append.mp inline
  obtain ⟨inline_before, inline_content⟩ := inline_append.mp front
  have printed := Stencil.splice_inline (isInline_print solid inline_before)
    (isInline_print solid inline_content) (isInline_print solid inline_after)
  rw [← print_splice solid hb hc ha, ← print_append, ← print_append,
    isBlank_print solid together] at printed
  rcases printed with same | ⟨blank, nothing⟩
  · exact .inl (print_injective solid.usable spliced together same)
  · exact .inr ⟨blank, print_injective solid.usable spliced (List.forall_mem_nil _) nothing⟩

/-- **A run on one line**: what is left of a row is what a run without any splicing leaves of it, or
nothing if that is blank. -/
theorem exists_settles (solid : d.Solid) {data : Value} {w left : Row} (legible : w.Legible d)
    (inline : w.Inline) (h : w.resolve data = .ok left) :
    ∃ n s, Settles data n w s ∧ (left = s ∨ s.all Symbol.isBlank = true ∧ left = []) := by
  induction w using resolve.induct data with
  | case1 w hb =>
    rw [resolve_of_none hb, Except.ok.injEq] at h
    exact ⟨0, w, .done hb, .inl h.symm⟩
  | case2 w b hb fault hr =>
    rw [resolve_of_error hb hr] at h
    simp at h
  | case3 w b hb r hr ih =>
    rw [resolve_of_ok hb hr] at h
    have inside : ∀ s ∈ b.before ++ r ++ b.after, s ∈ w := by
      intro s hs
      rw [(block?_eq_some hb).1, RowBlock.row]
      simp only [List.mem_append, List.mem_cons] at hs ⊢
      rcases hs with (hs | hs) | hs
      · exact .inl hs
      · exact .inr (.inr (.inl (subset_of_chooseClause hr s hs)))
      · exact .inr (.inr (.inr (.inr hs)))
    have legible_next : Legible d (b.before ++ r ++ b.after) := fun s hs => legible s (inside s hs)
    have inline_next : Inline (b.before ++ r ++ b.after) := fun s hs => inline s (inside s hs)
    obtain ⟨front, after⟩ := legible_append.mp legible_next
    obtain ⟨before, content⟩ := legible_append.mp front
    rcases splice_inline solid before content after inline_next with same | ⟨blank, nothing⟩
    · rw [same] at ih h
      obtain ⟨n, s, settles, e⟩ := ih legible_next inline_next h
      exact ⟨n + 1, s, .pass hb hr settles, e⟩
    · -- Nothing is left, so the run is over; the run without splicing is left with blanks.
      have no_block : block? (b.before ++ r ++ b.after) = none := by
        apply block?_eq_none
        intro s hs
        rw [Symbol.directive?_of_isBlank (List.all_eq_true.mp blank s hs)]
        simp
      rw [nothing, resolve_of_none (block?_eq_none (List.forall_mem_nil _)), Except.ok.injEq] at h
      exact ⟨1, _, .pass hb hr (.done no_block), .inr ⟨blank, h.symm⟩⟩

end Row

/-! ### Trees on one line -/

mutual

/-- Whether all literals, bodies and conditions of a tree pass a test. -/
def Template.all (p : Text → Bool) : Template → Bool
  | .empty => true
  | .literal text rest => p text && rest.all p
  | .variable body rest => p body && rest.all p
  | .block condition body branches rest => p condition && body.all p && branches.all p && rest.all p

/-- The same of branches. -/
def Branches.all (p : Text → Bool) : Branches → Bool
  | .none => true
  | .elseIf condition body later => p condition && body.all p && later.all p
  | .otherwise body later => body.all p && later.all p

end

mutual

/-- The rows that write a tree on one line are on one line. -/
theorem Template.inline_of_written {t : Template} {w : Row} :
    t.Written w → t.all isInline = true → w.Inline
  | .empty, _ => List.forall_mem_nil _
  | .literal rest, h => by
    obtain ⟨text, later⟩ := Bool.and_eq_true .. ▸ h
    exact Row.inline_append.mpr ⟨Row.inline_literal text, Template.inline_of_written rest later⟩
  | .variable _ rest, h => by
    obtain ⟨body, later⟩ := Bool.and_eq_true .. ▸ h
    exact Row.inline_cons.mpr ⟨body, Template.inline_of_written rest later⟩
  | .block _ _ body branches rest, h => by
    simp only [Template.all, Bool.and_eq_true] at h
    obtain ⟨⟨⟨condition, hbody⟩, hbranches⟩, later⟩ := h
    refine Row.inline_cons.mpr ⟨condition, ?_⟩
    refine Row.inline_append.mpr ⟨Template.inline_of_written body hbody, ?_⟩
    refine Row.inline_append.mpr ⟨Branches.inline_of_written branches hbranches, ?_⟩
    have footer : isInline Directive.endBody = true := by decide
    exact Row.inline_cons.mpr ⟨footer, Template.inline_of_written rest later⟩

theorem Branches.inline_of_written {bs : Branches} {v : Row} :
    bs.Written v → bs.all isInline = true → v.Inline
  | .none, _ => List.forall_mem_nil _
  | .elseIf _ body later, h => by
    simp only [Branches.all, Bool.and_eq_true] at h
    obtain ⟨⟨condition, hbody⟩, hlater⟩ := h
    refine Row.inline_cons.mpr ⟨condition, ?_⟩
    exact Row.inline_append.mpr
      ⟨Template.inline_of_written body hbody, Branches.inline_of_written later hlater⟩
  | .otherwise _ body later, h => by
    obtain ⟨hbody, hlater⟩ := Bool.and_eq_true .. ▸ h
    have opener : isInline Directive.elseBody = true := by decide
    refine Row.inline_cons.mpr ⟨opener, ?_⟩
    exact Row.inline_append.mpr
      ⟨Template.inline_of_written body hbody, Branches.inline_of_written later hlater⟩

end

/-- **A template on one line is resolved verbatim.**  Let the delimiters hold no blank and no character
of a directive's word, and let the only blanks in a clean tree be spaces and tabs.  However the tree is
written, if no condition fails, then there is one row that is chosen of it from the top down, with its
variables as they were written, and the run leaves exactly this row; only if the row is blank, it may
leave nothing instead. -/
theorem resolveBlocks_inline {d : Delimiters} (plain : d.Plain) {t : Template} (clean : t.Clean d)
    (inline : t.all isInline = true) {w : Row} (written : t.Written w) {data : Value}
    (calm : Calm d data (w.print d)) :
    (∃ s, t.Chooses data w s) ∧ ∀ s, t.Chooses data w s →
      (isBlank (s.print d) = false → resolveBlocks d data (w.print d) = .ok (s.print d))
      ∧ (isBlank (s.print d) = true → resolveBlocks d data (w.print d) = .ok (s.print d)
        ∨ resolveBlocks d data (w.print d) = .ok []) := by
  have legible := (Template.clean_of_written plain written clean).legible plain.usable
  obtain ⟨out, resolved⟩ := calm_iff.mp calm
  rw [resolveBlocks_print plain.toSolid legible] at resolved ⊢
  obtain ⟨left, hl, rfl⟩ := ok_of_map resolved
  obtain ⟨n, s, settles, outcome⟩ := Row.exists_settles plain.toSolid legible
    (Template.inline_of_written written inline) hl
  have chosen := settles.chooses clean written
  refine ⟨⟨s, chosen⟩, ?_⟩
  intro s' chosen'
  obtain rfl := chosen.unique chosen'
  rw [resolved]
  rcases outcome with rfl | ⟨blank, rfl⟩
  · exact ⟨fun _ => rfl, fun _ => .inl rfl⟩
  · have blanks : s.Legible d := fun x hx =>
      (plain.clean_of_isBlank (List.all_eq_true.mp blank x hx)).legible plain.usable
    rw [isBlank_print plain.toSolid blanks, blank]
    exact ⟨fun glyphs => by simp at glyphs, fun _ => .inr rfl⟩

/-- A block in a branch of another one, next to text that a third block leaves alone on the line. -/
theorem resolveBlocks_inline_nested :
    let d : Delimiters := ⟨['<', '<'], ['>', '>']⟩
    let data : Value := .mapping [(['k'], .bool true)]
    let inner : Template := .block ['q'] .empty (.otherwise (.literal ['\t', 'y']
      (.variable ['n', ' '] .empty)) .none) .empty
    let t : Template := .block ['c'] (.literal [' ', 'x'] .empty) (.elseIf [' ', 'k'] inner .none)
      (.literal [' '] (.block ['q'] .empty .none .empty))
    let shown : Row := [.char '\t', .char 'y', .marker 3 ['n', ' ']]
    let u : Row := .marker 1 (Directive.ifBody ['q'])
      :: (.marker 2 Directive.elseBody :: (shown ++ [.marker 1 Directive.endBody]))
    let w : Row := .marker 1 (Directive.ifBody ['c']) :: (Row.literal [' ', 'x']
      ++ (.marker 2 (Directive.elseIfBody [' ', 'k']) :: (u ++ []) ++ .marker 1 Directive.endBody
        :: (Row.literal [' '] ++ [.marker 1 (Directive.ifBody ['q']), .marker 2 Directive.endBody])))
    d.Plain ∧ t.Clean d ∧ t.all isInline = true ∧ Calm d data (w.print d)
      ∧ t.Chooses data w (shown ++ Row.literal [' '])
      ∧ resolveBlocks d data (w.print d) = .ok ((shown ++ Row.literal [' ']).print d) := by
  intro d data inner t shown u w
  have plain : d.Plain := by decide
  have clean : t.Clean d := by decide
  have inline : t.all isInline = true := by decide
  have calm : Calm d data (w.print d) := by decide +kernel
  have no_c : evaluate (some (trim ['c'])) data = .ok false := by decide +kernel
  have no_q : evaluate (some (trim ['q'])) data = .ok false := by decide +kernel
  have k : evaluate (some (trim [' ', 'k'])) data = .ok true := by decide +kernel
  have one : 1 ≤ 1 := Nat.le_refl 1
  have two : 1 ≤ 2 := by decide
  have of_inner : inner.Chooses data u shown :=
    .fails (v := .marker 2 Directive.elseBody :: shown) (r := shown) (s := []) one one no_q .empty
      (.otherwise (v := []) two (.literal (.variable (by decide) .empty)) .none) .empty
  have last : Template.Chooses data (.block ['q'] .empty .none .empty)
      [.marker 1 (Directive.ifBody ['q']), .marker 2 Directive.endBody] [] :=
    .fails (u := []) (v := []) (r := []) one two no_q .empty .none .empty
  have chosen : t.Chooses data w (shown ++ Row.literal [' ']) :=
    .fails one one no_c (.literal .empty) (.elseIfHolds two k of_inner .none) (.literal last)
  have resolved := ((resolveBlocks_inline plain clean inline chosen.written calm).2 _ chosen).1
    (by decide)
  exact ⟨plain, clean, inline, calm, chosen, resolved⟩

end Stencil
