import Stencil.Proofs.Row.Basic
import Stencil.Proofs.Seams

/-! # Splices of rows

A splice of printed rows is a printed row, which is computed here without printing: the parts are cut
at their outermost symbols that are not blanks, and the seams come from the blanks and the outline of
the rest.  Neither the delimiters nor the levels of the markers have a say in it.

* `print_splice`: printing a splice of rows is splicing what is printed.
* `core_splice`: a splice moves only what the core of a row forgets, its blanks and levels.
* `plain_splice`: a splice does not look at levels. -/

namespace Stencil

open Text

/-! ### Delimiters without blanks -/

/-- Delimiters that can bracket a marker and hold no blank. -/
structure Delimiters.Solid (d : Delimiters) : Prop where
  usable : d.usable = true
  opening : ∀ c ∈ d.opening, isBlankChar c = false
  closing : ∀ c ∈ d.closing, isBlankChar c = false

instance (d : Delimiters) : Decidable d.Solid :=
  decidable_of_iff (d.usable = true ∧ d.opening.all (!isBlankChar ·) = true
    ∧ d.closing.all (!isBlankChar ·) = true) <| by
    simp only [List.all_eq_true, Bool.not_eq_true']
    exact ⟨fun ⟨usable, opening, closing⟩ => ⟨usable, opening, closing⟩,
      fun h => ⟨h.usable, h.opening, h.closing⟩⟩

theorem Delimiters.Solid.clean {d : Delimiters} (solid : d.Solid) {text : Text}
    (h : isBlank text = true) : d.Clean text := by
  intro c hc
  have blank := List.all_eq_true.mp h c hc
  constructor
  · intro ho
    rw [solid.opening c ho] at blank
    simp at blank
  · intro ho
    rw [solid.closing c ho] at blank
    simp at blank

namespace Symbol

/-- Whether a symbol is a blank character. -/
def isBlank : Symbol → Bool
  | char c => isBlankChar c
  | marker _ _ => false

/-- A symbol without its level. -/
def plain : Symbol → Symbol
  | char c => char c
  | marker _ body => marker 1 body

@[simp] theorem body_plain (s : Symbol) : s.plain.body = s.body := by cases s <;> rfl

@[simp] theorem directive?_plain (s : Symbol) : s.plain.directive? = s.directive? := by
  cases s <;> rfl

@[simp] theorem isBlank_plain (s : Symbol) : s.plain.isBlank = s.isBlank := by cases s <;> rfl

/-- Whether a symbol holds a line feed. -/
def holdsFeed : Symbol → Bool
  | char c => c == '\n'
  | marker _ body => body.contains '\n'

@[simp] theorem holdsFeed_plain (s : Symbol) : s.plain.holdsFeed = s.holdsFeed := by cases s <;> rfl

theorem directive?_eq (s : Symbol) : s.directive? = Directive.ofBody? s.body := by
  cases s with
  | char c => exact show none = Directive.ofBody? [] by decide
  | marker level body => rfl

theorem directive?_of_isBlank {s : Symbol} (h : s.isBlank = true) : s.directive? = none := by
  cases s with
  | char c => rfl
  | marker level body => simp [isBlank] at h

end Symbol

theorem Delimiters.Solid.clean_of_isBlank {d : Delimiters} (solid : d.Solid) {s : Symbol}
    (h : s.isBlank = true) : s.Clean d := by
  cases s with
  | char c =>
    apply solid.clean
    rw [Text.isBlank, List.all_cons, List.all_nil, Bool.and_true]
    exact h
  | marker level body => simp [Symbol.isBlank] at h

section splice
variable {d : Delimiters}

/-! ### Blanks at the ends of a row -/

theorem print_ne_nil (usable : d.usable = true) {s : Symbol} (legible : s.Legible d) :
    s.print d ≠ [] := by
  cases s with
  | char c => exact List.cons_ne_nil c []
  | marker level body =>
    exact List.append_ne_nil_of_right_ne_nil _
      (copies_ne_nil (Delimiters.usable_iff.mp usable).2 legible.1)

theorem firm_print (solid : d.Solid) {s : Symbol} (legible : s.Legible d) (h : s.isBlank = false) :
    FirmStart (s.print d) ∧ FirmEnd (s.print d) := by
  cases s with
  | char c =>
    constructor
    · intro x hx
      rw [← Option.some.inj hx]
      exact h
    · intro x hx
      rw [← Option.some.inj hx]
      exact h
  | marker level body =>
    obtain ⟨hl, -, -⟩ := legible
    obtain ⟨ho, hc⟩ := Delimiters.usable_iff.mp solid.usable
    obtain ⟨o, opened, eo⟩ := List.exists_cons_of_ne_nil (copies_ne_nil ho hl)
    have closed := copies_ne_nil hc hl
    constructor
    · intro x hx
      rw [Symbol.print, eo, List.append_assoc, List.cons_append, List.head?_cons] at hx
      apply solid.opening
      apply mem_of_mem_copies (n := level)
      rw [eo, ← Option.some.inj hx]
      exact List.mem_cons_self
    · intro x hx
      rw [Symbol.print, List.getLast?_append, Option.or_of_isSome (by simpa using closed)] at hx
      exact solid.closing x (mem_of_mem_copies (List.mem_of_getLast? hx))

/-- What holds of every character but blanks holds in a printed row, if it holds in the texts of its
symbols. -/
theorem forall_mem_print (solid : d.Solid) {p : Char → Prop}
    (firm : ∀ c, isBlankChar c = false → p c) {w : Row} (h : ∀ s ∈ w, ∀ c ∈ s.text, p c) :
    ∀ c ∈ w.print d, p c := by
  intro c hc
  obtain ⟨s, hs, hc⟩ := List.mem_flatMap.mp hc
  have held := h s hs
  cases s with
  | char x => exact held c hc
  | marker level body =>
    rw [Symbol.print, List.mem_append, List.mem_append] at hc
    rcases hc with (hc | hc) | hc
    · exact firm c (solid.opening c (mem_of_mem_copies hc))
    · exact held c hc
    · exact firm c (solid.closing c (mem_of_mem_copies hc))

/-- Nothing but blank characters prints blank. -/
theorem isBlank_print (solid : d.Solid) {w : Row} (legible : w.Legible d) :
    isBlank (w.print d) = w.all Symbol.isBlank := by
  induction w with
  | nil => rfl
  | cons s w ih =>
    obtain ⟨hs, hw⟩ := Row.legible_cons.mp legible
    rw [Row.print_cons, isBlank_append, ih hw, List.all_cons]
    congr 1
    cases s with
    | char c => simp [Symbol.print, isBlank, Symbol.isBlank]
    | marker level body =>
      exact isBlank_of_firmStart (firm_print solid hs rfl).1 (print_ne_nil solid.usable hs)

namespace Row

/-- The characters of a row. -/
def chars (w : Row) : Text :=
  w.filterMap fun
    | .char c => some c
    | .marker _ _ => none

/-- The blanks that a row starts with. -/
def leadingBlanks (w : Row) : Text := chars (w.takeWhile Symbol.isBlank)

/-- A row from its first symbol on that is not blank. -/
def fromGlyph (w : Row) : Row := w.dropWhile Symbol.isBlank

/-- The blanks that a row ends in. -/
def trailingBlanks (w : Row) : Text := (leadingBlanks w.reverse).reverse

/-- A row up to its last symbol that is not blank. -/
def toGlyph (w : Row) : Row := (fromGlyph w.reverse).reverse

theorem literal_chars {w : Row} (h : ∀ s ∈ w, s.isBlank = true) : literal (chars w) = w := by
  induction w with
  | nil => rfl
  | cons s w ih =>
    obtain ⟨hs, hw⟩ := List.forall_mem_cons.mp h
    cases s with
    | char c => exact congrArg (Symbol.char c :: ·) (ih hw)
    | marker level body => simp [Symbol.isBlank] at hs

theorem literal_reverse (text : Text) : literal text.reverse = (literal text).reverse :=
  List.map_reverse

theorem literal_leadingBlanks (w : Row) :
    literal w.leadingBlanks = w.takeWhile Symbol.isBlank :=
  literal_chars fun s hs => List.all_eq_true.mp List.all_takeWhile s hs

theorem append_fromGlyph (w : Row) : literal w.leadingBlanks ++ w.fromGlyph = w := by
  rw [literal_leadingBlanks]
  exact List.takeWhile_append_dropWhile

theorem append_toGlyph (w : Row) : w.toGlyph ++ literal w.trailingBlanks = w := by
  rw [toGlyph, trailingBlanks, literal_reverse, ← List.reverse_append, append_fromGlyph,
    List.reverse_reverse]

theorem isBlank_leadingBlanks (w : Row) : isBlank w.leadingBlanks = true := by
  apply List.all_eq_true.mpr
  intro c hc
  have held : Symbol.char c ∈ w.takeWhile Symbol.isBlank := by
    rw [← literal_leadingBlanks]
    exact List.mem_map_of_mem hc
  exact List.all_eq_true.mp (List.all_takeWhile (p := Symbol.isBlank)) _ held

theorem isBlank_trailingBlanks (w : Row) : isBlank w.trailingBlanks = true := by
  rw [trailingBlanks, isBlank, List.all_reverse]
  exact isBlank_leadingBlanks w.reverse

theorem head?_fromGlyph (w : Row) : ∀ s ∈ w.fromGlyph.head?, s.isBlank = false := by
  intro s hs
  have first := List.head?_dropWhile_not (p := Symbol.isBlank) (l := w)
  rw [← fromGlyph, Option.mem_def.mp hs] at first
  simpa using first

theorem legible_fromGlyph {w : Row} (legible : w.Legible d) : w.fromGlyph.Legible d :=
  fun s hs => legible s ((List.dropWhile_sublist _).subset hs)

theorem legible_toGlyph {w : Row} (legible : w.Legible d) : w.toGlyph.Legible d := by
  intro s hs
  rw [← append_toGlyph w] at legible
  exact legible s (List.mem_append_left _ hs)

theorem firmStart_fromGlyph (solid : d.Solid) {w : Row} (legible : w.Legible d) :
    FirmStart (w.fromGlyph.print d) := by
  have first := head?_fromGlyph w
  have readable := legible_fromGlyph legible
  cases h : w.fromGlyph with
  | nil => simp [FirmStart]
  | cons s rest =>
    rw [h] at first readable
    have hs := readable s List.mem_cons_self
    exact firmStart_append (firm_print solid hs (first s rfl)).1 (print_ne_nil solid.usable hs) _

theorem firmEnd_toGlyph (solid : d.Solid) {w : Row} (legible : w.Legible d) :
    FirmEnd (w.toGlyph.print d) := by
  have last := head?_fromGlyph w.reverse
  have readable := legible_toGlyph legible
  rw [toGlyph] at readable ⊢
  cases h : fromGlyph w.reverse with
  | nil => simp [FirmEnd]
  | cons s rest =>
    rw [h] at last
    rw [h, List.reverse_cons] at readable
    have hs := readable s (List.mem_append_right _ List.mem_cons_self)
    rw [List.reverse_cons, print_append, print_cons, print_nil, List.append_nil]
    exact firmEnd_append (firm_print solid hs (last s rfl)).2 (print_ne_nil solid.usable hs) _

/-! ### The splice -/

/-- The outline of three rows without blanks at the seams. -/
def outline (p m q : Row) : Splice.Outline :=
  ⟨!p.isEmpty, !m.isEmpty, m.any Symbol.holdsFeed, !q.isEmpty⟩

/-- Puts a row where a block stood. -/
def splice (before content after : Row) : Row :=
  let m := content.fromGlyph.toGlyph
  let seams := (outline before.toGlyph m after.fromGlyph).seams before.trailingBlanks
    content.leadingBlanks content.fromGlyph.trailingBlanks after.leadingBlanks
  before.toGlyph ++ literal seams.1 ++ m ++ literal seams.2 ++ after.fromGlyph

theorem isEmpty_print (usable : d.usable = true) {w : Row} (legible : w.Legible d) :
    (w.print d).isEmpty = w.isEmpty := by
  cases w with
  | nil => rfl
  | cons s w =>
    have hs := print_ne_nil usable (legible s List.mem_cons_self)
    simp [hs]

theorem contains_print (solid : d.Solid) {w : Row} :
    (w.print d).contains '\n' = w.any Symbol.holdsFeed := by
  have outside {token : Text} (h : ∀ c ∈ token, isBlankChar c = false) (n : Nat) :
      (copies token n).contains '\n' = false := by
    rw [List.contains_eq_mem, decide_eq_false_iff_not]
    intro hm
    have := h _ (mem_of_mem_copies hm)
    simp [isBlankChar] at this
  induction w with
  | nil => rfl
  | cons s w ih =>
    rw [print_cons, List.any_cons, ← ih]
    cases s with
    | char c => rw [Symbol.print, List.singleton_append, List.contains_cons, BEq.comm, Symbol.holdsFeed]
    | marker level body =>
      have h1 := outside solid.opening level
      have h2 := outside solid.closing level
      simp only [List.contains_eq_mem] at h1 h2 ⊢
      simp [Symbol.print, Symbol.holdsFeed, h1, h2]

theorem ofTexts_print (solid : d.Solid) {p m q : Row} (hp : p.Legible d) (hm : m.Legible d)
    (hq : q.Legible d) :
    Splice.Outline.ofTexts (p.print d) (m.print d) (q.print d) = outline p m q := by
  rw [Splice.Outline.ofTexts, isEmpty_print solid.usable hp, isEmpty_print solid.usable hm,
    isEmpty_print solid.usable hq, contains_print solid]
  rfl

/-- **Printing a splice of rows is splicing what is printed.** -/
theorem print_splice (solid : d.Solid) {before content after : Row} (hb : before.Legible d)
    (hc : content.Legible d) (ha : after.Legible d) : (splice before content after).print d
      = Stencil.splice (before.print d) (content.print d) (after.print d) := by
  have hg := legible_fromGlyph hc
  have firm_front := firmStart_fromGlyph solid hc
  have text_before : before.print d = before.toGlyph.print d ++ before.trailingBlanks := by
    conv => lhs; rw [← append_toGlyph before]
    rw [print_append, print_literal]
  have text_after : after.print d = after.leadingBlanks ++ after.fromGlyph.print d := by
    conv => lhs; rw [← append_fromGlyph after]
    rw [print_append, print_literal]
  have text_glyphs : content.fromGlyph.print d
      = content.fromGlyph.toGlyph.print d ++ content.fromGlyph.trailingBlanks := by
    conv => lhs; rw [← append_toGlyph content.fromGlyph]
    rw [print_append, print_literal]
  have text_content : content.print d = content.leadingBlanks
      ++ content.fromGlyph.toGlyph.print d ++ content.fromGlyph.trailingBlanks := by
    conv => lhs; rw [← append_fromGlyph content]
    rw [print_append, print_literal, text_glyphs, List.append_assoc]
  rw [text_glyphs] at firm_front
  rw [text_before, text_content, text_after,
    splice_eq_seams (firmEnd_toGlyph solid hb) (isBlank_trailingBlanks before)
      (isBlank_leadingBlanks content) (firmStart_of_append firm_front) (firmEnd_toGlyph solid hg)
      (isBlank_trailingBlanks _) (isBlank_leadingBlanks after) (firmStart_fromGlyph solid ha),
    ofTexts_print solid (legible_toGlyph hb) (legible_toGlyph hg) (legible_fromGlyph ha), splice]
  simp only [print_append, print_literal]

theorem isBlank_seams_outline (before content after : Row) (o : Splice.Outline) :
    isBlank (o.seams before.trailingBlanks content.leadingBlanks content.fromGlyph.trailingBlanks
        after.leadingBlanks).1 = true
      ∧ isBlank (o.seams before.trailingBlanks content.leadingBlanks
        content.fromGlyph.trailingBlanks after.leadingBlanks).2 = true :=
  Splice.isBlank_seams o (isBlank_trailingBlanks before) (isBlank_leadingBlanks content)
    (isBlank_trailingBlanks _) (isBlank_leadingBlanks after)

/-- A splice adds blanks only. -/
theorem mem_of_mem_splice {before content after : Row} {s : Symbol}
    (h : s ∈ splice before content after) :
    s ∈ before ∨ s ∈ content ∨ s ∈ after ∨ s.isBlank = true := by
  have literal_blank {text : Text} (blank : isBlank text = true) (hs : s ∈ literal text) :
      s.isBlank = true := by
    obtain ⟨c, hc, rfl⟩ := List.mem_map.mp hs
    exact List.all_eq_true.mp blank c hc
  have from_front {w : Row} (hs : s ∈ w.fromGlyph) : s ∈ w := (List.dropWhile_sublist _).subset hs
  have to_back {w : Row} (hs : s ∈ w.toGlyph) : s ∈ w := by
    rw [← append_toGlyph w]
    exact List.mem_append_left _ hs
  obtain ⟨left, right⟩ := isBlank_seams_outline before content after
    (outline before.toGlyph content.fromGlyph.toGlyph after.fromGlyph)
  simp only [splice, List.mem_append] at h
  rcases h with (((h | h) | h) | h) | h
  · exact .inl (to_back h)
  · exact .inr (.inr (.inr (literal_blank left h)))
  · exact .inr (.inl (from_front (to_back h)))
  · exact .inr (.inr (.inr (literal_blank right h)))
  · exact .inr (.inr (.inl (from_front h)))

end Row

end splice

/-! ### Cores -/

/-- A row without its blanks and its levels. -/
def Row.core (w : Row) : Row := (w.filter (!·.isBlank)).map Symbol.plain

namespace Row

@[simp] theorem core_append (u w : Row) : core (u ++ w) = core u ++ core w := by
  rw [core, List.filter_append, List.map_append]
  rfl

theorem core_cons (s : Symbol) (w : Row) :
    core (s :: w) = if s.isBlank then core w else s.plain :: core w := by
  rw [core, List.filter_cons]
  cases s.isBlank <;> rfl

theorem core_literal (text : Text) : core (literal text) = literal (glyphs text) := by
  induction text with
  | nil => rfl
  | cons c text ih =>
    have e : glyphs (c :: text) = if isBlankChar c then glyphs text else c :: glyphs text := by
      rw [glyphs, List.filter_cons]
      cases isBlankChar c <;> rfl
    rw [literal, List.map_cons, core_cons, ← literal, ih, e, Symbol.isBlank]
    split <;> rfl

theorem core_literal_of_isBlank {text : Text} (h : isBlank text = true) :
    core (literal text) = [] := by
  rw [core_literal, glyphs_of_isBlank h]
  rfl

theorem core_toGlyph (w : Row) : core w.toGlyph = core w := by
  conv => rhs; rw [← append_toGlyph w]
  rw [core_append, core_literal_of_isBlank (isBlank_trailingBlanks w), List.append_nil]

theorem core_fromGlyph (w : Row) : core w.fromGlyph = core w := by
  conv => rhs; rw [← append_fromGlyph w]
  rw [core_append, core_literal_of_isBlank (isBlank_leadingBlanks w), List.nil_append]

/-- The core of a splice is that of its parts. -/
theorem core_splice (before content after : Row) :
    core (splice before content after) = core before ++ core content ++ core after := by
  obtain ⟨left, right⟩ := isBlank_seams_outline before content after
    (outline before.toGlyph content.fromGlyph.toGlyph after.fromGlyph)
  simp only [splice, core_append, core_toGlyph, core_fromGlyph, core_literal_of_isBlank left,
    core_literal_of_isBlank right, List.append_nil]

/-! ### Levels -/

/-- A row with all its markers at level one. -/
def plain (w : Row) : Row := w.map Symbol.plain

/-- The core of a row does not hang on its levels. -/
theorem core_plain (w : Row) : core (plain w) = core w := by
  have once (s : Symbol) : s.plain.plain = s.plain := by cases s <;> rfl
  rw [core, core, plain, List.filter_map, List.map_map]
  simp [Function.comp_def, once]

theorem plain_append (u w : Row) : plain (u ++ w) = plain u ++ plain w := List.map_append

theorem plain_literal (text : Text) : plain (literal text) = literal text := by
  rw [plain, literal, List.map_map]
  rfl

theorem plain_reverse (w : Row) : plain w.reverse = (plain w).reverse := List.map_reverse

theorem fromGlyph_plain (w : Row) : fromGlyph (plain w) = plain (fromGlyph w) := by
  rw [fromGlyph, plain, List.dropWhile_map]
  congr 2
  funext s
  exact Symbol.isBlank_plain s

theorem leadingBlanks_plain (w : Row) : leadingBlanks (plain w) = leadingBlanks w := by
  have kept (u : Row) : chars (plain u) = chars u := by
    rw [chars, plain, List.filterMap_map]
    congr 1
    funext s
    cases s <;> rfl
  rw [leadingBlanks, leadingBlanks, ← kept (w.takeWhile Symbol.isBlank), plain, plain,
    List.takeWhile_map]
  congr 3
  funext s
  exact Symbol.isBlank_plain s

theorem toGlyph_plain (w : Row) : toGlyph (plain w) = plain (toGlyph w) := by
  rw [toGlyph, toGlyph, ← plain_reverse, fromGlyph_plain, plain_reverse]

theorem trailingBlanks_plain (w : Row) : trailingBlanks (plain w) = trailingBlanks w := by
  rw [trailingBlanks, trailingBlanks, ← plain_reverse, leadingBlanks_plain]

theorem outline_plain (p m q : Row) : outline (plain p) (plain m) (plain q) = outline p m q := by
  simp [outline, plain, List.any_map, Function.comp_def]

/-- A splice does not look at levels. -/
theorem plain_splice (before content after : Row) :
    plain (splice before content after) = splice (plain before) (plain content) (plain after) := by
  simp only [splice, toGlyph_plain, fromGlyph_plain, leadingBlanks_plain, trailingBlanks_plain,
    outline_plain, plain_append, plain_literal]

end Row
end Stencil
