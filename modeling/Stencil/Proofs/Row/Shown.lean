import Stencil.Proofs.Filling
import Stencil.Proofs.Row.Run

/-! # Showing a row

The text that a printed row becomes when its variables are put in, computed symbol by symbol.

* `substitute_print`: this is what substitution makes of the printed row.
* `fill_print`: so a printed row is filled in with what is left of the row after its run.
* `glyphs_shown_core`: a row of characters and variables shows the same glyphs as its core.
* `glyphs_collapseBlankRuns`: shortening runs of blank lines takes no glyph away. -/

namespace Stencil

open Text

/-! ### Substitution in a printed row -/

/-- The text that a printed symbol becomes. -/
def Symbol.shown (d : Delimiters) (data : Value) : Symbol → Except Fault Text
  | .char c => .ok [c]
  | .marker level body =>
    if isVariableBody body then Value.shownAt (trim body) data
    else .ok ((Symbol.marker level body).print d)

/-- The text that a printed row becomes. -/
def Row.shown (d : Delimiters) (data : Value) : Row → Except Fault Text
  | [] => .ok []
  | s :: w => do return (← s.shown d data) ++ (← shown d data w)

theorem shown_literal (d : Delimiters) (data : Value) (text : Text) :
    Row.shown d data (Row.literal text) = .ok text := by
  induction text with
  | nil => rfl
  | cons c text ih =>
    rw [Row.literal, List.map_cons, Row.shown, ← Row.literal, ih]
    rfl

/-- The text of a dissection with its variables put in. -/
def Dissection.substituted (d : Delimiters) (data : Value) (t : Dissection) : Except Fault Text := do
  let shown ← t.pieces.mapM (Piece.substituted d data)
  return shown.flatten ++ t.tail

section substitute
variable {d : Delimiters} {data : Value}

theorem substituted_push (c : Char) (t : Dissection) :
    (t.push c).substituted d data = (t.substituted d data).map (c :: ·) := by
  obtain ⟨pieces, tail⟩ := t
  cases pieces with
  | nil => rfl
  | cons p pieces =>
    have head : Piece.substituted d data { p with gap := c :: p.gap }
        = (p.substituted d data).map (c :: ·) := by
      unfold Piece.substituted Piece.path
      dsimp only
      split
      · cases Value.shownAt (trim p.body) data <;> rfl
      · rfl
    simp only [Dissection.push, Dissection.substituted, List.mapM_cons, head]
    cases p.substituted d data with
    | error fault => rfl
    | ok text => cases pieces.mapM (Piece.substituted d data) <;> rfl

theorem substituted_marker (level : Nat) (body : Text) (t : Dissection) :
    Dissection.substituted d data ⟨⟨[], level, body⟩ :: t.pieces, t.tail⟩ = do
      return (← (Symbol.marker level body).shown d data) ++ (← t.substituted d data) := by
  have head : Piece.substituted d data ⟨[], level, body⟩
      = (Symbol.marker level body).shown d data := by
    unfold Piece.substituted Piece.path Symbol.shown
    dsimp only
    split
    · cases Value.shownAt (trim body) data <;> rfl
    · rfl
  simp only [Dissection.substituted, List.mapM_cons, head]
  cases (Symbol.marker level body).shown d data with
  | error fault => rfl
  | ok text =>
    cases t.pieces.mapM (Piece.substituted d data) with
    | error fault => rfl
    | ok texts => simp [bind, Except.bind, pure, Except.pure]

theorem substituted_dissection (w : Row) :
    w.dissection.substituted d data = w.shown d data := by
  induction w with
  | nil => rfl
  | cons s w ih =>
    cases s with
    | char c =>
      rw [Row.dissection, substituted_push, ih, Row.shown]
      cases Row.shown d data w <;> rfl
    | marker level body =>
      rw [Row.dissection, substituted_marker, ih, Row.shown]

/-- Substitution puts in what the symbols of a printed row show. -/
theorem substitute_print (usable : d.usable = true) {w : Row} (legible : w.Legible d) :
    substitute d data (w.print d) = w.shown d data := by
  rw [← substituted_dissection, ← dissect_print usable legible]
  rfl

/-- A printed row is filled in with what is left of it after its run. -/
theorem fill_print (solid : d.Solid) {w : Row} (legible : w.Legible d) :
    fill d data (w.print d) = w.resolve data >>= Row.shown d data := by
  rw [fill, resolveBlocks_print solid legible]
  cases h : w.resolve data with
  | error fault => rfl
  | ok left => exact substitute_print solid.usable (legible_of_resolve solid legible h)

end substitute

/-! ### Glyphs of a shown row -/

/-- A symbol that is a character or a variable. -/
def Symbol.IsContent : Symbol → Prop
  | .char _ => True
  | .marker _ body => isVariableBody body = true

instance : (s : Symbol) → Decidable s.IsContent
  | .char _ => inferInstanceAs (Decidable True)
  | .marker _ body => inferInstanceAs (Decidable (isVariableBody body = true))

theorem isContent_plain {s : Symbol} : s.plain.IsContent ↔ s.IsContent := by cases s <;> exact Iff.rfl

/-- A row of characters and variables. -/
def Row.IsContent (w : Row) : Prop := ∀ s ∈ w, s.IsContent

instance (w : Row) : Decidable w.IsContent := List.decidableBAll Symbol.IsContent w

theorem isContent_core {w : Row} : w.core.IsContent ↔ w.IsContent := by
  constructor
  · intro h s hs
    cases blank : s.isBlank with
    | true =>
      cases s with
      | char c => trivial
      | marker level body => simp [Symbol.isBlank] at blank
    | false =>
      apply isContent_plain.mp
      exact h _ (List.mem_map_of_mem (List.mem_filter.mpr ⟨hs, by simp [blank]⟩))
  · intro h s hs
    obtain ⟨t, ht, rfl⟩ := List.mem_map.mp hs
    exact isContent_plain.mpr (h t (List.mem_filter.mp ht).1)

/-- What a character or a variable shows does not hang on the delimiters or on the level. -/
theorem Symbol.shown_plain (d e : Delimiters) (data : Value) {s : Symbol} (content : s.IsContent) :
    s.plain.shown d data = s.shown e data := by
  cases s with
  | char c => rfl
  | marker level body =>
    have named : isVariableBody body = true := content
    rw [Symbol.plain, Symbol.shown, Symbol.shown, if_pos named, if_pos named]

theorem Row.shown_plain (d e : Delimiters) (data : Value) {w : Row} (content : w.IsContent) :
    w.plain.shown d data = w.shown e data := by
  induction w with
  | nil => rfl
  | cons s w ih =>
    obtain ⟨hs, hw⟩ := List.forall_mem_cons.mp content
    rw [Row.plain, List.map_cons, Row.shown, Row.shown, ← Row.plain, s.shown_plain d e data hs, ih hw]

theorem glyphs_shown_cons (d : Delimiters) (data : Value) (s : Symbol) (w : Row) :
    (Row.shown d data (s :: w)).map glyphs = do
      return (← (s.shown d data).map glyphs) ++ (← (Row.shown d data w).map glyphs) := by
  rw [Row.shown]
  cases s.shown d data with
  | error fault => rfl
  | ok first =>
    cases Row.shown d data w with
    | error fault => rfl
    | ok rest => exact congrArg Except.ok (glyphs_append first rest)

/-- A row of characters and variables shows the glyphs that its core shows. -/
theorem glyphs_shown_core (d : Delimiters) (data : Value) {w : Row} (content : w.IsContent) :
    (w.core.shown d data).map glyphs = (w.shown d data).map glyphs := by
  induction w with
  | nil => rfl
  | cons s w ih =>
    obtain ⟨hs, hw⟩ := List.forall_mem_cons.mp content
    rw [Row.core_cons]
    cases blank : s.isBlank with
    | true =>
      cases s with
      | marker level body => simp [Symbol.isBlank] at blank
      | char c =>
        rw [if_pos rfl, ih hw, glyphs_shown_cons, Symbol.shown, Except.map,
          glyphs_cons_of_isBlankChar blank]
        cases Row.shown d data w <;> rfl
    | false =>
      rw [if_neg (by simp), glyphs_shown_cons, glyphs_shown_cons, s.shown_plain d d data hs, ih hw]

/-! ### Glyphs of blank lines -/

theorem isBlankChar_of_isLineFiller {c : Char} (h : isLineFiller c = true) :
    isBlankChar c = true := by
  simp only [isLineFiller, Bool.or_eq_true, beq_iff_eq] at h
  rcases h with (rfl | rfl) | rfl <;> rfl

theorem glyphs_afterPaddedFeed? {text rest : Text} (h : afterPaddedFeed? text = some rest) :
    glyphs text = glyphs rest := by
  have split := List.takeWhile_append_dropWhile (p := isLineFiller) (l := text)
  have filler : isBlank (text.takeWhile isLineFiller) = true := by
    apply List.all_eq_true.mpr
    intro c hc
    exact isBlankChar_of_isLineFiller (List.all_eq_true.mp List.all_takeWhile c hc)
  rw [← split, after?_eq_some_iff.mp h, glyphs_append, glyphs_of_isBlank filler]
  exact glyphs_cons_of_isBlankChar (c := '\n') (by decide) rest

theorem glyphs_leadingFeeds (text : Text) : glyphs (leadingFeeds text).2 = glyphs text := by
  fun_induction leadingFeeds text with
  | case1 text rest h ih => 
    rw [glyphs_afterPaddedFeed? h, ← ih]
    rfl
  | case2 => rfl

/-- Shortening runs of blank lines takes no glyph away. -/
theorem glyphs_collapseBlankRuns (text : Text) : glyphs (collapseBlankRuns text) = glyphs text := by
  fun_induction collapseBlankRuns text with
  | case1 => rfl
  | case2 text run two ih =>
    have feed (rest : Text) : glyphs ('\n' :: rest) = glyphs rest :=
      glyphs_cons_of_isBlankChar (by decide) rest
    rw [feed, feed, feed, ih]
    exact glyphs_leadingFeeds text
  | case3 text run few ih => rw [glyphs_cons, ih, ← glyphs_cons]
  | case4 c text hc ih => rw [glyphs_cons, ih, ← glyphs_cons]

end Stencil
