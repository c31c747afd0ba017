import Stencil.Proofs.Settling

/-! # Rendering a tree gives its meaning

The splices of a run move blanks only, so what is left of a written tree has the core of what is chosen
of the tree from the top down.

* `exists_chosen`: this is so for every run that returns a text.
* `render_eq_meaning`: blanks apart, a rendering is the meaning of the tree. -/

namespace Stencil

open Text

/-! ### Absent data -/

mutual

theorem Template.meaning_dataOr (data : Value) :
    (t : Template) → t.meaning (Renderer.dataOr data) = t.meaning data
  | .empty => rfl
  | .literal text rest => by
    rw [Template.meaning, Template.meaning, Template.meaning_dataOr data rest]
  | .variable body rest => by
    rw [Template.meaning, Template.meaning, shownAt_dataOr, Template.meaning_dataOr data rest]
  | .block condition body branches rest => by
    rw [Template.meaning, Template.meaning, evaluate_dataOr, Template.meaning_dataOr data body,
      Branches.meaning_dataOr data branches, Template.meaning_dataOr data rest]

theorem Branches.meaning_dataOr (data : Value) :
    (bs : Branches) → bs.meaning (Renderer.dataOr data) = bs.meaning data
  | .none => rfl
  | .elseIf condition body later => by
    rw [Branches.meaning, Branches.meaning, evaluate_dataOr, Template.meaning_dataOr data body,
      Branches.meaning_dataOr data later]
  | .otherwise body later => by
    rw [Branches.meaning, Branches.meaning, Template.meaning_dataOr data body]

end

/-! ### The text of a rendering -/

/-- A run over a written tree leaves a row whose core is that of what was chosen. -/
theorem exists_chosen {d : Delimiters} (plain : d.Plain) {t : Template} (clean : t.Clean d)
    {w : Row} (written : t.Written w) {data : Value} {out : Text}
    (h : resolveBlocks d data (w.print d) = .ok out) :
    ∃ r left : Row, t.chosen data = .ok r ∧ left.Clean d ∧ left.print d = out
      ∧ left.core = r.core := by
  have clean_w := Template.clean_of_written plain written clean
  obtain ⟨left, hl, e, settles⟩ := settles_of_resolveBlocks plain.toSolid clean_w h
  obtain ⟨r, settled, core⟩ := settles.lift
  refine ⟨r.plain, left, (settled.chooses clean written).chosen, hl, e, ?_⟩
  rw [Row.core_plain, core]

/-- Where a written tree is resolved and its variables are put in, the glyphs of its meaning come out. -/
theorem exists_meaning {d : Delimiters} (plain : d.Plain) {t : Template} (clean : t.Clean d)
    {w : Row} (written : t.Written w) {data : Value} {resolved result : Text}
    (hr : resolveBlocks d data (w.print d) = .ok resolved)
    (hs : substitute d data resolved = .ok result) :
    ∃ m, t.meaning data = .ok m ∧ glyphs result = glyphs m := by
  obtain ⟨r, left, chosen, clean_left, rfl, core⟩ := exists_chosen plain clean written hr
  have content := Template.isContent_chosen clean chosen
  have content_left : left.IsContent := by
    rw [← isContent_core, core, isContent_core]
    exact content
  have same : (r.shown d data).map glyphs = .ok (glyphs result) := by
    rw [← glyphs_shown_core d data content, ← core, glyphs_shown_core d data content_left,
      ← substitute_print plain.usable (clean_left.legible plain.usable), hs]
    rfl
  obtain ⟨m, hm, e⟩ := ok_of_map same
  exact ⟨m, Template.meaning_of_chosen clean chosen hm, e.symm⟩

/-- **A rendering is the meaning of the tree, blanks apart.**  Let the delimiters of a token hold no
blank and no character of a directive's word.  However a clean tree is written, whenever the rendering
returns a text, the tree has a meaning, and both hold the same glyphs in the same order. -/
theorem render_eq_meaning {token : Text} (plain : (Delimiters.ofToken token).Plain) {t : Template}
    (clean : t.Clean (Delimiters.ofToken token)) {w : Row} (written : t.Written w) {data : Value}
    {out : Text} (h : render (w.print (Delimiters.ofToken token)) data token = .ok out) :
    ∃ m, t.meaning data = .ok m ∧ glyphs out = glyphs m := by
  have same : (Renderer.mk token).delimiters = Delimiters.ofToken token := rfl
  rw [render, Renderer.render, Renderer.renderWith, same, if_pos plain.usable] at h
  obtain ⟨resolved, hr, h⟩ := ok_of_bind h
  obtain ⟨result, hs, h⟩ := ok_of_bind h
  obtain ⟨m, hm, e⟩ := exists_meaning plain clean written hr hs
  rw [Template.meaning_dataOr] at hm
  refine ⟨m, hm, ?_⟩
  rw [← e, ← Except.ok.inj h]
  split
  · rfl
  · exact glyphs_collapseBlankRuns result

/-- A block in each section of another one, with markers of levels one to three. -/
theorem render_eq_meaning_nested :
    let token : Text := ['&', '&']
    let d := Delimiters.ofToken token
    let data : Value := .mapping [(['a'], .bool true), (['n'], .str ['z'])]
    let inner : Template := .block ['b'] (.literal ['x'] .empty)
      (.otherwise (.literal ['\n'] (.variable ['n', ' '] .empty)) .none) .empty
    let t : Template := .literal ['p'] (.block ['c'] inner (.elseIf [' ', 'a'] inner .none)
      (.literal ['q'] .empty))
    let again (level : Nat) : Row := [.marker level (Directive.ifBody ['b']), .char 'x',
      .marker 1 Directive.elseBody, .char '\n', .marker level ['n', ' '],
      .marker 1 Directive.endBody]
    let w : Row := .char 'p' :: .marker 2 (Directive.ifBody ['c']) :: (again 2
      ++ (.marker 1 (Directive.elseIfBody [' ', 'a']) :: again 3
        ++ [.marker 2 Directive.endBody, .char 'q']))
    d.Plain ∧ t.Clean d ∧ t.Written w
      ∧ render (w.print d) data token = .ok ['p', '\n', 'z', '\n', 'q']
      ∧ ∃ m, t.meaning data = .ok m ∧ glyphs ['p', '\n', 'z', '\n', 'q'] = glyphs m := by
  intro token d data inner t again w
  have plain : d.Plain := by decide
  have clean : t.Clean d := by decide
  have written_again {level : Nat} (h : 1 ≤ level) : inner.Written (again level) :=
    .block (u := [.char 'x'])
      (v := [.marker 1 Directive.elseBody, .char '\n', .marker level ['n', ' ']]) (w := []) h
      (Nat.le_refl 1) (.literal .empty)
      (.otherwise (u := [.char '\n', .marker level ['n', ' ']]) (v := []) (Nat.le_refl 1)
        (.literal (.variable h .empty)) .none) .empty
  have written : t.Written w :=
    .literal (w := .marker 2 (Directive.ifBody ['c']) :: (again 2
      ++ (.marker 1 (Directive.elseIfBody [' ', 'a']) :: again 3
        ++ [.marker 2 Directive.endBody, .char 'q'])))
      (.block (u := again 2) (v := .marker 1 (Directive.elseIfBody [' ', 'a']) :: again 3)
        (w := [.char 'q']) (by decide) (by decide) (written_again (by decide))
        (.elseIf (u := again 3) (v := []) (by decide) (written_again (by decide)) .none)
        (.literal .empty))
  have rendered : render (w.print d) data token = .ok ['p', '\n', 'z', '\n', 'q'] := by
    decide +kernel
  exact ⟨plain, clean, written, rendered, render_eq_meaning plain clean written rendered⟩

end Stencil
