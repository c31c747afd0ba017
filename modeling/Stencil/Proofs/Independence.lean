import Stencil.Proofs.Meaning

/-! # Independence of the delimiters

A tree can be written with all delimiters that its texts have no character of, and every marker with
any number of copies of them.  All these texts are filled in alike, for the same data.

* `fill_written`: what comes out is known from the tree, written at level one.
* `fill_independent`: so two ways of writing a tree come to the same text, or to the same fault. -/

namespace Stencil

open Text

section fill
variable {d : Delimiters} {t : Template} {w : Row} {data : Value}

/-- A run over a written tree leaves no directive. -/
theorem isContent_of_resolve (plain : d.Plain) (clean : t.Clean d) (written : t.Written w) {left : Row}
    (h : w.resolve data = .ok left) : left.IsContent := by
  have legible := (Template.clean_of_written plain written clean).legible plain.usable
  obtain ⟨r, settles, core⟩ := (settles_of_resolve plain.toSolid legible h).lift
  rw [← isContent_core, ← core, isContent_core]
  exact (settles.chooses clean written).isContent clean

/-- **A written tree is filled in as the tree is**, whatever delimiters its row is shown with. -/
theorem fill_written (plain : d.Plain) (clean : t.Clean d) (written : t.Written w) (e : Delimiters) :
    fill d data (w.print d) = t.row.resolve data >>= Row.shown e data := by
  have legible := (Template.clean_of_written plain written clean).legible plain.usable
  have at_level_one : t.row.resolve data = (w.resolve data).map Row.plain := by
    rw [← Template.plain_of_written written, Row.resolve_plain]
  rw [fill_print plain.toSolid legible, at_level_one]
  cases h : w.resolve data with
  | error fault => rfl
  | ok left => exact (Row.shown_plain e d data (isContent_of_resolve plain clean written h)).symm

end fill

/-- **The delimiters and the levels do not matter.**  Let two pairs of delimiters hold no blank, no
character of a directive's word and no character of a tree.  However the tree is written with either of
them, the two texts come to the same text, or to the same fault. -/
theorem fill_independent {d e : Delimiters} (plain_d : d.Plain) (plain_e : e.Plain) {t : Template}
    (clean_d : t.Clean d) (clean_e : t.Clean e) {u v : Row} (written_u : t.Written u)
    (written_v : t.Written v) (data : Value) :
    fill d data (u.print d) = fill e data (v.print e) := by
  rw [fill_written plain_d clean_d written_u d, fill_written plain_e clean_e written_v d]

/-- A tree with nested blocks, once in delimiters that overlap themselves and once in ampersands. -/
theorem fill_independent_nested :
    let d : Delimiters := ⟨['a', 'b', 'a'], ['a']⟩
    let e : Delimiters := ⟨['&'], ['&']⟩
    let data : Value := .mapping [(['k'], .bool true), (['n'], .str ['&', 'z'])]
    let inner : Template := .block ['!', 'k'] (.literal ['x'] .empty)
      (.otherwise (.literal ['\n'] (.variable ['n', ' '] .empty)) .none) .empty
    let t : Template := .literal ['p'] (.block ['c'] .empty (.elseIf [' ', 'k'] inner .none)
      (.literal ['q'] .empty))
    let written (l m : Nat) : Row := [.char 'p', .marker l (Directive.ifBody ['c']),
      .marker m (Directive.elseIfBody [' ', 'k']), .marker l (Directive.ifBody ['!', 'k']), .char 'x',
      .marker m Directive.elseBody, .char '\n', .marker l ['n', ' '], .marker l Directive.endBody,
      .marker m Directive.endBody, .char 'q']
    d.Plain ∧ e.Plain ∧ t.Clean d ∧ t.Clean e ∧ t.Written (written 1 3) ∧ t.Written (written 2 1)
      ∧ fill d data ((written 1 3).print d) = fill e data ((written 2 1).print e)
      ∧ fill e data ((written 2 1).print e) = .ok ['p', '\n', '&', 'z', '\n', 'q'] := by
  intro d e data inner t written
  have plain_d : d.Plain := by decide
  have plain_e : e.Plain := by decide
  have clean_d : t.Clean d := by decide
  have clean_e : t.Clean e := by decide
  have writes {l m : Nat} (hl : 1 ≤ l) (hm : 1 ≤ m) : t.Written (written l m) :=
    have row_inner : inner.Written [.marker l (Directive.ifBody ['!', 'k']), .char 'x',
        .marker m Directive.elseBody, .char '\n', .marker l ['n', ' '],
        .marker l Directive.endBody] :=
      .block (u := [.char 'x'])
        (v := [.marker m Directive.elseBody, .char '\n', .marker l ['n', ' ']]) (w := []) hl hl
        (.literal .empty)
        (.otherwise (u := [.char '\n', .marker l ['n', ' ']]) (v := []) hm
          (.literal (.variable hl .empty)) .none) .empty
    .literal (.block (u := []) (w := [.char 'q']) hl hm .empty
      (.elseIf (v := []) hm row_inner .none) (.literal .empty))
  have first := writes (l := 1) (m := 3) (by decide) (by decide)
  have second := writes (l := 2) (m := 1) (by decide) (by decide)
  exact ⟨plain_d, plain_e, clean_d, clean_e, first, second,
    fill_independent plain_d plain_e clean_d clean_e first second data, by decide +kernel⟩

/-- A variable with an integer of 4301 digits comes to the same fault, however its marker is written. -/
example :
    let data : Value := .mapping [(['n'], .list [.int (Nat.pow 10 4300)])]
    fill ⟨['&'], ['&']⟩ data "&&n&&".toList = .error (.digitLimit none)
      ∧ fill ⟨['a', 'b'], ['a']⟩ data "abna".toList = .error (.digitLimit none) := by
  decide +kernel

end Stencil
