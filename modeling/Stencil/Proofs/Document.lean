import Stencil.Proofs.Lines
import Stencil.Proofs.Tree

/-! # Documents of lines

A document is a template whose directives stand alone on lines of their own.  Its text is all of its
lines joined by line feeds, and it keeps the lines of the sections that apply, except that a section
whose lines are all blank leaves no line.

* `Document.lines` lists the lines of a document, directives included.
* `Document.kept` lists the lines that remain of it, read off from the top down.
* `isContentLine_kept`: these hold literals and variables only. -/

namespace Stencil

open Text

/-! ### Documents -/

/-- How a directive stands on its line: the padding on both sides, and its level. -/
structure Margin where
  left : Text
  level : Nat
  right : Text
deriving DecidableEq, Repr

/-- The line of a directive. -/
def Margin.line (m : Margin) (body : Text) : Row :=
  Row.literal m.left ++ .marker m.level body :: Row.literal m.right

/-- A margin of spaces and tabs. -/
structure Margin.Fits (m : Margin) : Prop where
  left : IsPadding m.left
  level : 1 ≤ m.level
  right : IsPadding m.right

instance (m : Margin) : Decidable m.Fits :=
  decidable_of_iff (IsPadding m.left ∧ 1 ≤ m.level ∧ IsPadding m.right)
    ⟨fun ⟨left, level, right⟩ => ⟨left, level, right⟩, fun h => ⟨h.left, h.level, h.right⟩⟩

mutual

/-- A sequence of lines and conditional blocks. -/
inductive Document where
  | empty
  | line (w : Row) (rest : Document)
  | block (header : Margin) (condition : Text) (body : Document) (others : Alternatives)
      (footer : Margin) (rest : Document)

/-- The branches of a block with their sections. -/
inductive Alternatives where
  | none
  | elseIf (margin : Margin) (condition : Text) (body : Document) (later : Alternatives)
  | otherwise (margin : Margin) (body : Document) (later : Alternatives)

end

/-- A text for one line, without characters of the delimiters. -/
def Delimiters.CleanLine (d : Delimiters) (text : Text) : Prop := d.Clean text ∧ Unbroken text

instance (d : Delimiters) (text : Text) : Decidable (d.CleanLine text) :=
  inferInstanceAs (Decidable (_ ∧ _))

/-- A symbol without line breaks. -/
def Symbol.OneLine : Symbol → Prop
  | .char c => Unbroken [c]
  | .marker _ body => Unbroken body

instance : (s : Symbol) → Decidable s.OneLine
  | .char c => inferInstanceAs (Decidable (Unbroken [c]))
  | .marker _ body => inferInstanceAs (Decidable (Unbroken body))

/-- A clean row on one line. -/
structure Row.IsLine (d : Delimiters) (w : Row) : Prop where
  clean : w.Clean d
  oneLine : ∀ s ∈ w, s.OneLine

/-- A clean row of characters and variables on one line. -/
structure Row.IsContentLine (d : Delimiters) (w : Row) : Prop extends Row.IsLine d w where
  content : w.IsContent

instance (d : Delimiters) (w : Row) : Decidable (w.IsContentLine d) :=
  have := List.decidableBAll Symbol.OneLine w
  decidable_of_iff ((w.Clean d ∧ ∀ s ∈ w, s.OneLine) ∧ w.IsContent)
    ⟨fun ⟨line, content⟩ => ⟨⟨line.1, line.2⟩, content⟩,
      fun h => ⟨⟨h.clean, h.oneLine⟩, h.content⟩⟩

mutual

/-- Lines hold literals and variables only, conditions are clean, and directives stand between
padding. -/
def Document.Clean (d : Delimiters) : Document → Prop
  | .empty => True
  | .line w rest => w.IsContentLine d ∧ rest.Clean d
  | .block header condition body others footer rest =>
    (header.Fits ∧ d.CleanLine condition ∧ footer.Fits)
      ∧ body.Clean d ∧ others.Clean d ∧ rest.Clean d

/-- The same of branches. -/
def Alternatives.Clean (d : Delimiters) : Alternatives → Prop
  | .none => True
  | .elseIf margin condition body later =>
    (margin.Fits ∧ d.CleanLine condition) ∧ body.Clean d ∧ later.Clean d
  | .otherwise margin body later => margin.Fits ∧ body.Clean d ∧ later.Clean d

end

mutual

def Document.decidableClean (d : Delimiters) : (doc : Document) → Decidable (doc.Clean d)
  | .empty => inferInstanceAs (Decidable True)
  | .line _ rest =>
    have := Document.decidableClean d rest
    inferInstanceAs (Decidable (_ ∧ _))
  | .block _ _ body others _ rest =>
    have := Document.decidableClean d body
    have := Alternatives.decidableClean d others
    have := Document.decidableClean d rest
    inferInstanceAs (Decidable ((_ ∧ _ ∧ _) ∧ _ ∧ _ ∧ _))

def Alternatives.decidableClean (d : Delimiters) :
    (others : Alternatives) → Decidable (others.Clean d)
  | .none => inferInstanceAs (Decidable True)
  | .elseIf _ _ body later =>
    have := Document.decidableClean d body
    have := Alternatives.decidableClean d later
    inferInstanceAs (Decidable ((_ ∧ _) ∧ _ ∧ _))
  | .otherwise _ body later =>
    have := Document.decidableClean d body
    have := Alternatives.decidableClean d later
    inferInstanceAs (Decidable (_ ∧ _ ∧ _))

end

instance (d : Delimiters) (doc : Document) : Decidable (doc.Clean d) := doc.decidableClean d

/-! ### Lines of a document -/

mutual

/-- The lines of a document. -/
def Document.lines : Document → List Row
  | .empty => []
  | .line w rest => w :: rest.lines
  | .block header condition body others footer rest =>
    header.line (Directive.ifBody condition)
      :: (body.lines ++ (others.lines ++ footer.line Directive.endBody :: rest.lines))

/-- The lines of some branches. -/
def Alternatives.lines : Alternatives → List Row
  | .none => []
  | .elseIf margin condition body later =>
    margin.line (Directive.elseIfBody condition) :: (body.lines ++ later.lines)
  | .otherwise margin body later => margin.line Directive.elseBody :: (body.lines ++ later.lines)

end

/-- Rows as the lines of a text. -/
def printLines (d : Delimiters) (lines : List Row) : Text := joinLines (lines.map (Row.print d))

/-- The text of a document. -/
def Document.text (d : Delimiters) (doc : Document) : Text := printLines d doc.lines

/-- The lines of a section, unless all of them are blank. -/
def Row.unlessBlank (lines : List Row) : List Row :=
  if lines.all (·.all Symbol.isBlank) then [] else lines

mutual

/-- The lines that remain of a document: of each block those of the first section that applies. -/
def Document.kept (data : Value) : Document → Except Fault (List Row)
  | .empty => .ok []
  | .line w rest => do return w :: (← rest.kept data)
  | .block _ condition body others _ rest => do
    let holds ← evaluate (some (trim condition)) data
    let shown ← (if holds then body.kept data else others.kept data)
    return Row.unlessBlank shown ++ (← rest.kept data)

/-- The lines of the first of some branches that is an `#else` or whose condition holds. -/
def Alternatives.kept (data : Value) : Alternatives → Except Fault (List Row)
  | .none => .ok []
  | .elseIf _ condition body later => do
    let holds ← evaluate (some (trim condition)) data
    if holds then body.kept data else later.kept data
  | .otherwise _ body _ => body.kept data

end

/-! ### Lines that are kept -/

section kept
variable {d : Delimiters} {data : Value}

theorem mem_of_mem_unlessBlank {w : Row} {lines : List Row} (h : w ∈ Row.unlessBlank lines) :
    w ∈ lines := by
  unfold Row.unlessBlank at h
  split at h
  · simp at h
  · exact h

mutual

/-- The lines that remain are lines of literals and variables. -/
theorem Document.isContentLine_kept : {doc : Document} → doc.Clean d → {lines : List Row} →
    doc.kept data = .ok lines → ∀ w ∈ lines, w.IsContentLine d
  | .empty, _, _, h => by
    rw [← Except.ok.inj h]
    exact List.forall_mem_nil _
  | .line w rest, clean, lines, h => by
    obtain ⟨later, hl, h⟩ := ok_of_bind h
    rw [← Except.ok.inj h]
    exact List.forall_mem_cons.mpr ⟨clean.1, Document.isContentLine_kept clean.2 hl⟩
  | .block header condition body others footer rest, ⟨_, hb, ho, hrest⟩, lines, h => by
    obtain ⟨holds, -, h⟩ := ok_of_bind h
    obtain ⟨shown, hs, h⟩ := ok_of_bind h
    obtain ⟨later, hl, h⟩ := ok_of_bind h
    rw [← Except.ok.inj h]
    refine List.forall_mem_append.mpr ⟨?_, Document.isContentLine_kept hrest hl⟩
    intro w hw
    have hw := mem_of_mem_unlessBlank hw
    cases holds with
    | true => exact Document.isContentLine_kept hb hs w hw
    | false => exact Alternatives.isContentLine_kept ho hs w hw

theorem Alternatives.isContentLine_kept : {others : Alternatives} → others.Clean d →
    {lines : List Row} → others.kept data = .ok lines → ∀ w ∈ lines, w.IsContentLine d
  | .none, _, _, h => by
    rw [← Except.ok.inj h]
    exact List.forall_mem_nil _
  | .elseIf margin condition body later, clean, lines, h => by
    obtain ⟨holds, -, h⟩ := ok_of_bind h
    cases holds with
    | true => exact Document.isContentLine_kept clean.2.1 h
    | false => exact Alternatives.isContentLine_kept clean.2.2 h
  | .otherwise margin body later, clean, lines, h => Document.isContentLine_kept clean.2.1 h

end

end kept

/-! ### Lines of a clean document -/

section lines
variable {d : Delimiters}

theorem oneLine_literal {text : Text} (h : Unbroken text) : ∀ s ∈ Row.literal text, s.OneLine := by
  intro s hs
  obtain ⟨c, hc, rfl⟩ := List.mem_map.mp hs
  exact List.forall_mem_singleton.mpr (h c hc)

/-- The line of a directive is a line. -/
theorem isLine_margin (solid : d.Solid) {m : Margin} (fits : m.Fits) {body : Text} (hne : body ≠ [])
    (clean : d.CleanLine body) : (m.line body).IsLine d := by
  have padding {pad : Text} (h : IsPadding pad) : (Row.literal pad).Clean d :=
    Row.clean_literal.mpr (solid.clean (isBlank_of_isPadding h))
  have oneLine {pad : Text} (h : IsPadding pad) := oneLine_literal (unbroken_of_isPadding h)
  constructor
  · refine Row.clean_append.mpr ⟨padding fits.left, ?_⟩
    exact Row.clean_cons.mpr ⟨⟨fits.level, hne, clean.1⟩, padding fits.right⟩
  · refine List.forall_mem_append.mpr ⟨oneLine fits.left, ?_⟩
    exact List.forall_mem_cons.mpr ⟨clean.2, oneLine fits.right⟩

theorem unbroken_print (solid : d.Solid) {w : Row} (h : w.IsLine d) : Unbroken (w.print d) := by
  refine forall_mem_print (p := fun c => c ≠ '\n' ∧ c ≠ '\r') solid ?_ ?_
  · exact fun c hc => ⟨ne_of_firm hc (by decide), ne_of_firm hc (by decide)⟩
  · intro s hs
    have oneLine := h.oneLine s hs
    cases s with
    | char c => exact oneLine
    | marker level body => exact oneLine

theorem unlessBlank_print (solid : d.Solid) {lines : List Row} (h : ∀ w ∈ lines, w.Clean d) :
    Text.unlessBlank (lines.map (Row.print d)) = (Row.unlessBlank lines).map (Row.print d) := by
  have same : (lines.map (Row.print d)).all isBlank = lines.all (·.all Symbol.isBlank) := by
    rw [List.all_map, Bool.eq_iff_iff, List.all_eq_true, List.all_eq_true]
    refine forall₂_congr fun w hw => ?_
    rw [Function.comp_apply, isBlank_print solid ((h w hw).legible solid.usable)]
  rw [Text.unlessBlank, Row.unlessBlank, same]
  split
  · rfl
  · rfl

theorem cleanLine_ifBody (plain : d.Plain) {condition : Text} (h : d.CleanLine condition) :
    d.CleanLine (Directive.ifBody condition) := by
  have word : Unbroken ['#', 'i', 'f', ' '] := by decide
  exact ⟨plain.ifBody h.1, unbroken_append.mpr ⟨word, h.2⟩⟩

theorem cleanLine_elseIfBody (plain : d.Plain) {condition : Text} (h : d.CleanLine condition) :
    d.CleanLine (Directive.elseIfBody condition) := by
  have word : Unbroken ['#', 'e', 'l', 's', 'e', 'i', 'f', ' '] := by decide
  exact ⟨plain.elseIfBody h.1, unbroken_append.mpr ⟨word, h.2⟩⟩

theorem cleanLine_elseBody (plain : d.Plain) : d.CleanLine Directive.elseBody :=
  ⟨plain.elseBody, by decide⟩

theorem cleanLine_endBody (plain : d.Plain) : d.CleanLine Directive.endBody :=
  ⟨plain.endBody, by decide⟩

mutual

/-- The lines of a clean document are clean. -/
theorem Document.isLine_lines (plain : d.Plain) :
    (doc : Document) → doc.Clean d → ∀ w ∈ doc.lines, w.IsLine d
  | .empty, _ => List.forall_mem_nil _
  | .line w rest, clean =>
    List.forall_mem_cons.mpr ⟨clean.1.toIsLine, Document.isLine_lines plain rest clean.2⟩
  | .block header condition body others footer rest, ⟨⟨fits, hc, fits'⟩, hb, ho, hrest⟩ => by
    have own := isLine_margin plain.toSolid fits (List.cons_ne_nil _ _) (cleanLine_ifBody plain hc)
    have last := isLine_margin plain.toSolid fits' (List.cons_ne_nil _ _) (cleanLine_endBody plain)
    refine List.forall_mem_cons.mpr ⟨own, ?_⟩
    refine List.forall_mem_append.mpr ⟨Document.isLine_lines plain body hb, ?_⟩
    refine List.forall_mem_append.mpr ⟨Alternatives.isLine_lines plain others ho, ?_⟩
    exact List.forall_mem_cons.mpr ⟨last, Document.isLine_lines plain rest hrest⟩

theorem Alternatives.isLine_lines (plain : d.Plain) :
    (others : Alternatives) → others.Clean d → ∀ w ∈ others.lines, w.IsLine d
  | .none, _ => List.forall_mem_nil _
  | .elseIf margin condition body later, ⟨⟨fits, hc⟩, hb, hlater⟩ => by
    have own := isLine_margin plain.toSolid fits (List.cons_ne_nil _ _)
      (cleanLine_elseIfBody plain hc)
    refine List.forall_mem_cons.mpr ⟨own, ?_⟩
    exact List.forall_mem_append.mpr
      ⟨Document.isLine_lines plain body hb, Alternatives.isLine_lines plain later hlater⟩
  | .otherwise margin body later, ⟨fits, hb, hlater⟩ => by
    have own := isLine_margin plain.toSolid fits (List.cons_ne_nil _ _) (cleanLine_elseBody plain)
    refine List.forall_mem_cons.mpr ⟨own, ?_⟩
    exact List.forall_mem_append.mpr
      ⟨Document.isLine_lines plain body hb, Alternatives.isLine_lines plain later hlater⟩

end

end lines

end Stencil
