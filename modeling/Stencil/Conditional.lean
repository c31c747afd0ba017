import Stencil.Condition
import Stencil.Splice

/-! # Resolving conditional blocks

A pass locates the last innermost block of a text, selects one of its sections and splices the
section's content in its place.  `resolve` repeats passes until no block is left.

* `length_pass_le`: every pass shortens the text by at least nine characters, so the passes come to
  an end.
* A run keeps its steps and its outcome, so a fault does not hide what was done before it;
  `runRecords` lists what the passes over all its texts recorded. -/

namespace Stencil

open Text

/-! ### Selecting a section -/

/-- The first section that is an `#else` or whose condition holds. -/
def select (data : Value) : List Section → Except Fault (Option Section)
  | [] => .ok none
  | s :: sections =>
    if s.kind = .otherwise then .ok (some s)
    else do
      if ← evaluate s.condition data then return some s
      else select data sections

/-- The records of the conditions that are evaluated to select a section. -/
def selectionRecords (data : Value) : List Section → List Record
  | [] => []
  | s :: sections =>
    if s.kind = .otherwise then []
    else
      let own := (s.condition.map fun text => (Condition.parse text).records data).getD []
      match evaluate s.condition data with
      | .ok false => own ++ selectionRecords data sections
      | _ => own

theorem mem_of_select {data : Value} {sections : List Section} {s : Section}
    (h : select data sections = .ok (some s)) : s ∈ sections := by
  induction sections with
  | nil => simp [select] at h
  | cons head sections ih =>
    unfold select at h
    split at h
    · cases h
      exact List.mem_cons_self
    · cases he : evaluate head.condition data with
      | error e => simp [he, bind, Except.bind] at h
      | ok holds =>
        cases holds with
        | true =>
          simp only [he, bind, Except.bind, if_true, pure, Except.pure] at h
          cases h
          exact List.mem_cons_self
        | false =>
          simp only [he, bind, Except.bind] at h
          exact List.mem_cons_of_mem head (ih h)

/-! ### Passes -/

/-- One pass: the block it resolved and the section it selected. -/
structure Pass where
  block : Block
  selected : Option Section
deriving Repr

namespace Pass

/-- What takes the place of the block. -/
def content (p : Pass) : Text := (p.selected.map (·.content)).getD []

/-- The text after the pass. -/
def apply (p : Pass) (text : Text) : Text :=
  splice (text.take p.block.start) p.content (text.drop p.block.stop)

end Pass

/-- The pass that a text is due, if it still has a block. -/
def pass? (d : Delimiters) (data : Value) (text : Text) : Option (Except Fault Pass) :=
  (Block.locate? d text).map fun b => (select data (b.sections text)).map fun s => ⟨b, s⟩

/-- The records of the pass that a text is due. -/
def passRecords (d : Delimiters) (data : Value) (text : Text) : List Record :=
  match Block.locate? d text with
  | none => []
  | some b =>
    selectionRecords data (b.sections text)
      ++ match select data (b.sections text) with
        | .error _ => []
        | .ok s => [.selection b.start b.stop s]

/-- A pass shortens the text by nine characters at least: header and footer are gone, and a splice
adds no more than two line feeds. -/
theorem length_pass_le {d : Delimiters} {data : Value} {text : Text} {p : Pass}
    (h : pass? d data text = some (.ok p)) : (p.apply text).length + 9 ≤ text.length := by
  obtain ⟨b, located, hs⟩ := Option.map_eq_some_iff.mp h
  cases hsel : select data (b.sections text) with
  | error e => simp [hsel, Except.map] at hs
  | ok s =>
    simp only [hsel, Except.map, Except.ok.injEq] at hs
    subst hs
    have fits := Block.fits_of_locate? located
    have hc : (Pass.content ⟨b, s⟩).length ≤ b.footer.start - b.header.stop := by
      cases s with
      | none => exact Nat.zero_le _
      | some s =>
        exact Block.length_content_le_of_mem_sections located (mem_of_select hsel)
    have hl := length_splice_le (text.take b.start) (Pass.content ⟨b, s⟩) (text.drop b.stop)
    have h1 := fits.header_wide
    have h2 := fits.branches_between.le
    have h3 := fits.footer_wide
    have h4 := fits.stop_le
    simp only [List.length_take, List.length_drop, Block.start, Block.stop] at hl
    unfold Pass.apply
    dsimp only [Block.start, Block.stop]
    omega

/-! ### Runs -/

/-- A step of a run: a pass and the text after it. -/
structure Step where
  pass : Pass
  text : Text
deriving Repr

/-- What became of a text: the steps taken, and the text that is left. -/
structure Run where
  steps : List Step
  outcome : Except Fault Text

/-- Resolves every block of a text. -/
def run (d : Delimiters) (data : Value) (text : Text) : Run :=
  match _ : pass? d data text with
  | none => ⟨[], .ok text⟩
  | some (.error fault) => ⟨[], .error fault⟩
  | some (.ok p) =>
    let later := run d data (p.apply text)
    ⟨⟨p, p.apply text⟩ :: later.steps, later.outcome⟩
termination_by text.length
decreasing_by
  have := length_pass_le ‹pass? d data text = some (.ok p)›
  omega

/-- The text with every block resolved. -/
def resolveBlocks (d : Delimiters) (data : Value) (text : Text) : Except Fault Text :=
  (run d data text).outcome

/-- The records of a run: those of the pass over each text that it came to. -/
def runRecords (d : Delimiters) (data : Value) (text : Text) : List Record :=
  (text :: (run d data text).steps.map (·.text)).flatMap (passRecords d data)

end Stencil
