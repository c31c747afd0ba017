import Stencil.Marker

/-! # Conditional blocks

A block runs from an `#if` marker to the `/if` marker that closes it.  A block is innermost when no
other `#if` marker stands in between; only such blocks are located, so the branches of a located
block are its own.

* `Block.locate?` is the last innermost block of a text.
* `Block.sections` cuts a block into its sections, one for each clause.
* `Block.fits_of_locate?` says where the parts of a located block lie, and
  `length_content_le_of_mem_sections` bounds what a section holds. -/

namespace Stencil

open Text

/-! ### Blocks -/

/-- An innermost block: its `#if` marker, the `#elseif` and `#else` markers in document order, and
its `/if` marker. -/
structure Block where
  header : Marker
  branches : List Marker
  footer : Marker
deriving DecidableEq, Repr

namespace Block

def start (b : Block) : Nat := b.header.start

def stop (b : Block) : Nat := b.footer.stop

/-- The branches and the footer of a block whose header stands in front of these markers.  There is
no such block when another header comes first, or no footer comes. -/
def closing? : List Marker → Option (List Marker × Marker)
  | [] => none
  | m :: ms =>
    match m.directive? with
    | some .ifHeader => none
    | some .endIf => some ([], m)
    | some .elseIf | some .otherwise => (closing? ms).map fun found => (m :: found.1, found.2)
    | none => closing? ms

/-- The last block of a row of markers. -/
def last? : List Marker → Option Block
  | [] => none
  | m :: ms =>
    match last? ms with
    | some b => some b
    | none =>
      if m.directive? = some .ifHeader then
        (closing? ms).map fun found => ⟨m, found.1, found.2⟩
      else none

/-- The last innermost block of a text. -/
def locate? (d : Delimiters) (text : Text) : Option Block := last? (markers d text)

end Block

/-! ### Sections -/

/-- What opens a section: a clause of a block, or a word that is no clause. -/
inductive SectionKind where
  | ifHeader
  | elseIf
  | otherwise
  | other (word : Text)
deriving DecidableEq, Repr

namespace SectionKind

/-- The word by which reports and records call the kind. -/
def word : SectionKind → Text
  | ifHeader => ['i', 'f']
  | elseIf => ['e', 'l', 's', 'e', 'i', 'f']
  | otherwise => ['e', 'l', 's', 'e']
  | other word => word

/-- The kind that a word calls. -/
def ofWord (word : Text) : SectionKind :=
  if word = SectionKind.ifHeader.word then ifHeader
  else if word = SectionKind.elseIf.word then elseIf
  else if word = SectionKind.otherwise.word then otherwise
  else other word

theorem word_ofWord (text : Text) : (ofWord text).word = text := by
  unfold ofWord
  split
  · exact Eq.symm ‹_›
  · split
    · exact Eq.symm ‹_›
    · split
      · exact Eq.symm ‹_›
      · rfl

end SectionKind

/-- One clause of a block with its content.  An `#else` clause has no condition. -/
structure Section where
  kind : SectionKind
  condition : Option Text
  content : Text
deriving DecidableEq, Repr

/-- The section that a marker opens and that ends at a position. -/
def Section.ofMarker (text : Text) (m : Marker) (stop : Nat) : Section :=
  let content := (text.take stop).drop m.stop
  match m.directive? with
  | some .elseIf => ⟨.elseIf, some m.argument, content⟩
  | some .otherwise => ⟨.otherwise, none, content⟩
  | _ => ⟨.ifHeader, some m.argument, content⟩

namespace Block

/-- The sections that a marker and the branches after it open, the last one ending at `stop`. -/
def sectionsFrom (text : Text) (stop : Nat) : Marker → List Marker → List Section
  | m, [] => [Section.ofMarker text m stop]
  | m, b :: bs => Section.ofMarker text m b.start :: sectionsFrom text stop b bs

/-- The sections of a block, in document order. -/
def sections (text : Text) (b : Block) : List Section :=
  sectionsFrom text b.footer.start b.header b.branches

/-! ### Where the parts of a block lie -/

/-- The parts of a block follow one another within the text, and its two ends are wide enough for
the delimiters and the directives. -/
structure Fits (text : Text) (b : Block) : Prop where
  header_wide : b.header.start + 6 ≤ b.header.stop
  branches_between : Ordered b.footer.start b.header.stop b.branches
  footer_wide : b.footer.start + 5 ≤ b.footer.stop
  stop_le : b.footer.stop ≤ text.length

end Block

theorem length_of_startsWithWord {word body : Text}
    (h : Directive.startsWithWord word body = true) : word.length + 1 ≤ body.length := by
  unfold Directive.startsWithWord at h
  split at h
  · rename_i c rest hb
    have := length_of_after? hb
    simp only [List.length_cons] at this
    omega
  · simp at h

theorem length_body_of_ifHeader {body : Text} (h : Directive.ofBody? body = some .ifHeader) :
    4 ≤ body.length := by
  unfold Directive.ofBody? at h
  split at h
  · simp at h
  · split at h
    · exact length_of_startsWithWord ‹_›
    · dsimp only at h
      split at h
      · simp at h
      · split at h <;> simp at h

theorem length_body_of_endIf {body : Text} (h : Directive.ofBody? body = some .endIf) :
    3 ≤ body.length := by
  unfold Directive.ofBody? at h
  split at h
  · simp at h
  · split at h
    · simp at h
    · dsimp only at h
      split at h
      · simp at h
      · split at h
        · rename_i hw
          have := length_trimEnd_le isBlankChar body
          rw [hw] at this
          exact this
        · simp at h

namespace Block

theorem ordered_of_closing? {stop position : Nat} {ms branches : List Marker} {footer : Marker}
    (ordered : Ordered stop position ms) (h : closing? ms = some (branches, footer)) :
    Ordered footer.start position branches ∧ footer.start + footer.body.length + 2 ≤ footer.stop
      ∧ footer.stop ≤ stop ∧ footer.directive? = some .endIf := by
  induction ordered generalizing branches with
  | nil => simp [closing?] at h
  | @cons position m ms h1 h2 later ih =>
    have branch (hm : (closing? ms).map (fun found => (m :: found.1, found.2))
        = some (branches, footer)) :
        Ordered footer.start position branches
          ∧ footer.start + footer.body.length + 2 ≤ footer.stop
          ∧ footer.stop ≤ stop ∧ footer.directive? = some .endIf := by
      obtain ⟨⟨bs, f⟩, hf, hp⟩ := Option.map_eq_some_iff.mp hm
      obtain ⟨rfl, rfl⟩ := Prod.mk.injEq .. ▸ hp
      exact ⟨.cons h1 h2 (ih hf).1, (ih hf).2⟩
    simp only [closing?] at h
    split at h
    · simp at h
    · obtain ⟨rfl, rfl⟩ := Prod.mk.injEq .. ▸ Option.some.inj h
      exact ⟨.nil h1, h2, later.le, ‹_›⟩
    · exact branch h
    · exact branch h
    · refine ⟨?_, (ih h).2⟩
      cases (ih h).1 with
      | nil hle => exact .nil (by omega)
      | cons g1 g2 g => exact .cons (by omega) g2 g

theorem fits_of_last? {text : Text} {position : Nat} {ms : List Marker} {b : Block}
    (ordered : Ordered text.length position ms) (h : last? ms = some b) : b.Fits text := by
  induction ordered with
  | nil => simp [last?] at h
  | @cons position m ms h1 h2 later ih =>
    simp only [last?] at h
    split at h
    · exact ih (by simpa using ‹last? ms = some _›.trans h)
    · split at h
      · rename_i header
        obtain ⟨⟨bs, f⟩, hf, rfl⟩ := Option.map_eq_some_iff.mp h
        obtain ⟨hb, hfoot, hstop, hdir⟩ := ordered_of_closing? later hf
        have hm := length_body_of_ifHeader header
        have hl := length_body_of_endIf hdir
        exact ⟨by simp only; omega, hb, by simp only; omega, hstop⟩
      · simp at h

theorem fits_of_locate? {d : Delimiters} {text : Text} {b : Block}
    (h : locate? d text = some b) : b.Fits text :=
  fits_of_last? (ordered_markers d text) h

theorem content_ofMarker (text : Text) (m : Marker) (stop : Nat) :
    (Section.ofMarker text m stop).content = (text.take stop).drop m.stop := by
  unfold Section.ofMarker
  dsimp only
  split <;> rfl

theorem length_content_le_of_mem_sectionsFrom {text : Text} {stop : Nat} {m : Marker}
    {branches : List Marker} (ordered : Ordered stop m.stop branches) {s : Section}
    (h : s ∈ sectionsFrom text stop m branches) : s.content.length ≤ stop - m.stop := by
  induction branches generalizing m with
  | nil =>
    rw [sectionsFrom, List.mem_singleton] at h
    rw [h, content_ofMarker, List.length_drop, List.length_take]
    omega
  | cons b bs ih =>
    cases ordered with
    | cons h1 h2 later =>
      have := later.le
      rcases List.mem_cons.mp h with rfl | h
      · rw [content_ofMarker, List.length_drop, List.length_take]
        omega
      · have := ih later h
        omega

/-- A section of a located block holds no more than what lies between header and footer. -/
theorem length_content_le_of_mem_sections {d : Delimiters} {text : Text} {b : Block}
    (located : locate? d text = some b) {s : Section} (h : s ∈ b.sections text) :
    s.content.length ≤ b.footer.start - b.header.stop :=
  length_content_le_of_mem_sectionsFrom (fits_of_locate? located).branches_between h

end Block
end Stencil
