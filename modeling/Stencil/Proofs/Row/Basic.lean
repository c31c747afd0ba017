import Stencil.Proofs.Search

/-! # Rows of symbols

A template that is written down on purpose is a row of symbols: literal characters, and markers with
the number of copies of their delimiters.  `Row.print` writes a row with a pair of delimiters.

A row is clean for a pair of delimiters when no literal character and no character of a body belongs
to either of them.  It is legible already when no literal character starts the opening delimiter, no
opening run goes on into a body, and every body ends where its closing run begins.  Reading a legible
row gives back exactly what was written:

* `dissect_print`: the pieces of a printed row are its markers with the literals between them;
* `markers_print`: so are its markers, each at the place where it was printed;
* `print_injective`: so no two rows are printed alike. -/

namespace Stencil

open Text

/-! ### Symbols -/

/-- A literal character or a marker. -/
inductive Symbol where
  | char (c : Char)
  /-- A marker with its body between so many copies of each delimiter. -/
  | marker (level : Nat) (body : Text)
deriving DecidableEq, Repr

/-- No character of a text belongs to the delimiters. -/
def Delimiters.Clean (d : Delimiters) (text : Text) : Prop :=
  ∀ c ∈ text, c ∉ d.opening ∧ c ∉ d.closing

instance (d : Delimiters) (text : Text) : Decidable (d.Clean text) :=
  List.decidableBAll (fun c => c ∉ d.opening ∧ c ∉ d.closing) text

namespace Symbol

def print (d : Delimiters) : Symbol → Text
  | char c => [c]
  | marker level body => copies d.opening level ++ body ++ copies d.closing level

/-- The body of a marker; a character has none. -/
def body : Symbol → Text
  | char _ => []
  | marker _ body => body

/-- The text of a symbol without its delimiters. -/
def text : Symbol → Text
  | char c => [c]
  | marker _ body => body

/-- The directive that a symbol writes, if it is a marker that writes one. -/
def directive? : Symbol → Option Directive
  | char _ => none
  | marker _ body => Directive.ofBody? body

/-- A character or a marker that shares no character with the delimiters. -/
def Clean (d : Delimiters) : Symbol → Prop
  | char c => d.Clean [c]
  | marker level body => 1 ≤ level ∧ body ≠ [] ∧ d.Clean body

instance (d : Delimiters) : (s : Symbol) → Decidable (s.Clean d)
  | char c => inferInstanceAs (Decidable (d.Clean [c]))
  | marker level body => inferInstanceAs (Decidable (1 ≤ level ∧ body ≠ [] ∧ d.Clean body))

/-- A symbol that is read back as it was printed whatever legible symbols stand around it: a character
that starts no opening delimiter, or a marker whose opening run stops at its body and whose closing
run is the first one behind that. -/
def Legible (d : Delimiters) : Symbol → Prop
  | char c => d.opening.head? ≠ some c
  | marker level body =>
    1 ≤ level ∧ Diverge d.opening (body ++ copies d.closing level)
      ∧ cut? (copies d.closing level) (body ++ copies d.closing level) = some (body, [])

/-- The marker that a symbol is read as where it is printed at a position. -/
def markerAt (d : Delimiters) (position : Nat) (s : Symbol) : Marker :=
  ⟨s.body, position, position + (s.print d).length⟩

end Symbol

/-! ### Rows -/

/-- A template as a row of symbols. -/
abbrev Row := List Symbol

namespace Row

/-- The text of a row. -/
def print (d : Delimiters) (w : Row) : Text := w.flatMap (Symbol.print d)

/-- A row of clean symbols. -/
def Clean (d : Delimiters) (w : Row) : Prop := ∀ s ∈ w, s.Clean d

instance (d : Delimiters) (w : Row) : Decidable (w.Clean d) :=
  List.decidableBAll (Symbol.Clean d) w

/-- A row of legible symbols. -/
def Legible (d : Delimiters) (w : Row) : Prop := ∀ s ∈ w, s.Legible d

/-- A text as a row of literal characters. -/
def literal (text : Text) : Row := text.map .char

@[simp] theorem print_nil (d : Delimiters) : print d [] = [] := rfl

@[simp] theorem print_cons (d : Delimiters) (s : Symbol) (w : Row) :
    print d (s :: w) = s.print d ++ print d w := rfl

@[simp] theorem print_append (d : Delimiters) (u w : Row) :
    print d (u ++ w) = print d u ++ print d w := List.flatMap_append

@[simp] theorem print_literal (d : Delimiters) (text : Text) : print d (literal text) = text := by
  induction text with
  | nil => rfl
  | cons c text ih => exact congrArg (c :: ·) ih

theorem clean_cons {d : Delimiters} {s : Symbol} {w : Row} :
    Clean d (s :: w) ↔ s.Clean d ∧ Clean d w := List.forall_mem_cons

theorem clean_append {d : Delimiters} {u w : Row} :
    Clean d (u ++ w) ↔ Clean d u ∧ Clean d w := List.forall_mem_append

theorem clean_literal {d : Delimiters} {text : Text} : Clean d (literal text) ↔ d.Clean text := by
  constructor
  · intro h c hc
    exact h (.char c) (List.mem_map_of_mem hc) c List.mem_cons_self
  · intro h s hs
    obtain ⟨c, hc, rfl⟩ := List.mem_map.mp hs
    intro x hx
    rw [List.mem_singleton.mp hx]
    exact h c hc

theorem legible_cons {d : Delimiters} {s : Symbol} {w : Row} :
    Legible d (s :: w) ↔ s.Legible d ∧ Legible d w := List.forall_mem_cons

theorem legible_append {d : Delimiters} {u w : Row} :
    Legible d (u ++ w) ↔ Legible d u ∧ Legible d w := List.forall_mem_append

end Row

theorem Symbol.Clean.legible {d : Delimiters} (usable : d.usable = true) {s : Symbol}
    (clean : s.Clean d) : s.Legible d := by
  cases s with
  | char c => exact head?_ne_of_notMem (clean c List.mem_cons_self).1
  | marker level body =>
    obtain ⟨hl, hb, hc⟩ := clean
    refine ⟨hl, ?_, ?_⟩
    · obtain ⟨b, body, rfl⟩ := List.exists_cons_of_ne_nil hb
      exact diverge_cons (Delimiters.usable_iff.mp usable).1 (hc b List.mem_cons_self).1 _
    · have closed := cut?_append (copies_ne_nil (Delimiters.usable_iff.mp usable).2 hl) body []
        fun c hm h => (hc c hm).2 (mem_of_mem_copies h)
      rwa [List.append_nil] at closed

theorem Row.Clean.legible {d : Delimiters} (usable : d.usable = true) {w : Row}
    (clean : w.Clean d) : w.Legible d := fun s hs => (clean s hs).legible usable

/-! ### Pieces of a printed row -/

/-- Puts a character in front of a dissected text. -/
def Dissection.push (c : Char) : Dissection → Dissection
  | ⟨[], tail⟩ => ⟨[], c :: tail⟩
  | ⟨p :: pieces, tail⟩ => ⟨{ p with gap := c :: p.gap } :: pieces, tail⟩

/-- A row cut at its markers. -/
def Row.dissection : Row → Dissection
  | [] => ⟨[], []⟩
  | .char c :: w => (dissection w).push c
  | .marker level body :: w => ⟨⟨[], level, body⟩ :: (dissection w).pieces, (dissection w).tail⟩

section dissect
variable {d : Delimiters}

theorem dissect_cons (usable : d.usable = true) {c : Char} (hc : d.opening.head? ≠ some c)
    (text : Text) :
    dissect d (c :: text) = (dissect d text).push c := by
  have step := firstPiece?_cons usable hc text
  cases h : firstPiece? d text with
  | none =>
    rw [h] at step
    rw [dissect_of_none h, dissect_of_none step]
    rfl
  | some found =>
    obtain ⟨p, rest⟩ := found
    rw [h] at step
    rw [dissect_of_some h, dissect_of_some step]
    rfl

/-- A legible row is cut where its markers were printed. -/
theorem dissect_print (usable : d.usable = true) {w : Row} (legible : w.Legible d) :
    dissect d (w.print d) = w.dissection := by
  induction w with
  | nil => exact dissect_of_none (firstPiece?_nil usable)
  | cons s w ih =>
    obtain ⟨hs, hw⟩ := Row.legible_cons.mp legible
    cases s with
    | char c =>
      rw [Row.dissection, ← ih hw]
      exact dissect_cons usable hs _
    | marker level body =>
      obtain ⟨hl, opens, closes⟩ := hs
      rw [Row.dissection, ← ih hw]
      exact dissect_of_some (firstPiece?_marker usable hl opens closes _)

end dissect

/-! ### The row of a text -/

/-- The row that a dissected text consists of. -/
def Dissection.row (t : Dissection) : Row :=
  t.pieces.flatMap (fun p => Row.literal p.gap ++ [.marker p.level p.body]) ++ Row.literal t.tail

theorem print_row (d : Delimiters) (t : Dissection) : t.row.print d = t.source d := by
  obtain ⟨pieces, tail⟩ := t
  induction pieces with
  | nil => exact Row.print_literal d tail
  | cons p pieces ih =>
    simp only [Dissection.row, Dissection.source, Row.print_append, Row.print_literal,
      List.flatMap_cons, List.append_assoc] at ih ⊢
    rw [ih]
    simp [Piece.source, Piece.marker, Symbol.print]

theorem forall_mem_row {P : Symbol → Prop} {t : Dissection} : (∀ s ∈ t.row, P s) ↔
    (∀ p ∈ t.pieces, (∀ c ∈ p.gap, P (.char c)) ∧ P (.marker p.level p.body))
      ∧ ∀ c ∈ t.tail, P (.char c) := by
  simp only [Dissection.row, Row.literal, List.forall_mem_append, List.forall_mem_flatMap,
    List.forall_mem_map, List.forall_mem_singleton]

theorem row_push (c : Char) (t : Dissection) : (t.push c).row = .char c :: t.row := by
  obtain ⟨pieces, tail⟩ := t
  cases pieces <;> rfl

theorem row_dissection (w : Row) : w.dissection.row = w := by
  induction w with
  | nil => rfl
  | cons s w ih =>
    cases s with
    | char c => rw [Row.dissection, row_push, ih]
    | marker level body => exact congrArg (Symbol.marker level body :: ·) ih

/-- A legible row is known by what is printed. -/
theorem print_injective {d : Delimiters} (usable : d.usable = true) {u w : Row}
    (hu : u.Legible d) (hw : w.Legible d) (h : u.print d = w.print d) : u = w := by
  rw [← row_dissection u, ← row_dissection w, ← dissect_print usable hu, ← dissect_print usable hw, h]

/-! ### Markers of a printed row -/

/-- The markers of a row that is printed from a position on. -/
def Row.markers (d : Delimiters) : (position : Nat) → Row → List Marker
  | _, [] => []
  | position, .char _ :: w => markers d (position + 1) w
  | position, .marker level body :: w =>
    (Symbol.marker level body).markerAt d position
      :: markers d (position + ((Symbol.marker level body).print d).length) w

/-- A marker of a row is printed somewhere. -/
theorem exists_mem_markers (d : Delimiters) {level : Nat} {body : Text} {w : Row}
    (h : .marker level body ∈ w) (position : Nat) : ∃ m ∈ w.markers d position, m.body = body := by
  induction w generalizing position with
  | nil => simp at h
  | cons s w ih =>
    rcases List.mem_cons.mp h with rfl | later
    · exact ⟨_, List.mem_cons_self, rfl⟩
    · cases s with
      | char c => exact ih later (position + 1)
      | marker level' body' =>
        obtain ⟨m, hm, e⟩ := ih later (position + ((Symbol.marker level' body').print d).length)
        exact ⟨m, List.mem_cons_of_mem _ hm, e⟩

theorem markersOf_push (d : Delimiters) (c : Char) (position : Nat) (t : Dissection) :
    markersOf d position (t.push c).pieces = markersOf d (position + 1) t.pieces := by
  obtain ⟨pieces, tail⟩ := t
  cases pieces with
  | nil => rfl
  | cons p pieces =>
    have e : position + (p.gap.length + 1) = position + 1 + p.gap.length := by omega
    simp only [Dissection.push, markersOf, List.length_cons, e]
    rfl

theorem markersOf_dissection (d : Delimiters) (w : Row) (position : Nat) :
    markersOf d position w.dissection.pieces = w.markers d position := by
  induction w generalizing position with
  | nil => rfl
  | cons s w ih =>
    cases s with
    | char c => rw [Row.dissection, markersOf_push, ih, Row.markers]
    | marker level body =>
      rw [Row.dissection, markersOf, ih, Row.markers]
      rfl

/-- The markers of a printed row are those that were printed, where they were printed. -/
theorem markers_print {d : Delimiters} (usable : d.usable = true) {w : Row}
    (legible : w.Legible d) : markers d (w.print d) = w.markers d 0 := by
  rw [markers, markersFrom, List.drop_zero, dissect_print usable legible, markersOf_dissection]

end Stencil
