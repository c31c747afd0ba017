import Stencil.Delimiters
import Stencil.Text.Blank

/-! # Markers

A marker is a stretch of text between delimiters.  Its opening delimiter may be repeated; the
closing delimiter is then repeated as often.  An opening run for which no closing run follows is
literal text.

* `dissect` cuts a text into pieces, each a marker with the literal text in front of it, and the
  literal text behind the last marker.  `source_dissect`: the parts make up the text.
* `markers` lists the markers with their positions; `ordered_markersFrom` says that they follow one
  another without overlap and lie within the text.
* `Directive.ofBody?` reads the directive that a marker's body writes. -/

namespace Stencil

open Text

/-! ### Directives -/

/-- The words that give a conditional block its shape. -/
inductive Directive where
  | ifHeader
  | elseIf
  | otherwise
  | endIf
deriving DecidableEq, Repr

namespace Directive

/-- Whether a body starts with a word and a blank after it. -/
def startsWithWord (word body : Text) : Bool :=
  match after? word body with
  | some (c :: _) => isBlankChar c
  | _ => false

/-- The directive that a body writes.  The two that carry a condition need a blank after their
word; the two that do not may have blanks after theirs. -/
def ofBody? (body : Text) : Option Directive :=
  if startsWithWord ['#', 'e', 'l', 's', 'e', 'i', 'f'] body then some elseIf
  else if startsWithWord ['#', 'i', 'f'] body then some ifHeader
  else
    let word := trimEnd isBlankChar body
    if word = ['#', 'e', 'l', 's', 'e'] then some otherwise
    else if word = ['/', 'i', 'f'] then some endIf
    else none

end Directive

/-- What follows the first word of a body. -/
def argumentOf (body : Text) : Text := trim (cutWord body).2

/-- A body names a variable unless it is empty or begins like a directive. -/
def isVariableBody : Text → Bool
  | [] => false
  | c :: _ => c != '#' && c != '/'

/-! ### Pieces -/

/-- A marker, with the literal text between the marker before it and itself. -/
structure Piece where
  gap : Text
  /-- How often each delimiter is repeated. -/
  level : Nat
  body : Text
deriving DecidableEq, Repr

namespace Piece

/-- The text of the marker itself. -/
def marker (d : Delimiters) (p : Piece) : Text :=
  copies d.opening p.level ++ p.body ++ copies d.closing p.level

/-- The text of the gap and the marker. -/
def source (d : Delimiters) (p : Piece) : Text := p.gap ++ p.marker d

end Piece

/-- The first piece of a text and what follows it, if the text holds a marker. -/
def firstPiece? (d : Delimiters) (text : Text) : Option (Piece × Text) :=
  if _ : d.usable = true then
    match _ : cut? d.opening text with
    | none => none
    | some (gap, inner) =>
      let level := (leadingCopies d.opening inner).1 + 1
      let behind := (leadingCopies d.opening inner).2
      match cut? (copies d.closing level) behind with
      | some (body, rest) => some (⟨gap, level, body⟩, rest)
      | none =>
        (firstPiece? d behind).map fun found =>
          ({ found.1 with gap := gap ++ copies d.opening level ++ found.1.gap }, found.2)
  else none
termination_by text.length
decreasing_by
  have := length_of_cut? ‹cut? d.opening text = some (gap, inner)›
  have := length_leadingCopies d.opening inner
  have := (Delimiters.length_pos_of_usable ‹_›).1
  omega

theorem eq_of_firstPiece? {d : Delimiters} {text rest : Text} {p : Piece}
    (h : firstPiece? d text = some (p, rest)) :
    d.usable = true ∧ text = p.source d ++ rest ∧ 1 ≤ p.level := by
  fun_induction firstPiece? d text generalizing p rest with
  | case1 => simp at h
  | case2 text usable gap inner opened level behind body =>
    rename_i rest' closed
    obtain ⟨rfl, rfl⟩ := Prod.mk.injEq .. ▸ Option.some.inj h
    refine ⟨usable, ?_, Nat.le_add_left 1 _⟩
    have h1 := eq_of_cut? opened
    have h2 := eq_of_leadingCopies d.opening inner
    have h3 := eq_of_cut? closed
    rw [h1, h2, show (leadingCopies d.opening inner).2 = behind from rfl, h3]
    simp [Piece.source, Piece.marker, level, copies_succ]
  | case3 text usable gap inner opened level behind =>
    rename_i ih
    obtain ⟨⟨q, r⟩, hq, hp⟩ := Option.map_eq_some_iff.mp h
    obtain ⟨rfl, rfl⟩ := Prod.mk.injEq .. ▸ hp
    obtain ⟨-, ht, hl⟩ := ih hq
    refine ⟨usable, ?_, hl⟩
    have h1 := eq_of_cut? opened
    have h2 := eq_of_leadingCopies d.opening inner
    rw [h1, h2, show (leadingCopies d.opening inner).2 = behind from rfl, ht]
    simp [Piece.source, Piece.marker, level, copies_succ]
  | case4 => simp at h

theorem length_of_firstPiece? {d : Delimiters} {text rest : Text} {p : Piece}
    (h : firstPiece? d text = some (p, rest)) : rest.length < text.length := by
  obtain ⟨usable, ht, hl⟩ := eq_of_firstPiece? h
  have hlen := congrArg List.length ht
  have hpos := (Delimiters.length_pos_of_usable usable).1
  have := Nat.le_mul_of_pos_left d.opening.length (show 0 < p.level by omega)
  simp [Piece.source, Piece.marker] at hlen
  omega

/-- A text cut into pieces, and the literal text behind the last of them. -/
structure Dissection where
  pieces : List Piece
  tail : Text
deriving DecidableEq, Repr

/-- The text that was cut. -/
def Dissection.source (d : Delimiters) (t : Dissection) : Text :=
  t.pieces.flatMap (Piece.source d) ++ t.tail

/-- Cuts a text at its markers. -/
def dissect (d : Delimiters) (text : Text) : Dissection :=
  match _ : firstPiece? d text with
  | none => ⟨[], text⟩
  | some (piece, rest) =>
    let later := dissect d rest
    ⟨piece :: later.pieces, later.tail⟩
termination_by text.length
decreasing_by exact length_of_firstPiece? ‹firstPiece? d text = some (piece, rest)›

theorem source_dissect (d : Delimiters) (text : Text) : (dissect d text).source d = text := by
  fun_induction dissect d text with
  | case1 => rfl
  | case2 text piece rest found later ih =>
    rw [(eq_of_firstPiece? found).2.1]
    simpa [Dissection.source] using ih

/-! ### Positions -/

/-- A marker of a text: its body, and the positions where it starts and where it has ended. -/
structure Marker where
  body : Text
  start : Nat
  stop : Nat
deriving DecidableEq, Repr

namespace Marker

/-- The directive that the marker writes. -/
def directive? (m : Marker) : Option Directive := Directive.ofBody? m.body

/-- The condition that an `#if` or `#elseif` marker carries. -/
def argument (m : Marker) : Text := argumentOf m.body

/-- Whether the marker names a variable. -/
def isVariable (m : Marker) : Bool := isVariableBody m.body

end Marker

/-- The markers of a row of pieces that starts at a position. -/
def markersOf (d : Delimiters) : (position : Nat) → List Piece → List Marker
  | _, [] => []
  | position, p :: pieces =>
    let start := position + p.gap.length
    let stop := start + (p.marker d).length
    ⟨p.body, start, stop⟩ :: markersOf d stop pieces

/-- The markers of a text from a position on, left to right. -/
def markersFrom (d : Delimiters) (text : Text) (position : Nat) : List Marker :=
  markersOf d position (dissect d (text.drop position)).pieces

/-- The markers of a text, left to right. -/
def markers (d : Delimiters) (text : Text) : List Marker := markersFrom d text 0

/-- Markers that follow one another from a position on and end before another, each with room for
its body and one delimiter on each side. -/
inductive Ordered (stop : Nat) : (position : Nat) → List Marker → Prop where
  | nil {position} : position ≤ stop → Ordered stop position []
  | cons {position m ms} : position ≤ m.start → m.start + m.body.length + 2 ≤ m.stop →
      Ordered stop m.stop ms → Ordered stop position (m :: ms)

theorem Ordered.le {stop position : Nat} {ms : List Marker} (h : Ordered stop position ms) :
    position ≤ stop := by
  induction h with
  | nil h => exact h
  | cons h1 h2 _ ih => omega

theorem ordered_markersOf {d : Delimiters} (usable : d.usable = true) (tail position : Nat)
    (pieces : List Piece) (levels : ∀ p ∈ pieces, 1 ≤ p.level) :
    Ordered (position + (pieces.flatMap (Piece.source d)).length + tail) position
      (markersOf d position pieces) := by
  induction pieces generalizing position with
  | nil => exact .nil (by simp)
  | cons p pieces ih =>
    have hl := levels p List.mem_cons_self
    obtain ⟨ho, hc⟩ := Delimiters.length_pos_of_usable usable
    have ho := Nat.mul_le_mul hl ho
    have hc := Nat.mul_le_mul hl hc
    refine .cons (Nat.le_add_right ..) ?_ ?_
    · simp only [Piece.marker, List.length_append, length_copies]
      omega
    · have := ih (position + p.gap.length + (p.marker d).length)
        fun q hq => levels q (List.mem_cons_of_mem p hq)
      simpa [Piece.source, Nat.add_assoc] using this

/-- Every piece of a text was once the first piece of what was left of it. -/
theorem exists_firstPiece? {d : Delimiters} {text : Text} {p : Piece}
    (h : p ∈ (dissect d text).pieces) : ∃ left rest, firstPiece? d left = some (p, rest) := by
  fun_induction dissect d text with
  | case1 => simp at h
  | case2 text piece rest found later ih =>
    rcases List.mem_cons.mp h with rfl | h
    · exact ⟨text, rest, found⟩
    · exact ih h

theorem level_pos_of_mem_dissect {d : Delimiters} {text : Text} {p : Piece}
    (h : p ∈ (dissect d text).pieces) : d.usable = true ∧ 1 ≤ p.level := by
  obtain ⟨left, rest, found⟩ := exists_firstPiece? h
  exact ⟨(eq_of_firstPiece? found).1, (eq_of_firstPiece? found).2.2⟩

/-- The markers of a text follow one another without overlap and end within the text. -/
theorem ordered_markers (d : Delimiters) (text : Text) :
    Ordered text.length 0 (markers d text) := by
  rw [markers, markersFrom, List.drop_zero]
  cases usable : d.usable with
  | false =>
    have : (dissect d text).pieces = [] := by
      rw [List.eq_nil_iff_forall_not_mem]
      intro p hp
      have := (level_pos_of_mem_dissect hp).1
      simp [usable] at this
    rw [this]
    exact .nil (Nat.zero_le _)
  | true =>
    have h := ordered_markersOf usable (dissect d text).tail.length 0 (dissect d text).pieces
      fun p hp => (level_pos_of_mem_dissect hp).2
    have hs := congrArg List.length (source_dissect d text)
    rw [Dissection.source, List.length_append] at hs
    rwa [Nat.zero_add, hs] at h

end Stencil
