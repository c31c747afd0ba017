import Stencil.Proofs.Row.Basic

/-! # Scanning undoes printing

Literal texts and markers with their levels are printed one behind the other.  If none of the literal
texts and bodies shares a character with the delimiters, the scan gives them all back, although closing
and opening runs of different lengths may touch and the delimiters may overlap themselves.

* `dissect_source`: the printed text is cut into the pieces that were printed.
* `markers_source`: so its markers have the printed bodies, in order and where they were printed. -/

namespace Stencil

open Text

/-- Pieces that are printed with at least one copy of each delimiter around a body that is not empty,
where no body and no literal text shares a character with the delimiters. -/
structure Dissection.Clean (d : Delimiters) (t : Dissection) : Prop where
  levels : ∀ p ∈ t.pieces, 1 ≤ p.level
  gaps : ∀ p ∈ t.pieces, d.Clean p.gap
  bodies : ∀ p ∈ t.pieces, p.body ≠ [] ∧ d.Clean p.body
  tail : d.Clean t.tail

/-! ### Pieces of a printed text -/

theorem dissection_literal (tail : Text) : (Row.literal tail).dissection = ⟨[], tail⟩ := by
  induction tail with
  | nil => rfl
  | cons c tail ih =>
    show (Row.literal tail).dissection.push c = _
    rw [ih]
    rfl

theorem dissection_append_marker (gap : Text) (level : Nat) (body : Text) (w : Row) :
    (Row.literal gap ++ .marker level body :: w).dissection
      = ⟨⟨gap, level, body⟩ :: w.dissection.pieces, w.dissection.tail⟩ := by
  induction gap with
  | nil => rfl
  | cons c gap ih =>
    show (Row.literal gap ++ .marker level body :: w).dissection.push c = _
    rw [ih]
    rfl

/-- A row that is put together from pieces is cut into these pieces. -/
theorem dissection_row (t : Dissection) : t.row.dissection = t := by
  obtain ⟨pieces, tail⟩ := t
  induction pieces with
  | nil => exact dissection_literal tail
  | cons p pieces ih =>
    have split : Dissection.row ⟨p :: pieces, tail⟩
        = Row.literal p.gap ++ .marker p.level p.body :: Dissection.row ⟨pieces, tail⟩ := by
      simp [Dissection.row]
    rw [split, dissection_append_marker, ih]

theorem Dissection.Clean.row {d : Delimiters} {t : Dissection} (clean : t.Clean d) :
    t.row.Clean d := by
  have char {text : Text} (h : d.Clean text) : ∀ c ∈ text, (Symbol.char c).Clean d := by
    intro c hc x hx
    rw [List.mem_singleton.mp hx]
    exact h c hc
  refine forall_mem_row.mpr ⟨fun p hp => ⟨char (clean.gaps p hp), ?_⟩, char clean.tail⟩
  exact ⟨clean.levels p hp, clean.bodies p hp⟩

/-- The text of clean pieces is cut into these pieces. -/
theorem dissect_source {d : Delimiters} (usable : d.usable = true) {t : Dissection}
    (clean : t.Clean d) : dissect d (t.source d) = t := by
  rw [← print_row, dissect_print usable (clean.row.legible usable), dissection_row]

/-! ### Markers of a printed text -/

theorem length_markersOf (d : Delimiters) (position : Nat) (pieces : List Piece) :
    (markersOf d position pieces).length = pieces.length := by
  induction pieces generalizing position with
  | nil => rfl
  | cons p pieces ih => exact congrArg (· + 1) (ih _)

/-- The marker of a piece lies behind all that is printed in front of it. -/
theorem getElem?_markersOf (d : Delimiters) (position : Nat) (front : List Piece) (p : Piece)
    (back : List Piece) :
    let start := position + (front.flatMap (Piece.source d) ++ p.gap).length
    (markersOf d position (front ++ p :: back))[front.length]?
      = some ⟨p.body, start, start + (p.marker d).length⟩ := by
  induction front generalizing position with
  | nil => rfl
  | cons q front ih =>
    have later := ih (position + q.gap.length + (q.marker d).length)
    simp only [List.flatMap_cons, List.length_append, Piece.source] at later ⊢
    simpa only [List.cons_append, markersOf, List.length_cons, List.getElem?_cons_succ,
      Nat.add_assoc] using later

/-- **Scanning undoes printing**: a text of clean pieces has one marker for each of them, with its body
and at the place where it was printed. -/
theorem markers_source {d : Delimiters} (usable : d.usable = true) {t : Dissection}
    (clean : t.Clean d) :
    (markers d (t.source d)).length = t.pieces.length
      ∧ ∀ front p back, t.pieces = front ++ p :: back →
        (markers d (t.source d))[front.length]? = some ⟨p.body,
          (front.flatMap (Piece.source d) ++ p.gap).length,
          (front.flatMap (Piece.source d) ++ p.gap ++ p.marker d).length⟩ := by
  have read : markers d (t.source d) = markersOf d 0 t.pieces := by
    rw [markers, markersFrom, List.drop_zero, dissect_source usable clean]
  rw [read]
  refine ⟨length_markersOf d 0 t.pieces, ?_⟩
  intro front p back split
  have stop : (front.flatMap (Piece.source d) ++ p.gap ++ p.marker d).length
      = (front.flatMap (Piece.source d) ++ p.gap).length + (p.marker d).length :=
    List.length_append
  rw [split, stop]
  simpa only [Nat.zero_add] using getElem?_markersOf d 0 front p back

/-- Equal delimiters that overlap themselves, and markers of different levels without a gap. -/
theorem markers_source_touching :
    let d : Delimiters := ⟨['%', '.', '%'], ['%', '.', '%']⟩
    let t : Dissection := ⟨[⟨"x".toList, 2, "name".toList⟩, ⟨[], 1, "#if a".toList⟩,
      ⟨[], 3, " ".toList⟩], "y\n".toList⟩
    d.usable = true ∧ t.Clean d
      ∧ (markers d (t.source d))[1]? = some ⟨"#if a".toList, 17, 28⟩ := by
  intro d t
  have usable : d.usable = true := by decide
  have clean : t.Clean d := ⟨by decide, by decide, by decide, by decide⟩
  exact ⟨usable, clean, (markers_source usable clean).2 [⟨"x".toList, 2, "name".toList⟩] _ _ rfl⟩

end Stencil
