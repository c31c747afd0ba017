import Stencil.Proofs.Row.Run

/-! # One header less

A pass takes a header away, but the text that it leaves is read anew, and where its parts meet, runs
of delimiters may join that were none before.  So the number of headers may stay as it is.  It drops by
one at every pass over a tidy text, where no literal text starts an opening delimiter.

* `legible_row_iff`: a text is the print of a legible row exactly if it is tidy.
* `headers_apply_of_tidy`: a pass over a tidy text leaves a tidy text with one header less.
* `not_forall_headers_apply_lt`: of other texts this does not hold. -/

namespace Stencil

open Text

/-! ### Tidy texts -/

/-- No character of a text starts an opening delimiter. -/
def Delimiters.OpensNowhere (d : Delimiters) (text : Text) : Prop :=
  ∀ c ∈ text, d.opening.head? ≠ some c

instance (d : Delimiters) (text : Text) : Decidable (d.OpensNowhere text) :=
  List.decidableBAll (fun c => d.opening.head? ≠ some c) text

/-- Nothing but the markers of a text can be taken for a marker: no character of the literal text
starts an opening delimiter, and no body and closing run are themselves the beginning of one. -/
structure Dissection.Tidy (d : Delimiters) (t : Dissection) : Prop where
  gaps : ∀ p ∈ t.pieces, d.OpensNowhere p.gap
  bodies : ∀ p ∈ t.pieces, ¬ (p.body ++ copies d.closing p.level) <+: d.opening
  tail : d.OpensNowhere t.tail

instance (d : Delimiters) (t : Dissection) : Decidable (t.Tidy d) :=
  decidable_of_iff ((∀ p ∈ t.pieces, d.OpensNowhere p.gap)
      ∧ (∀ p ∈ t.pieces, ¬ (p.body ++ copies d.closing p.level) <+: d.opening)
      ∧ d.OpensNowhere t.tail)
    ⟨fun ⟨gaps, bodies, tail⟩ => ⟨gaps, bodies, tail⟩, fun h => ⟨h.gaps, h.bodies, h.tail⟩⟩

/-- The body of a first piece does not go on with an opening delimiter, and ends at the first closing
run behind it. -/
theorem stops_of_firstPiece? {d : Delimiters} {text rest : Text} {p : Piece}
    (h : firstPiece? d text = some (p, rest)) :
    ¬ d.opening <+: p.body ++ copies d.closing p.level
      ∧ cut? (copies d.closing p.level) (p.body ++ copies d.closing p.level) = some (p.body, []) := by
  fun_induction firstPiece? d text generalizing p rest with
  | case1 => simp at h
  | case2 text usable gap inner opened level behind body =>
    rename_i rest' closed
    obtain ⟨rfl, rfl⟩ := Prod.mk.injEq .. ▸ Option.some.inj h
    refine ⟨?_, cut?_through closed⟩
    rintro ⟨more, e⟩
    have again : after? d.opening behind = some (more ++ rest') := by
      apply after?_eq_some_iff.mpr
      rw [eq_of_cut? closed, ← List.append_assoc, e]
    rw [after?_leadingCopies (Delimiters.usable_iff.mp usable).1 inner] at again
    simp at again
  | case3 text usable gap inner opened level behind =>
    rename_i ih
    obtain ⟨⟨q, r⟩, hq, hp⟩ := Option.map_eq_some_iff.mp h
    obtain ⟨rfl, rfl⟩ := Prod.mk.injEq .. ▸ hp
    exact ih (p := q) hq
  | case4 => simp at h

/-- A text is printed from a legible row exactly if it is tidy. -/
theorem legible_row_iff {d : Delimiters} {text : Text} :
    (dissect d text).row.Legible d ↔ (dissect d text).Tidy d := by
  rw [Row.Legible, forall_mem_row]
  constructor
  · rintro ⟨pieces, tail⟩
    exact ⟨fun p hp => (pieces p hp).1, fun p hp => (pieces p hp).2.2.1.2, tail⟩
  · intro tidy
    refine ⟨fun p hp => ⟨tidy.gaps p hp, ?_⟩, tidy.tail⟩
    obtain ⟨left, rest, found⟩ := exists_firstPiece? hp
    obtain ⟨opens, closes⟩ := stops_of_firstPiece? found
    exact ⟨(level_pos_of_mem_dissect hp).2, ⟨opens, tidy.bodies p hp⟩, closes⟩

/-! ### Headers of a text -/

/-- The headers among the markers of a text. -/
def headers (d : Delimiters) (text : Text) : Nat :=
  (markers d text).countP fun m => m.directive? = some .ifHeader

theorem headers_markers (d : Delimiters) (w : Row) (position : Nat) :
    (w.markers d position).countP (fun m => m.directive? = some .ifHeader) = w.headers := by
  induction w generalizing position with
  | nil => rfl
  | cons s w ih =>
    cases s with
    | char c => exact ih (position + 1)
    | marker level body =>
      rw [Row.markers, List.countP_cons, directive?_markerAt, ih, Row.headers, Row.headers,
        List.countP_cons]

/-- The headers of a printed row are those that were printed. -/
theorem headers_print {d : Delimiters} (usable : d.usable = true) {w : Row} (legible : w.Legible d) :
    headers d (w.print d) = w.headers := by
  rw [headers, markers_print usable legible, headers_markers]

/-- **A pass takes one header away from a tidy text, and the text stays tidy.**  The delimiters must
hold no blanks, because a splice moves blanks around. -/
theorem headers_apply_of_tidy {d : Delimiters} (solid : d.Solid) {data : Value} {text : Text}
    {p : Pass} (tidy : (dissect d text).Tidy d) (h : pass? d data text = some (.ok p)) :
    headers d (p.apply text) + 1 = headers d text ∧ (dissect d (p.apply text)).Tidy d := by
  -- The text is the print of its own row, so the pass is one over a printed row.
  have legible := legible_row_iff.mpr tidy
  have printed : (dissect d text).row.print d = text := by rw [print_row, source_dissect]
  rw [← printed] at h
  obtain ⟨b, r, hb, hr, applied⟩ := exists_of_pass?_print solid.usable legible h
  have legible_left := legible_next solid legible hb hr
  rw [printed, ← print_next solid legible hb hr] at applied
  have fewer := Row.headers_next hb hr
  have before := headers_print solid.usable legible
  rw [printed] at before
  rw [applied, before, headers_print solid.usable legible_left]
  refine ⟨fewer, legible_row_iff.mp ?_⟩
  rwa [dissect_print solid.usable legible_left, row_dissection]

/-- A pass that is known by the text after it. -/
theorem exists_pass_of_applied {d : Delimiters} {data : Value} {text left : Text}
    (h : (pass? d data text).map (·.map (·.apply text)) = some (.ok left)) :
    ∃ p, pass? d data text = some (.ok p) ∧ p.apply text = left := by
  obtain ⟨outcome, found, e⟩ := Option.map_eq_some_iff.mp h
  obtain ⟨p, rfl, applied⟩ := ok_of_map e
  exact ⟨p, found, applied⟩

/-- Nested blocks, with stray closing delimiters and a body that goes on like an opening run. -/
theorem headers_apply_of_tidy_nested :
    let d : Delimiters := ⟨['<', '<'], ['>', '>']⟩
    let data : Value := .mapping [("a".toList, .bool true)]
    let text := ">x<<#if a>>\n  <<<name>><<#if b>>y ><</if>> >>\n<</if>><<#if a>>".toList
    d.Solid ∧ (dissect d text).Tidy d ∧ ∃ p, pass? d data text = some (.ok p)
      ∧ headers d (p.apply text) + 1 = headers d text ∧ (dissect d (p.apply text)).Tidy d := by
  intro d data text
  have solid : d.Solid := by decide
  have tidy : (dissect d text).Tidy d := by decide +kernel
  obtain ⟨p, found, -⟩ : ∃ p, pass? d data text = some (.ok p) ∧ p.apply text
      = ">x<<#if a>>\n  <<<name>> >>\n<</if>><<#if a>>".toList :=
    exists_pass_of_applied (by decide +kernel)
  exact ⟨solid, tidy, p, found, headers_apply_of_tidy solid tidy found⟩

/-- Of other texts this does not hold.  Here the brackets behind a literal `#if` are too few to
close it until the splice adds one. -/
theorem not_forall_headers_apply_lt :
    ¬ ∀ (d : Delimiters) (data : Value) (text : Text) (p : Pass), d.usable = true →
      pass? d data text = some (.ok p) → headers d (p.apply text) < headers d text := by
  intro fewer
  let d : Delimiters := ⟨['<', '<'], ['>', '>']⟩
  let data : Value := .mapping [("a".toList, .bool true)]
  let text := "<<<<#if q >>><<#if a>>>x<</if>><</if>>".toList
  obtain ⟨p, found, applied⟩ : ∃ p, pass? d data text = some (.ok p)
      ∧ p.apply text = "<<<<#if q >>>>x<</if>>".toList :=
    exists_pass_of_applied (by decide +kernel)
  have one_before : headers d text = 1 := by decide +kernel
  have one_after : headers d "<<<<#if q >>>>x<</if>>".toList = 1 := by decide +kernel
  have := fewer d data text p (by decide) found
  rw [applied, one_before, one_after] at this
  exact Nat.lt_irrefl 1 this

-- Delimiters with blanks do not do, even around a tidy text.
example :
    let d : Delimiters := ⟨['\n'], ['>']⟩
    let data : Value := .mapping [("a".toList, .bool true)]
    let text := "x\n#if a>#if q\nfoo>\n/if>\n/if>".toList
    (dissect d text).Tidy d ∧ (pass? d data text).map (·.map fun p =>
      (headers d text, headers d (p.apply text))) = some (.ok (1, 1)) := by
  decide +kernel

-- Nor does a body that reaches into an opening delimiter with its closing run.
example :
    let d : Delimiters := ⟨['x', '>', 'b'], ['>']⟩
    let data : Value := .mapping []
    let text := "x>bx>x>b#if a>x>b/if>b#if q >>".toList
    d.Solid ∧ (∀ p ∈ (dissect d text).pieces, d.OpensNowhere p.gap)
      ∧ d.OpensNowhere (dissect d text).tail ∧ (pass? d data text).map (·.map fun p =>
        (headers d text, headers d (p.apply text))) = some (.ok (1, 1)) := by
  decide +kernel

end Stencil
