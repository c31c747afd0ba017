import Stencil.Block
import Stencil.Proofs.Row.Basic

/-! # Blocks of a row

The last innermost block of a row, found without looking at positions, and the clauses that its
branches cut it into.  A row is taken apart at its block into what stands before it, its header, what
stands inside, its footer and what stands after it.

* `Row.block?_eq_some` and `Row.block?_append` say which blocks are found.
* `locate?_print` and `sections_print`: the block of a printed row is located where it was printed,
  and its sections hold the text of its clauses. -/

namespace Stencil

open Text

namespace Symbol

/-- Whether a symbol writes an `#elseif` or an `#else`. -/
def isBranch (s : Symbol) : Bool := s.directive? = some .elseIf || s.directive? = some .otherwise

theorem isBranch_char (c : Char) : (char c).isBranch = false := rfl

end Symbol

/-! ### Taking a row apart -/

/-- A row taken apart at a block. -/
structure RowBlock where
  before : Row
  header : Symbol
  inner : Row
  footer : Symbol
  after : Row
deriving DecidableEq, Repr

/-- The row that was taken apart. -/
def RowBlock.row (b : RowBlock) : Row := b.before ++ b.header :: (b.inner ++ b.footer :: b.after)

namespace Row

/-- What stands before the footer of a block whose header stands in front of the row, the footer,
and what stands after it. -/
def closing? : Row → Option (Row × Symbol × Row)
  | [] => none
  | s :: w =>
    match s.directive? with
    | some .ifHeader => none
    | some .endIf => some ([], s, w)
    | _ => (closing? w).map fun found => (s :: found.1, found.2)

/-- The last innermost block of a row. -/
def block? : Row → Option RowBlock
  | [] => none
  | s :: w =>
    match block? w with
    | some b => some { b with before := s :: b.before }
    | none =>
      if s.directive? = some .ifHeader then
        (closing? w).map fun found => ⟨[], s, found.1, found.2.1, found.2.2⟩
      else none

/-- Cuts a row at its branches: what stands before the first of them, and each branch with what
stands behind it. -/
def cutBranches : Row → Row × List (Symbol × Row)
  | [] => ([], [])
  | s :: w =>
    if s.isBranch then ([], (s, (cutBranches w).1) :: (cutBranches w).2)
    else (s :: (cutBranches w).1, (cutBranches w).2)

end Row

/-- The clauses of a block: its header and its branches, each with its content. -/
def RowBlock.clauses (b : RowBlock) : List (Symbol × Row) :=
  (b.header, (Row.cutBranches b.inner).1) :: (Row.cutBranches b.inner).2

/-! ### Which blocks are found -/

/-- Symbols among which no header and no footer of a block occurs. -/
def Row.Level (w : Row) : Prop :=
  ∀ s ∈ w, s.directive? ≠ some .ifHeader ∧ s.directive? ≠ some .endIf

/-- A block as it is found: header and footer are such, and nothing inside opens or closes a
block. -/
structure RowBlock.Innermost (b : RowBlock) : Prop where
  header : b.header.directive? = some .ifHeader
  inner : b.inner.Level
  footer : b.footer.directive? = some .endIf

namespace Row

theorem closing?_eq_some {w inner after : Row} {footer : Symbol}
    (h : closing? w = some (inner, footer, after)) :
    w = inner ++ footer :: after ∧ Level inner ∧ footer.directive? = some .endIf := by
  induction w generalizing inner with
  | nil => simp [closing?] at h
  | cons s w ih =>
    have pass (hne : s.directive? ≠ some .ifHeader ∧ s.directive? ≠ some .endIf)
        (hm : (closing? w).map (fun found => (s :: found.1, found.2))
          = some (inner, footer, after)) :
        s :: w = inner ++ footer :: after ∧ Level inner ∧ footer.directive? = some .endIf := by
      obtain ⟨⟨i, f, a⟩, hf, hp⟩ := Option.map_eq_some_iff.mp hm
      simp only [Prod.mk.injEq] at hp
      obtain ⟨rfl, rfl, rfl⟩ := hp
      obtain ⟨rfl, hi, hd⟩ := ih hf
      exact ⟨rfl, List.forall_mem_cons.mpr ⟨hne, hi⟩, hd⟩
    rw [closing?] at h
    split at h
    · simp at h
    · rename_i hd
      simp only [Option.some.injEq, Prod.mk.injEq] at h
      obtain ⟨rfl, rfl, rfl⟩ := h
      exact ⟨rfl, List.forall_mem_nil _, hd⟩
    · rename_i h1 h2
      exact pass ⟨h1, h2⟩ h

/-- A block is closed by the first footer behind its header. -/
theorem closing?_append {inner : Row} (level : Level inner) {footer : Symbol}
    (hf : footer.directive? = some .endIf) (after : Row) :
    closing? (inner ++ footer :: after) = some (inner, footer, after) := by
  induction inner with
  | nil => simp [closing?, hf]
  | cons s inner ih =>
    obtain ⟨⟨h1, h2⟩, later⟩ := List.forall_mem_cons.mp level
    rw [List.cons_append, closing?]
    split
    · exact absurd ‹_› h1
    · exact absurd ‹_› h2
    · rw [ih later]
      rfl

/-- A block that is found is innermost, and the row is its parts put together. -/
theorem block?_eq_some {w : Row} {b : RowBlock} (h : block? w = some b) :
    w = b.row ∧ b.Innermost := by
  induction w generalizing b with
  | nil => simp [block?] at h
  | cons s w ih =>
    rw [block?] at h
    split at h
    · rename_i b' hb
      obtain rfl := Option.some.inj h
      obtain ⟨hw, hi⟩ := ih hb
      refine ⟨?_, hi.header, hi.inner, hi.footer⟩
      rw [hw]
      rfl
    · split at h
      · rename_i hs
        obtain ⟨⟨i, f, a⟩, hc, rfl⟩ := Option.map_eq_some_iff.mp h
        obtain ⟨rfl, hi, hf⟩ := closing?_eq_some hc
        exact ⟨rfl, hs, hi, hf⟩
      · simp at h

theorem block?_eq_none {w : Row} (h : ∀ s ∈ w, s.directive? ≠ some .ifHeader) :
    block? w = none := by
  induction w with
  | nil => rfl
  | cons s w ih =>
    obtain ⟨hs, hw⟩ := List.forall_mem_cons.mp h
    rw [block?, ih hw]
    exact if_neg hs

/-- An innermost block behind which no header comes is the one that is found. -/
theorem block?_append {b : RowBlock} (hb : b.Innermost)
    (last : ∀ s ∈ b.after, s.directive? ≠ some .ifHeader) : block? b.row = some b := by
  obtain ⟨before, header, inner, footer, after⟩ := b
  have none_after : block? (inner ++ footer :: after) = none := by
    apply block?_eq_none
    intro s hs
    rcases List.mem_append.mp hs with hs | hs
    · exact (hb.inner s hs).1
    · rcases List.mem_cons.mp hs with rfl | hs
      · have := hb.footer
        rw [this]
        simp
      · exact last s hs
  have at_header : block? (header :: (inner ++ footer :: after))
      = some ⟨[], header, inner, footer, after⟩ := by
    rw [block?, none_after]
    dsimp only
    rw [if_pos hb.header, closing?_append hb.inner hb.footer]
    rfl
  unfold RowBlock.row
  dsimp only
  induction before with
  | nil => exact at_header
  | cons s before ih =>
    rw [List.cons_append, block?, ih ⟨hb.header, hb.inner, hb.footer⟩ last]

/-- Nothing is lost when a row is cut at its branches. -/
theorem append_cutBranches (w : Row) :
    (cutBranches w).1 ++ (cutBranches w).2.flatMap (fun c => c.1 :: c.2) = w := by
  induction w with
  | nil => rfl
  | cons s w ih =>
    rw [cutBranches]
    split
    · rw [List.flatMap_cons, List.nil_append, List.cons_append, ih]
    · exact congrArg (s :: ·) ih

end Row

/-! ### The block of a printed row -/

section print
variable {d : Delimiters}

/-- Whether a marker writes an `#elseif` or an `#else`. -/
def Marker.isBranch (m : Marker) : Bool :=
  m.directive? = some .elseIf || m.directive? = some .otherwise

/-- Where a block of a row is printed, if the row is printed from a position on. -/
def RowBlock.placeAt (d : Delimiters) (position : Nat) (b : RowBlock) : Block :=
  let start := position + (b.before.print d).length
  let inside := start + (b.header.print d).length
  ⟨b.header.markerAt d start, (b.inner.markers d inside).filter Marker.isBranch,
    b.footer.markerAt d (inside + (b.inner.print d).length)⟩

theorem directive?_markerAt (d : Delimiters) (position : Nat) (s : Symbol) :
    (s.markerAt d position).directive? = s.directive? := by
  cases s with
  | char c => exact show Directive.ofBody? [] = none by decide
  | marker level body => rfl

theorem isBranch_markerAt (d : Delimiters) (position : Nat) (s : Symbol) :
    (s.markerAt d position).isBranch = s.isBranch := by
  rw [Marker.isBranch, directive?_markerAt]
  rfl

theorem filter_markers_cons (d : Delimiters) (position : Nat) (s : Symbol) (w : Row) :
    (Row.markers d position (s :: w)).filter Marker.isBranch
      = (if s.isBranch then [s.markerAt d position] else [])
        ++ (w.markers d (position + (s.print d).length)).filter Marker.isBranch := by
  cases s with
  | char c => rfl
  | marker level body =>
    rw [Row.markers, List.filter_cons, isBranch_markerAt]
    split <;> rfl

theorem closing?_markers (d : Delimiters) (w : Row) (position : Nat) :
    Block.closing? (w.markers d position) = (Row.closing? w).map fun found =>
      ((Row.markers d position found.1).filter Marker.isBranch,
        found.2.1.markerAt d (position + (Row.print d found.1).length)) := by
  induction w generalizing position with
  | nil => rfl
  | cons s w ih =>
    cases s with
    | char c =>
      rw [Row.markers, ih, Row.closing?]
      simp only [Symbol.directive?, Option.map_map]
      congr 1
      funext found
      simp [filter_markers_cons, Symbol.isBranch_char, Symbol.print, Nat.add_assoc, Nat.add_comm 1]
    | marker level body =>
      rw [Row.markers, Block.closing?, Row.closing?, directive?_markerAt]
      generalize Symbol.marker level body = s
      cases hd : s.directive? with
      | none =>
        have hb : s.isBranch = false := by simp [Symbol.isBranch, hd]
        simp only [ih, Option.map_map]
        congr 1
        funext found
        simp [filter_markers_cons, hb, Nat.add_assoc]
      | some k =>
        cases k with
        | ifHeader => rfl
        | endIf => rfl
        | elseIf | otherwise =>
          have hb : s.isBranch = true := by simp [Symbol.isBranch, hd]
          simp only [ih, Option.map_map]
          congr 1
          funext found
          simp [filter_markers_cons, hb, Nat.add_assoc]

theorem last?_markers (d : Delimiters) (w : Row) (position : Nat) :
    Block.last? (w.markers d position) = (Row.block? w).map (RowBlock.placeAt d position) := by
  induction w generalizing position with
  | nil => rfl
  | cons s w ih =>
    have later (b : RowBlock) : RowBlock.placeAt d (position + (s.print d).length) b
        = RowBlock.placeAt d position { b with before := s :: b.before } := by
      simp [RowBlock.placeAt, Nat.add_assoc]
    cases s with
    | char c =>
      rw [Row.markers, ih, Row.block?]
      cases hb : Row.block? w with
      | none => rfl
      | some b => exact congrArg some (later b)
    | marker level body =>
      rw [Row.markers, Block.last?, ih, Row.block?]
      cases hb : Row.block? w with
      | none =>
        rw [Option.map_none]
        dsimp only
        rw [directive?_markerAt]
        split
        · rw [closing?_markers, Option.map_map, Option.map_map]
          rfl
        · rfl
      | some b => exact congrArg some (later b)

/-- The block of a printed row is located where it was printed. -/
theorem locate?_print (usable : d.usable = true) {w : Row} (legible : w.Legible d) :
    Block.locate? d (w.print d) = (Row.block? w).map (RowBlock.placeAt d 0) := by
  rw [Block.locate?, markers_print usable legible, last?_markers]

/-! ### Sections of a printed row -/

/-- The section that a marker with a body opens. -/
def Section.ofBody (body content : Text) : Section :=
  match Directive.ofBody? body with
  | some .elseIf => ⟨.elseIf, some (argumentOf body), content⟩
  | some .otherwise => ⟨.otherwise, none, content⟩
  | _ => ⟨.ifHeader, some (argumentOf body), content⟩

theorem Section.ofMarker_eq (text : Text) (m : Marker) (stop : Nat) :
    Section.ofMarker text m stop = Section.ofBody m.body ((text.take stop).drop m.stop) := rfl

theorem Section.kind_ofBody (body content : Text) :
    (Section.ofBody body content).kind = .otherwise
      ↔ Directive.ofBody? body = some .otherwise := by
  rw [Section.ofBody]
  split
  · simp [*]
  · simp [*]
  · rename_i other
    exact ⟨fun h => by simp at h, fun h => absurd h other⟩

theorem Section.condition_ofBody {body : Text} (h : Directive.ofBody? body ≠ some .otherwise)
    (content : Text) : (Section.ofBody body content).condition = some (argumentOf body) := by
  rw [Section.ofBody]
  split
  · rfl
  · exact absurd ‹_› h
  · rfl

theorem Section.content_ofBody (body content : Text) :
    (Section.ofBody body content).content = content := by
  rw [Section.ofBody]
  split <;> rfl

theorem take_drop_between (front mid rest : Text) :
    ((front ++ (mid ++ rest)).take (front.length + mid.length)).drop front.length = mid := by
  rw [List.take_length_add_append, List.take_left, List.drop_left]

theorem sectionsFrom_print (d : Delimiters) (w held : Row) (front back : Text) (m : Marker)
    (hm : m.stop = front.length) :
    Block.sectionsFrom (front ++ (held.print d ++ (w.print d ++ back)))
        (front.length + (held.print d).length + (w.print d).length) m
        ((w.markers d (front.length + (held.print d).length)).filter Marker.isBranch)
      = Section.ofBody m.body (Row.print d (held ++ (Row.cutBranches w).1))
        :: (Row.cutBranches w).2.map fun c => Section.ofBody c.1.body (Row.print d c.2) := by
  induction w generalizing held front m with
  | nil =>
    rw [Row.markers, List.filter_nil, Block.sectionsFrom, Section.ofMarker_eq, hm, Row.print_nil,
      List.length_nil, Nat.add_zero, take_drop_between, Row.cutBranches, List.append_nil]
    rfl
  | cons s w ih =>
    rw [filter_markers_cons, Row.cutBranches]
    cases hs : s.isBranch with
    | true =>
      have next := ih [] (front ++ (held.print d ++ s.print d))
        (s.markerAt d (front.length + (held.print d).length))
        (by simp [Symbol.markerAt, Nat.add_assoc])
      simp only [Row.print_nil, List.length_append, List.append_assoc, List.length_nil,
        Nat.add_zero, List.nil_append, ← Nat.add_assoc] at next
      simp only [if_true, List.singleton_append, Block.sectionsFrom, Section.ofMarker_eq, hm,
        Row.print_cons, List.append_assoc, List.length_append, List.append_nil, List.map_cons,
        ← Nat.add_assoc]
      rw [next, show (s.markerAt d (front.length + (held.print d).length)).start
        = front.length + (held.print d).length from rfl, take_drop_between]
      rfl
    | false =>
      have next := ih (held ++ [s]) front m hm
      simp only [Row.print_append, Row.print_cons, Row.print_nil, List.append_nil,
        List.length_append, List.append_assoc, ← Nat.add_assoc] at next
      simp only [Bool.false_eq_true, if_false, List.nil_append, Row.print_append, Row.print_cons,
        List.append_assoc, List.length_append, ← Nat.add_assoc]
      exact next

/-- The sections of the block of a printed row hold the text of its clauses. -/
theorem sections_print (d : Delimiters) (b : RowBlock) :
    Block.sections (b.row.print d) (b.placeAt d 0)
      = b.clauses.map fun c => Section.ofBody c.1.body (Row.print d c.2) := by
  have h := sectionsFrom_print d b.inner [] (b.before.print d ++ b.header.print d)
    (b.footer.print d ++ b.after.print d) (b.header.markerAt d (b.before.print d).length)
    (by simp [Symbol.markerAt])
  simp only [Row.print_nil, List.length_append, List.length_nil, Nat.add_zero, List.nil_append,
    List.append_assoc] at h
  simp only [Block.sections, RowBlock.placeAt, RowBlock.row, RowBlock.clauses, Row.print_append,
    Row.print_cons, Nat.zero_add, List.map_cons]
  exact h

/-- What stands before the block of a printed row. -/
theorem take_start_print (d : Delimiters) (b : RowBlock) :
    (b.row.print d).take (b.placeAt d 0).start = b.before.print d := by
  simp [Block.start, RowBlock.placeAt, RowBlock.row, Symbol.markerAt]

/-- What stands after the block of a printed row. -/
theorem drop_stop_print (d : Delimiters) (b : RowBlock) :
    (b.row.print d).drop (b.placeAt d 0).stop = b.after.print d := by
  have e : b.row.print d = (b.before.print d ++ b.header.print d ++ b.inner.print d
      ++ b.footer.print d) ++ b.after.print d := by
    simp [RowBlock.row]
  have h : (b.placeAt d 0).stop = (b.before.print d ++ b.header.print d ++ b.inner.print d
      ++ b.footer.print d).length := by
    simp [Block.stop, RowBlock.placeAt, Symbol.markerAt, Nat.add_assoc]
  rw [e, h, List.drop_left]

end print

end Stencil
