import Stencil.Proofs.Row.Block

/-! # Which block is located

A header opens an innermost block if the next marker behind it that opens or closes a block is a
footer.  One pass over the markers from the right meets the last such header first, whatever stands
around it: headers that are never closed, footers that close nothing, and branches of other blocks.

* `search_eq`: the same block is found by trying one header after the other and walking behind each of
  them with a count of the blocks that are open.
* `last?_eq_none_iff`: there is no block exactly if no footer follows a header.
* `last?_eq_some_iff`: the block that is found is the one of the last such header.
* `locate?_characterized` puts them together for the markers of a text. -/

namespace Stencil
namespace Block

/-! ### Trying every header -/

/-- Walks over the markers from a header on, with the number of blocks that are open and the branches
that were met.  The walk fails at a second header inside the block. -/
def walk (header : Marker) : (depth : Int) → (branches : List Marker) → List Marker → Option Block
  | _, _, [] => none
  | depth, branches, m :: ms =>
    match m.directive? with
    | some .ifHeader => if depth + 1 > 1 then none else walk header (depth + 1) branches ms
    | some .endIf =>
      if depth - 1 = 0 then some ⟨header, branches, m⟩ else walk header (depth - 1) branches ms
    | some .elseIf | some .otherwise => walk header depth (branches ++ [m]) ms
    | none => walk header depth branches ms

/-- Tries every header from left to right.  The last walk that ends at a footer counts. -/
def search (found : Option Block) : List Marker → Option Block
  | [] => found
  | m :: ms =>
    if m.directive? = some .ifHeader then search ((walk m 0 [] (m :: ms)).or found) ms
    else search found ms

/-- A marker that neither opens nor closes a block. -/
def IsLevel (m : Marker) : Prop :=
  m.directive? ≠ some .ifHeader ∧ m.directive? ≠ some .endIf

theorem IsLevel.cases {m : Marker} (level : IsLevel m) :
    (m.directive? = some .elseIf ∨ m.directive? = some .otherwise) ∧ m.isBranch = true
      ∨ m.directive? = none ∧ m.isBranch = false := by
  unfold Marker.isBranch
  cases read : m.directive? with
  | none => exact .inr ⟨rfl, rfl⟩
  | some directive =>
    cases directive with
    | ifHeader => exact absurd read level.1
    | endIf => exact absurd read level.2
    | elseIf => exact .inl ⟨.inl rfl, rfl⟩
    | otherwise => exact .inl ⟨.inr rfl, rfl⟩

/-- A marker inside a block is one of its branches, or is passed over. -/
theorem closing?_cons_of_isLevel {m : Marker} (level : IsLevel m) (ms : List Marker) :
    closing? (m :: ms) = (closing? ms).map fun found =>
      ([m].filter Marker.isBranch ++ found.1, found.2) := by
  rcases level.cases with ⟨branch | branch, kept⟩ | ⟨other, dropped⟩
  · rw [closing?, branch, List.filter_cons_of_pos kept]
    rfl
  · rw [closing?, branch, List.filter_cons_of_pos kept]
    rfl
  · rw [closing?, other, List.filter_cons_of_neg (Bool.eq_false_iff.mp dropped)]
    exact Option.map_id'.symm

theorem walk_cons_of_isLevel {m : Marker} (level : IsLevel m) (header : Marker) (depth : Int)
    (branches ms : List Marker) : walk header depth branches (m :: ms)
      = walk header depth (branches ++ [m].filter Marker.isBranch) ms := by
  rcases level.cases with ⟨branch | branch, kept⟩ | ⟨other, dropped⟩
  · rw [walk, branch, List.filter_cons_of_pos kept, List.filter_nil]
  · rw [walk, branch, List.filter_cons_of_pos kept, List.filter_nil]
  · rw [walk, other, List.filter_cons_of_neg (Bool.eq_false_iff.mp dropped), List.filter_nil,
      List.append_nil]

/-- Inside a block a walk looks for its footer. -/
theorem walk_one (header : Marker) (branches ms : List Marker) : walk header 1 branches ms
    = (closing? ms).map fun found => ⟨header, branches ++ found.1, found.2⟩ := by
  induction ms generalizing branches with
  | nil => rfl
  | cons m ms ih =>
    by_cases opens : m.directive? = some .ifHeader
    · rw [walk, closing?, opens]
      rfl
    · by_cases closes : m.directive? = some .endIf
      · rw [walk, closing?, closes]
        simp
      · rw [walk_cons_of_isLevel ⟨opens, closes⟩, closing?_cons_of_isLevel ⟨opens, closes⟩, ih,
          Option.map_map]
        simp only [Function.comp_def, List.append_assoc]

theorem walk_header {m : Marker} (header : m.directive? = some .ifHeader) (ms : List Marker) :
    walk m 0 [] (m :: ms) = (closing? ms).map fun found => ⟨m, found.1, found.2⟩ := by
  rw [walk, header]
  exact walk_one m [] ms

/-- The search comes to the block that is met first from the right. -/
theorem search_eq (found : Option Block) (ms : List Marker) :
    search found ms = (last? ms).or found := by
  induction ms generalizing found with
  | nil => rfl
  | cons m ms ih =>
    rw [search, last?, ih, ih]
    cases last? ms with
    | some b => simp
    | none =>
      split
      · rename_i header
        rw [walk_header header]
        rfl
      · rfl

/-! ### Markers without a block -/

theorem last?_eq_none_of_cons {m : Marker} {ms : List Marker} (h : last? (m :: ms) = none) :
    last? ms = none ∧ (m.directive? = some .ifHeader → closing? ms = none) := by
  rw [last?] at h
  split at h
  · simp at h
  · rename_i none_later
    refine ⟨none_later, fun hm => ?_⟩
    rw [if_pos hm] at h
    exact Option.map_eq_none_iff.mp h

/-- Markers without a block that close no block opened before them hold no footer. -/
theorem no_footer_of_closing?_eq_none {ms : List Marker} (h : last? ms = none)
    (stays : closing? ms = none) : ∀ m ∈ ms, m.directive? ≠ some .endIf := by
  induction ms with
  | nil => exact List.forall_mem_nil _
  | cons m ms ih =>
    obtain ⟨later, header⟩ := last?_eq_none_of_cons h
    by_cases opens : m.directive? = some .ifHeader
    · exact List.forall_mem_cons.mpr ⟨by simp [opens], ih later (header opens)⟩
    · by_cases closes : m.directive? = some .endIf
      · simp [closing?, closes] at stays
      · rw [closing?_cons_of_isLevel ⟨opens, closes⟩, Option.map_eq_none_iff] at stays
        exact List.forall_mem_cons.mpr ⟨closes, ih later stays⟩

/-- Markers without a block: no footer follows a header. -/
theorem pairwise_of_last?_eq_none {ms : List Marker} (h : last? ms = none) :
    ms.Pairwise fun a b => a.directive? = some .ifHeader → b.directive? ≠ some .endIf := by
  induction ms with
  | nil => exact .nil
  | cons m ms ih =>
    obtain ⟨later, header⟩ := last?_eq_none_of_cons h
    refine .cons ?_ (ih later)
    intro b hb hm
    exact no_footer_of_closing?_eq_none later (header hm) b hb

/-! ### The last innermost block -/

/-- Of the markers behind a header, the first that opens or closes a block is this footer, and these
are the ones in front of it. -/
structure NextFooter (behind inner : List Marker) (footer : Marker) : Prop where
  split : ∃ after, behind = inner ++ footer :: after
  level : ∀ m ∈ inner, IsLevel m
  footer : footer.directive? = some .endIf

theorem closing?_eq_some_iff {ms branches : List Marker} {footer : Marker} :
    closing? ms = some (branches, footer)
      ↔ ∃ inner, NextFooter ms inner footer ∧ branches = inner.filter Marker.isBranch := by
  constructor
  · intro h
    induction ms generalizing branches with
    | nil => simp [closing?] at h
    | cons m ms ih =>
      by_cases opens : m.directive? = some .ifHeader
      · simp [closing?, opens] at h
      · by_cases closes : m.directive? = some .endIf
        · simp only [closing?, closes, Option.some.injEq, Prod.mk.injEq] at h
          obtain ⟨rfl, rfl⟩ := h
          exact ⟨[], ⟨⟨ms, rfl⟩, List.forall_mem_nil _, closes⟩, rfl⟩
        · rw [closing?_cons_of_isLevel ⟨opens, closes⟩] at h
          obtain ⟨⟨bs, f⟩, hf, hp⟩ := Option.map_eq_some_iff.mp h
          obtain ⟨rfl, rfl⟩ := Prod.mk.injEq .. ▸ hp
          obtain ⟨inner, ⟨⟨after, e⟩, level, footer⟩, rfl⟩ := ih hf
          refine ⟨m :: inner, ⟨⟨after, congrArg (m :: ·) e⟩, ?_, footer⟩, ?_⟩
          · exact List.forall_mem_cons.mpr ⟨⟨opens, closes⟩, level⟩
          · exact (List.filter_append [m] inner).symm
  · rintro ⟨inner, ⟨⟨after, rfl⟩, level, footer⟩, rfl⟩
    induction inner with
    | nil => simp [closing?, footer]
    | cons m inner ih =>
      obtain ⟨first, later⟩ := List.forall_mem_cons.mp level
      rw [List.cons_append, closing?_cons_of_isLevel first, ih later, Option.map_some,
        ← List.filter_append]
      rfl

/-- A block of some markers that is innermost, with no innermost block behind its header. -/
structure LastIn (ms before behind inner : List Marker) (b : Block) : Prop where
  split : ms = before ++ b.header :: behind
  header : b.header.directive? = some .ifHeader
  next : NextFooter behind inner b.footer
  branches : b.branches = inner.filter Marker.isBranch
  last : ∀ front h later, behind = front ++ h :: later → h.directive? = some .ifHeader →
    ∀ inner footer, ¬ NextFooter later inner footer

/-- Where the next footer belongs to a header, there is a block. -/
theorem last?_ne_none {front later inner : List Marker} {h footer : Marker}
    (header : h.directive? = some .ifHeader) (next : NextFooter later inner footer) :
    last? (front ++ h :: later) ≠ none := by
  intro nothing
  induction front with
  | nil =>
    have closed := (last?_eq_none_of_cons nothing).2 header
    rw [closing?_eq_some_iff.mpr ⟨inner, next, rfl⟩] at closed
    simp at closed
  | cons m front ih => exact ih (last?_eq_none_of_cons nothing).1

theorem exists_lastIn {ms : List Marker} {b : Block} (h : last? ms = some b) :
    ∃ before behind inner, LastIn ms before behind inner b := by
  induction ms with
  | nil => simp [last?] at h
  | cons m ms ih =>
    rw [last?] at h
    split at h
    · rename_i b' later
      obtain rfl := Option.some.inj h
      obtain ⟨before, behind, inner, found⟩ := ih later
      exact ⟨m :: before, behind, inner, { found with split := congrArg (m :: ·) found.split }⟩
    · rename_i nothing
      split at h
      · rename_i header
        obtain ⟨⟨branches, footer⟩, closed, rfl⟩ := Option.map_eq_some_iff.mp h
        obtain ⟨inner, next, same⟩ := closing?_eq_some_iff.mp closed
        refine ⟨[], ms, inner, rfl, header, next, same, ?_⟩
        rintro front h later rfl opens inner' footer' next'
        exact last?_ne_none opens next' nothing
      · simp at h

/-- The block that is found is the one of the last header whose next footer is its own. -/
theorem last?_eq_some_iff {ms : List Marker} {b : Block} :
    last? ms = some b ↔ ∃ before behind inner, LastIn ms before behind inner b := by
  refine ⟨exists_lastIn, ?_⟩
  rintro ⟨before, behind, inner, split, header, next, branches, last⟩
  subst split
  have nothing : last? behind = none := by
    rw [Option.eq_none_iff_forall_ne_some]
    intro later found
    obtain ⟨front, rest, inner', split', header', next', -, -⟩ := exists_lastIn found
    exact last front later.header rest split' header' inner' later.footer next'
  induction before with
  | nil =>
    rw [List.nil_append, last?, nothing]
    dsimp only
    rw [if_pos header, closing?_eq_some_iff.mpr ⟨inner, next, branches⟩]
    rfl
  | cons m before ih => rw [List.cons_append, last?, ih]

/-- There is no block exactly if no footer follows a header. -/
theorem last?_eq_none_iff {ms : List Marker} : last? ms = none
    ↔ ms.Pairwise fun a b => a.directive? = some .ifHeader → b.directive? ≠ some .endIf := by
  refine ⟨pairwise_of_last?_eq_none, ?_⟩
  intro apart
  rw [Option.eq_none_iff_forall_ne_some]
  intro b found
  obtain ⟨before, behind, inner, split, header, ⟨⟨after, rfl⟩, -, footer⟩, -, -⟩ :=
    exists_lastIn found
  rw [split, List.pairwise_append, List.pairwise_cons] at apart
  exact apart.2.1.1 b.footer (by simp) header footer

end Block

/-- **The located block**: trying every header of a text finds the block that one pass finds.  There is
none exactly if no footer follows a header, and otherwise it is the block of the last header for which
the next marker that opens or closes a block is a footer. -/
theorem locate?_characterized (d : Delimiters) (text : Text) :
    Block.search none (markers d text) = Block.locate? d text
      ∧ (Block.locate? d text = none ↔ (markers d text).Pairwise fun a b =>
          a.directive? = some .ifHeader → b.directive? ≠ some .endIf)
      ∧ ∀ b, Block.locate? d text = some b
          ↔ ∃ before behind inner, Block.LastIn (markers d text) before behind inner b := by
  refine ⟨?_, Block.last?_eq_none_iff, fun b => Block.last?_eq_some_iff⟩
  rw [Block.search_eq, Option.or_none]
  rfl

end Stencil
