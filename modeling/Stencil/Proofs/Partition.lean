import Mathlib.Data.List.Forall2
import Stencil.Proofs.Locating
import Stencil.Proofs.Weaving

/-! # The sections of a block

The clauses of a block are its header and its branches.  They cut what lies between the header and the
footer into the contents of the sections, one behind each clause.

* `Block.zippedSections`: the same sections, cut by two lists of positions, of which the first is
  sorted.
* `contents_sectionsFrom`, `openedBy_sections`: what a section holds, and which clause announces it.
* `apart_of_mem_contents`: no directive of the text reaches into a content.
* `partitioned_of_locate?`: the clauses with the contents between them are the block. -/

namespace Stencil

/-! ### Clauses and contents -/

/-- The directive that opens sections of a kind. -/
def SectionKind.directive? : SectionKind → Option Directive
  | ifHeader => some .ifHeader
  | elseIf => some .elseIf
  | otherwise => some .otherwise
  | other _ => none

/-- A section as its clause announces it: it has the kind of the clause, and the condition unless it is
an `#else` section. -/
structure Section.OpenedBy (m : Marker) (s : Section) : Prop where
  kind : s.kind.directive? = m.directive?
  condition : s.condition = if s.kind = .otherwise then none else some m.argument

namespace Block

/-- The stretches behind the clauses of a block, each up to the next clause or the footer. -/
def contents (b : Block) : List Stretch := gapsFrom b.footer.start b.header.stop b.branches

/-- The sections of a block by two lists: its clauses, with the branches in the order of their starts,
and the positions where the contents behind them end. -/
def zippedSections (text : Text) (b : Block) : List Section :=
  let clauses := b.header :: b.branches.mergeSort fun m n => m.start ≤ n.start
  let stops := clauses.tail.map Marker.start ++ [b.footer.start]
  List.zipWith (Section.ofMarker text) clauses stops

section sections
variable {text : Text} {stop : Nat} {m : Marker} {branches : List Marker}

theorem zipWith_eq_sectionsFrom (text : Text) (stop : Nat) (m : Marker) (branches : List Marker) :
    List.zipWith (Section.ofMarker text) (m :: branches) (branches.map Marker.start ++ [stop])
      = sectionsFrom text stop m branches := by
  induction branches generalizing m with
  | nil => rfl
  | cons b bs ih => exact congrArg (Section.ofMarker text m b.start :: ·) (ih b)

theorem contents_sectionsFrom (text : Text) (stop : Nat) (m : Marker) (branches : List Marker) :
    (sectionsFrom text stop m branches).map Section.content
      = (gapsFrom stop m.stop branches).map (Stretch.of text) := by
  induction branches generalizing m with
  | nil =>
    rw [sectionsFrom, gapsFrom, List.map_singleton, List.map_singleton, content_ofMarker]
    rfl
  | cons b bs ih =>
    rw [sectionsFrom, gapsFrom, List.map_cons, List.map_cons, content_ofMarker, ih]
    rfl

/-- A marker that opens a section: the header of a block, or one of its branches. -/
def IsClause (m : Marker) : Prop :=
  m.directive? = some .ifHeader ∨ m.directive? = some .elseIf ∨ m.directive? = some .otherwise

theorem openedBy_ofMarker (text : Text) (stop : Nat) (clause : IsClause m) :
    (Section.ofMarker text m stop).OpenedBy m := by
  unfold Section.ofMarker
  rcases clause with h | h | h
  · rw [h]
    exact ⟨h.symm, rfl⟩
  · rw [h]
    exact ⟨h.symm, rfl⟩
  · rw [h]
    exact ⟨h.symm, rfl⟩

theorem openedBy_sectionsFrom (text : Text) (stop : Nat) (clauses : ∀ r ∈ m :: branches, IsClause r) :
    List.Forall₂ Section.OpenedBy (m :: branches) (sectionsFrom text stop m branches) := by
  induction branches generalizing m with
  | nil => exact .cons (openedBy_ofMarker text stop (clauses m List.mem_cons_self)) .nil
  | cons b bs ih =>
    obtain ⟨first, later⟩ := List.forall_mem_cons.mp clauses
    exact .cons (openedBy_ofMarker text b.start first) (ih later)

end sections

section located
variable {d : Delimiters} {text : Text} {b : Block}

theorem directive?_header (located : locate? d text = some b) :
    b.header.directive? = some .ifHeader := by
  obtain ⟨before, behind, inner, found⟩ := exists_lastIn located
  exact found.header

theorem directive?_of_mem_branches (located : locate? d text = some b) {r : Marker}
    (h : r ∈ b.branches) : r.directive? = some .elseIf ∨ r.directive? = some .otherwise := by
  obtain ⟨before, behind, inner, found⟩ := exists_lastIn located
  rw [found.branches] at h
  obtain ⟨within, branch⟩ := List.mem_filter.mp h
  rcases (found.next.level r within).cases with ⟨clause, -⟩ | ⟨-, other⟩
  · exact clause
  · rw [branch] at other
    cases other

/-- Every section is as its clause announces it. -/
theorem openedBy_sections (located : locate? d text = some b) :
    List.Forall₂ Section.OpenedBy (b.header :: b.branches) (b.sections text) := by
  apply openedBy_sectionsFrom
  refine List.forall_mem_cons.mpr ⟨.inl (directive?_header located), fun r hr => .inr ?_⟩
  exact directive?_of_mem_branches located hr

/-- Sorting the branches and cutting at two lists of positions gives the same sections. -/
theorem zippedSections_eq (located : locate? d text = some b) :
    zippedSections text b = b.sections text := by
  have ordered := (fits_of_locate? located).branches_between
  have sorted : b.branches.Pairwise fun m n => decide (m.start ≤ n.start) = true := by
    refine ordered.pairwise.imp_of_mem fun hm _ apart => ?_
    have inside := ordered.within hm
    rw [decide_eq_true_iff]
    omega
  rw [zippedSections, List.mergeSort_of_pairwise sorted]
  exact zipWith_eq_sectionsFrom text b.footer.start b.header b.branches

/-- No directive of the text reaches into the content of a section. -/
theorem apart_of_mem_contents (located : locate? d text = some b) {c : Stretch}
    (hc : c ∈ b.contents) {m : Marker} (hm : m ∈ markers d text) (directive : m.directive? ≠ none) :
    m.stop ≤ c.start ∨ c.stop ≤ m.start := by
  obtain ⟨before, behind, inner, found⟩ := exists_lastIn located
  obtain ⟨after, behind_eq⟩ := found.next.split
  obtain ⟨header_wide, between, footer_wide, -⟩ := fits_of_locate? located
  obtain ⟨c_start, -, c_stop, outside⟩ := between.within_gapsFrom hc
  -- The markers in order: before the block, its header, inside, its footer, and behind it.
  have ordered := (ordered_markers d text).pairwise
  have split := found.split
  rw [behind_eq] at split
  rw [split] at hm ordered
  obtain ⟨-, in_block, in_front⟩ := List.pairwise_append.mp ordered
  obtain ⟨-, inside⟩ := List.pairwise_cons.mp in_block
  obtain ⟨-, from_footer, -⟩ := List.pairwise_append.mp inside
  obtain ⟨behind_footer, -⟩ := List.pairwise_cons.mp from_footer
  rcases List.mem_append.mp hm with hm | hm
  · have := in_front m hm b.header List.mem_cons_self
    exact .inl (by omega)
  rcases List.mem_cons.mp hm with rfl | hm
  · exact .inl c_start
  rcases List.mem_append.mp hm with hm | hm
  · apply outside
    rw [found.branches]
    rcases (found.next.level m hm).cases with ⟨-, branch⟩ | ⟨none_read, -⟩
    · exact List.mem_filter.mpr ⟨hm, branch⟩
    · exact absurd none_read directive
  rcases List.mem_cons.mp hm with rfl | hm
  · exact .inr c_stop
  · have := behind_footer m hm
    exact .inr (by omega)

/-- The clauses with the contents between them, in front of the footer, are the block. -/
theorem source_eq_weave (located : locate? d text = some b) :
    Stretch.of text ⟨b.start, b.stop⟩ = b.header.stretch.of text
      ++ weave ((b.sections text).map Section.content) (b.branches.map fun r => r.stretch.of text)
      ++ b.footer.stretch.of text := by
  obtain ⟨header_wide, between, footer_wide, -⟩ := fits_of_locate? located
  have room := between.le
  rw [sections, contents_sectionsFrom, between.weave_gapsFrom text, Marker.stretch, Marker.stretch,
    Stretch.of_append_of (by omega) room, Stretch.of_append_of (by omega) (by omega)]
  rfl

end located
end Block

/-- How the sections of a block make it up. -/
structure Partitioned (d : Delimiters) (text : Text) (b : Block) : Prop where
  count : (b.sections text).length = b.branches.length + 1
  source : Stretch.of text ⟨b.start, b.stop⟩ = b.header.stretch.of text
    ++ weave ((b.sections text).map Section.content) (b.branches.map fun r => r.stretch.of text)
    ++ b.footer.stretch.of text
  header : b.header.directive? = some .ifHeader
  branches : ∀ r ∈ b.branches, r.directive? = some .elseIf ∨ r.directive? = some .otherwise
  clauses : List.Forall₂ Section.OpenedBy (b.header :: b.branches) (b.sections text)
  contents : (b.sections text).map Section.content = b.contents.map (Stretch.of text)
  within : ∀ c ∈ b.contents, b.header.stop ≤ c.start ∧ c.start ≤ c.stop ∧ c.stop ≤ b.footer.start
  apart : ∀ c ∈ b.contents, ∀ m ∈ markers d text, m.directive? ≠ none →
    m.stop ≤ c.start ∨ c.stop ≤ m.start
  zipped : b.zippedSections text = b.sections text

/-- **Sections partition the block**: the sections of a located block are one more than its branches,
each is announced by its clause, and with the clauses between them and the footer behind them their
contents are what the text has there.  No directive of the text reaches into a content. -/
theorem partitioned_of_locate? {d : Delimiters} {text : Text} {b : Block}
    (located : Block.locate? d text = some b) : Partitioned d text b where
  count := (Block.openedBy_sections located).length_eq.symm
  source := Block.source_eq_weave located
  header := Block.directive?_header located
  branches _ := Block.directive?_of_mem_branches located
  clauses := Block.openedBy_sections located
  contents := Block.contents_sectionsFrom text b.footer.start b.header b.branches
  within _ hc := by
    obtain ⟨start, inOrder, stop, -⟩ :=
      (Block.fits_of_locate? located).branches_between.within_gapsFrom hc
    exact ⟨start, inOrder, stop⟩
  apart _ hc _ := Block.apart_of_mem_contents located hc
  zipped := Block.zippedSections_eq located

/-- Two `#else` branches in front of an `#elseif`, and a variable and an unknown directive between. -/
theorem partitioned_of_locate?_branching :
    let d : Delimiters := ⟨['<'], ['>']⟩
    let text := "<#if q></if>a<#if x == 1>b<n><#else><#odd>\n<<#else >>c<#elseif y></if>d".toList
    let b : Block := ⟨⟨"#if x == 1".toList, 13, 25⟩,
      [⟨"#else".toList, 29, 36⟩, ⟨"#else ".toList, 43, 53⟩, ⟨"#elseif y".toList, 54, 65⟩],
      ⟨"/if".toList, 65, 70⟩⟩
    Block.locate? d text = some b ∧ Partitioned d text b
      ∧ (b.sections text).map Section.content
        = ["b<n>".toList, "<#odd>\n".toList, "c".toList, "".toList] := by
  intro d text b
  have located : Block.locate? d text = some b := by decide +kernel
  exact ⟨located, partitioned_of_locate? located, by decide +kernel⟩

end Stencil
