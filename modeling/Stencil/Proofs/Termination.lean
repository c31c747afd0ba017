import Mathlib.Data.List.Chain
import Stencil.Proofs.Locating
import Stencil.Proofs.Run
import Stencil.Proofs.Seams

/-! # Where a run ends

A pass takes the glyphs of a header and a footer away and adds no glyph, so its text is shorter by
nine characters at least and its glyphs are glyphs of the text before, in their order.  A run therefore
comes to its end, in a text where no footer of a block follows a header.  Such a text has no pass left
whatever the data are.

* `glyphs_apply_sublist`: what one pass does to the glyphs.
* `run_settles`: both for a whole run. -/

namespace Stencil

open Text

/-! ### Glyphs of a pass -/

theorem sublist_content_of_mem_sectionsFrom {text : Text} {stop : Nat} {m : Marker}
    {branches : List Marker} (ordered : Ordered stop m.stop branches) {s : Section}
    (h : s ∈ Block.sectionsFrom text stop m branches) :
    s.content.Sublist ((text.take stop).drop m.stop) := by
  induction branches generalizing m with
  | nil =>
    rw [Block.sectionsFrom, List.mem_singleton] at h
    rw [h, Block.content_ofMarker]
  | cons b bs ih =>
    cases ordered with
    | cons h1 h2 later =>
      have hle := later.le
      rcases List.mem_cons.mp h with rfl | h
      · rw [Block.content_ofMarker]
        exact (List.take_sublist_take_left (by omega)).drop m.stop
      · exact (ih later h).trans (List.drop_sublist_drop_left _ (by omega))

namespace Block

variable {text : Text} {b : Block}

/-- A section of a block holds nothing but what stands inside it. -/
theorem sublist_content_of_mem_sections (fits : b.Fits text) {s : Section}
    (h : s ∈ b.sections text) : s.content.Sublist ((text.take b.stop).drop b.start) := by
  have held := sublist_content_of_mem_sectionsFrom fits.branches_between h
  have starts : b.start ≤ b.header.stop := by
    have := fits.header_wide
    show b.header.start ≤ b.header.stop
    omega
  have stops : b.footer.start ≤ b.stop := by
    have := fits.footer_wide
    show b.footer.start ≤ b.footer.stop
    omega
  have wider : ((text.take b.footer.start).drop b.header.stop).Sublist
      ((text.take b.stop).drop b.header.stop) := (List.take_sublist_take_left stops).drop _
  exact (held.trans wider).trans (List.drop_sublist_drop_left _ starts)

/-- A text is what stands before a block, the block, and what stands after it. -/
theorem eq_around (fits : b.Fits text) :
    text = text.take b.start ++ (text.take b.stop).drop b.start ++ text.drop b.stop := by
  have hle : b.start ≤ b.stop := by
    have h1 := fits.header_wide
    have h2 := fits.branches_between.le
    have h3 := fits.footer_wide
    show b.header.start ≤ b.footer.stop
    omega
  conv => lhs; rw [← List.take_append_drop b.stop text]
  congr 1
  conv => lhs; rw [← List.take_append_drop b.start (text.take b.stop)]
  rw [List.take_take, Nat.min_eq_left hle]

end Block

/-- The glyphs after a pass are glyphs of the text before it, in their order. -/
theorem glyphs_apply_sublist {d : Delimiters} {data : Value} {text : Text} {p : Pass}
    (h : pass? d data text = some (.ok p)) : (glyphs (p.apply text)).Sublist (glyphs text) := by
  obtain ⟨b, located, hs⟩ := Option.map_eq_some_iff.mp h
  cases hsel : select data (b.sections text) with
  | error e => simp [hsel, Except.map] at hs
  | ok s =>
    simp only [hsel, Except.map, Except.ok.injEq] at hs
    subst hs
    have fits := Block.fits_of_locate? located
    have inside : (Pass.content ⟨b, s⟩).Sublist ((text.take b.stop).drop b.start) := by
      cases s with
      | none => exact List.nil_sublist _
      | some s => exact Block.sublist_content_of_mem_sections fits (mem_of_select hsel)
    rw [Pass.apply, glyphs_splice]
    conv => rhs; rw [Block.eq_around fits, glyphs_append, glyphs_append]
    exact ((List.Sublist.refl _).append (inside.filter _)).append (List.Sublist.refl _)

/-! ### Whole runs -/

/-- A pass from one text to the next, and what it does to the length and the glyphs. -/
def Shrinks (d : Delimiters) (data : Value) (text next : Text) : Prop :=
  (∃ p, pass? d data text = some (.ok p) ∧ next = p.apply text)
    ∧ next.length + 9 ≤ text.length ∧ (glyphs next).Sublist (glyphs text)

theorem shrinks_apply {d : Delimiters} {data : Value} {text : Text} {p : Pass}
    (h : pass? d data text = some (.ok p)) : Shrinks d data text (p.apply text) :=
  ⟨⟨p, h, rfl⟩, length_pass_le h, glyphs_apply_sublist h⟩

/-- Every step of a run shrinks the text, also of one that fails in the end. -/
theorem isChain_steps (d : Delimiters) (data : Value) (text : Text) :
    (text :: (run d data text).steps.map (·.text)).IsChain (Shrinks d data) := by
  induction text using run.induct d data with
  | case1 text hp =>
    rw [run_of_none hp]
    exact .singleton text
  | case2 text fault hp =>
    rw [run_of_error hp]
    exact .singleton text
  | case3 text p hp ih =>
    rw [run_of_ok hp]
    exact .cons_cons (shrinks_apply hp) ih

/-- The text that a run returns is the last one that it came to. -/
theorem getLast?_steps {d : Delimiters} {data : Value} {text out : Text}
    (h : resolveBlocks d data text = .ok out) :
    (text :: (run d data text).steps.map (·.text)).getLast? = some out := by
  induction text using run.induct d data with
  | case1 text hp =>
    rw [resolveBlocks_of_none hp, Except.ok.injEq] at h
    rw [run_of_none hp, h]
    rfl
  | case2 text fault hp =>
    rw [resolveBlocks_of_error hp] at h
    simp at h
  | case3 text p hp ih =>
    rw [resolveBlocks_of_ok hp] at h
    rw [run_of_ok hp]
    exact ih h

/-- **A run comes to its end**: if no condition fails, its texts shrink by nine characters a pass
down to the text that it returns, where every footer of a block precedes every header, and which no
run changes any more. -/
theorem run_settles {d : Delimiters} {data : Value} {text : Text} (calm : Calm d data text) :
    (text :: (run d data text).steps.map (·.text)).IsChain (Shrinks d data)
      ∧ ∃ out, resolveBlocks d data text = .ok out
        ∧ (text :: (run d data text).steps.map (·.text)).getLast? = some out
        ∧ ((markers d out).Pairwise fun a b =>
            a.directive? = some .ifHeader → b.directive? ≠ some .endIf)
        ∧ ∀ other, resolveBlocks d other out = .ok out := by
  obtain ⟨out, h⟩ := calm_iff.mp calm
  have settled := locate?_outcome h
  refine ⟨isChain_steps d data text, out, h, getLast?_steps h, ?_, ?_⟩
  · exact Block.pairwise_of_last?_eq_none settled
  · intro other
    exact resolveBlocks_of_none (pass?_eq_none_iff.mpr settled)

/-- A footer without a header, a block inside a block, and a header without a footer. -/
theorem run_settles_nested :
    let d : Delimiters := ⟨['<'], ['>']⟩
    let data : Value := .mapping [("a".toList, .bool true)]
    let text := "</if><#if a>x<#if b>y</if></if><#if c>".toList
    Calm d data text ∧ ∃ out, resolveBlocks d data text = .ok out
      ∧ ((markers d out).Pairwise fun a b =>
          a.directive? = some .ifHeader → b.directive? ≠ some .endIf)
      ∧ ∀ other, resolveBlocks d other out = .ok out := by
  intro d data text
  have calm : Calm d data text := by decide +kernel
  obtain ⟨-, out, resolved, -, settled, fixed⟩ := run_settles calm
  exact ⟨calm, out, resolved, settled, fixed⟩

end Stencil
