import Stencil.Proofs.Balance
import Stencil.Proofs.Grammar
import Stencil.Proofs.Row.Clauses

/-! # Nested directives

In a valid template every directive belongs to a block: a header opens it, a footer closes it, and
branches come while it is open.  A pass takes a whole block away and keeps this, so a run that is over
has no directive left.

* `Nested` says how many blocks some directives find open and leave open.
* `nested_of_problems`: the directives of a valid template leave no block open.
* `nested_pass`: a pass keeps directives nested, and `eq_nil_of_nested`: where no block is found there
  is none.
* `isContent_of_valid`: so all that a run leaves of a valid template are characters and variables. -/

namespace Stencil

/-- With so many blocks open, directives that belong to open blocks, and how many they leave open. -/
inductive Nested : Nat → List Directive → Nat → Prop where
  | nil {n : Nat} : Nested n [] n
  | header {n m : Nat} {ds : List Directive} : Nested (n + 1) ds m → Nested n (.ifHeader :: ds) m
  | branch {n m : Nat} {x : Directive} {ds : List Directive} : x ≠ .ifHeader → x ≠ .endIf →
      Nested (n + 1) ds m → Nested (n + 1) (x :: ds) m
  | footer {n m : Nat} {ds : List Directive} : Nested n ds m → Nested (n + 1) (.endIf :: ds) m

section nested
variable {n k m : Nat} {xs ys : List Directive}

theorem nested_append (hx : Nested n xs k) (hy : Nested k ys m) : Nested n (xs ++ ys) m := by
  induction hx with
  | nil => exact hy
  | header _ ih => exact .header (ih hy)
  | branch no_header no_footer _ ih => exact .branch no_header no_footer (ih hy)
  | footer _ ih => exact .footer (ih hy)

theorem exists_nested_of_append (h : Nested n (xs ++ ys) m) :
    ∃ k, Nested n xs k ∧ Nested k ys m := by
  induction xs generalizing n with
  | nil => exact ⟨n, .nil, h⟩
  | cons x xs ih =>
    cases h with
    | header later =>
      obtain ⟨k, hx, hy⟩ := ih later
      exact ⟨k, .header hx, hy⟩
    | branch no_header no_footer later =>
      obtain ⟨k, hx, hy⟩ := ih later
      exact ⟨k, .branch no_header no_footer hx, hy⟩
    | footer later =>
      obtain ⟨k, hx, hy⟩ := ih later
      exact ⟨k, .footer hx, hy⟩

/-- Directives that neither open nor close a block leave open what they find open. -/
theorem eq_of_inside (inside : Inside xs) (h : Nested n xs m) : m = n := by
  induction h with
  | nil => rfl
  | header => exact absurd rfl (inside _ List.mem_cons_self).1
  | branch _ _ _ ih => exact ih (List.forall_mem_cons.mp inside).2
  | footer => exact absurd rfl (inside _ List.mem_cons_self).2

/-- Where a block is taken out of nested directives, the others are nested as before. -/
theorem nested_of_block {before inner after : List Directive} (inside : Inside inner)
    (h : Nested n (before ++ .ifHeader :: (inner ++ .endIf :: after)) m) :
    Nested n (before ++ after) m := by
  obtain ⟨k, front, h⟩ := exists_nested_of_append h
  cases h with
  | branch no_header => exact absurd rfl no_header
  | header h =>
    obtain ⟨j, own, h⟩ := exists_nested_of_append h
    obtain rfl := eq_of_inside inside own
    cases h with
    | branch _ no_footer => exact absurd rfl no_footer
    | footer back => exact nested_append front back

/-- Without a footer no block is closed. -/
theorem le_of_nested (h : Nested n xs m) (no_footer : .endIf ∉ xs) : n ≤ m := by
  induction h with
  | nil => exact Nat.le_refl _
  | header _ ih => exact Nat.le_of_succ_le (ih fun h => no_footer (List.mem_cons_of_mem _ h))
  | branch _ _ _ ih => exact ih fun h => no_footer (List.mem_cons_of_mem _ h)
  | footer => exact absurd List.mem_cons_self no_footer

/-- Where no footer follows a header, no directive is nested. -/
theorem eq_nil_of_nested (h : Nested 0 xs 0)
    (settled : xs.Pairwise fun x y => x = .ifHeader → y ≠ .endIf) : xs = [] := by
  cases h with
  | nil => rfl
  | header later =>
    have no_footer := (List.pairwise_cons.mp settled).1
    exact absurd (le_of_nested later fun h => no_footer _ h rfl rfl) (by omega)

end nested

/-! ### Valid templates -/

section problems
variable {template : Text} {stack : List OpenBlock} {ms : List Marker}

/-- The directives of markers without a flaw close the open blocks. -/
theorem nested_of_problems (h : OpenBlock.problems template stack ms = []) :
    Nested stack.length (ms.filterMap Marker.directive?) 0 := by
  induction ms generalizing stack with
  | nil =>
    obtain rfl : stack = [] := by simpa [OpenBlock.problems] using h
    exact .nil
  | cons m ms ih =>
    obtain ⟨after, step, later⟩ := OpenBlock.exists_step_of_problems h
    have nested := ih later
    cases step with
    | free free => simpa [directive?_of_isFree free] using nested
    | header directive => simpa [directive] using Nested.header nested
    | elseIf directive => simpa [directive] using Nested.branch (by simp) (by simp) nested
    | otherwise directive => simpa [directive] using Nested.branch (by simp) (by simp) nested
    | footer directive => simpa [directive] using Nested.footer nested

/-- A marker without a flaw that writes no directive may stand anywhere. -/
theorem isFree_of_problems (h : OpenBlock.problems template stack ms = []) :
    ∀ m ∈ ms, m.directive? = none → m.IsFree := by
  induction ms generalizing stack with
  | nil => exact List.forall_mem_nil _
  | cons m ms ih =>
    obtain ⟨after, step, later⟩ := OpenBlock.exists_step_of_problems h
    refine List.forall_mem_cons.mpr ⟨fun none_written => ?_, ih later⟩
    cases step with
    | free free => exact free
    | header directive => simp [none_written] at directive
    | elseIf directive => simp [none_written] at directive
    | otherwise directive => simp [none_written] at directive
    | footer directive => simp [none_written] at directive

end problems

/-! ### Passes and runs -/

section run
variable {d : Delimiters} {data : Value} {w r : Row} {b : RowBlock}

/-- Cutting at the branches leaves no branch in the contents. -/
theorem no_branch_of_cutBranches (w : Row) : (∀ s ∈ (Row.cutBranches w).1, s.isBranch = false)
    ∧ ∀ c ∈ (Row.cutBranches w).2, ∀ s ∈ c.2, s.isBranch = false := by
  induction w with
  | nil => exact ⟨List.forall_mem_nil _, List.forall_mem_nil _⟩
  | cons s w ih =>
    rw [Row.cutBranches]
    split
    · exact ⟨List.forall_mem_nil _, List.forall_mem_cons.mpr ih⟩
    · rename_i no_branch
      exact ⟨List.forall_mem_cons.mpr ⟨by simpa using no_branch, ih.1⟩, ih.2⟩

/-- What is chosen of an innermost block holds no directive. -/
theorem neutral_of_chooseClause (hb : b.Innermost) (hr : chooseClause data b.clauses = .ok r) :
    r.Neutral := by
  intro s hs
  have level := hb.inner s (subset_of_chooseClause hr s hs)
  have no_branch : s.isBranch = false := by
    obtain ⟨first, others⟩ := no_branch_of_cutBranches b.inner
    rcases mem_of_chooseClause hr with rfl | ⟨c, hc, rfl⟩
    · simp at hs
    · rcases List.mem_cons.mp hc with rfl | hc
      · exact first s hs
      · exact others c hc s hs
  cases directive : s.directive? with
  | none => rfl
  | some x => cases x <;> simp [directive, Symbol.isBranch] at level no_branch

/-- **A pass keeps directives nested.** -/
theorem nested_pass {n m : Nat} (hb : Row.block? w = some b)
    (hr : chooseClause data b.clauses = .ok r) (h : Nested n w.directives m) :
    Nested n (Row.directives (b.before ++ r ++ b.after)) m := by
  obtain ⟨rfl, innermost⟩ := Row.block?_eq_some hb
  have none_chosen : r.directives = [] :=
    List.filterMap_eq_nil_iff.mpr (neutral_of_chooseClause innermost hr)
  rw [directives_row innermost] at h
  rw [Row.directives_append, Row.directives_append, none_chosen, List.append_nil]
  exact nested_of_block (inside_of_level innermost.inner) h

theorem Settles.nested {n m k : Nat} {out : Row} (h : Settles data k w out)
    (nested : Nested n w.directives m) : Nested n out.directives m := by
  induction h with
  | done => exact nested
  | pass hb hr _ ih => exact ih (nested_pass hb hr nested)

/-- **A run leaves no directive of a valid template.** -/
theorem directives_of_valid (solid : d.Solid) (clean : w.Clean d)
    (valid : (Report.ofTemplate d (w.print d)).valid = true) {out : Text}
    (resolved : resolveBlocks d data (w.print d) = .ok out) : directives d out = [] := by
  obtain ⟨left, clean_left, rfl, settles⟩ := settles_of_resolveBlocks solid clean resolved
  have nested := nested_of_problems (List.isEmpty_iff.mp valid)
  rw [← directives, Row.directives_print solid.usable clean, ← Row.directives_core] at nested
  have left_nested := settles.nested nested
  rw [Row.directives_core, ← Row.directives_print solid.usable clean_left] at left_nested
  exact eq_nil_of_nested left_nested (pairwise_directives resolved)

/-- **All that a run leaves of a valid template are characters and variables.** -/
theorem isContent_of_valid (solid : d.Solid) (clean : w.Clean d)
    (valid : (Report.ofTemplate d (w.print d)).valid = true) {left : Row}
    (resolved : w.resolve data = .ok left) : left.IsContent := by
  have legible := clean.legible solid.usable
  have clean_left := clean_of_resolve solid clean resolved
  have printed : resolveBlocks d data (w.print d) = .ok (left.print d) := by
    rw [resolveBlocks_print solid legible, resolved]
    rfl
  have none_left := directives_of_valid solid clean valid printed
  rw [Row.directives_print solid.usable clean_left] at none_left
  intro s hs
  cases s with
  | char c => trivial
  | marker level body =>
    -- The marker stood in the template, where an unknown directive would have been a flaw.
    have no_directive := List.filterMap_eq_nil_iff.mp none_left _ hs
    rcases Row.mem_of_mem_resolve resolved _ hs with hw | blank
    · obtain ⟨m, hm, rfl⟩ := exists_mem_markers d hw 0
      rw [← markers_print solid.usable legible] at hm
      rcases isFree_of_problems (List.isEmpty_iff.mp valid) m hm no_directive with named | empty
      · exact named
      · exact absurd empty (clean _ hw).2.1
    · simp [Symbol.isBlank] at blank

end run
end Stencil
