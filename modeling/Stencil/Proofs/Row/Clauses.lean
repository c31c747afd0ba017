import Stencil.Proofs.Row.Shown
import Stencil.Proofs.Words

/-! # Clauses of a settled block

A block is settled when no directive is left in its sections.  Its inside is then its first section
and, one after the other, its branches with theirs.

* `Row.Unopened` and `Row.Neutral`: rows without headers, rows without directives.
* `level_joined` and `cutBranches_joined`: clauses that are joined make up the inside of an innermost
  block, and cutting at the branches gives them back. -/

namespace Stencil

/-! ### Rows without directives -/

/-- A row without headers of blocks. -/
def Row.Unopened (w : Row) : Prop := ∀ s ∈ w, s.directive? ≠ some .ifHeader

/-- A row without directives. -/
def Row.Neutral (w : Row) : Prop := ∀ s ∈ w, s.directive? = none

theorem neutral_of_isContent {w : Row} (content : w.IsContent) : w.Neutral := by
  intro s hs
  cases s with
  | char c => rfl
  | marker level body => exact Directive.ofBody?_of_isVariableBody (content _ hs)

theorem unopened_of_neutral {w : Row} (neutral : w.Neutral) : w.Unopened := by
  intro s hs h
  rw [neutral s hs] at h
  simp at h

theorem unopened_of_isContent {w : Row} (content : w.IsContent) : w.Unopened :=
  unopened_of_neutral (neutral_of_isContent content)

theorem unopened_append {u w : Row} (hu : u.Unopened) (hw : w.Unopened) :
    Row.Unopened (u ++ w) := List.forall_mem_append.mpr ⟨hu, hw⟩

theorem level_of_neutral {w : Row} (neutral : w.Neutral) : w.Level := by
  intro s hs
  simp [neutral s hs]

/-! ### Joined clauses -/

/-- Clauses as they stand in a row. -/
def joined (clauses : List (Symbol × Row)) : Row := clauses.flatMap fun c => c.1 :: c.2

/-- Clauses that begin with a branch each and hold no other directive. -/
def AreBranches (clauses : List (Symbol × Row)) : Prop :=
  ∀ c ∈ clauses, c.1.isBranch = true ∧ c.2.Neutral

theorem level_of_isBranch {s : Symbol} (h : s.isBranch = true) :
    s.directive? ≠ some .ifHeader ∧ s.directive? ≠ some .endIf := by
  simp only [Symbol.isBranch, Bool.or_eq_true, decide_eq_true_eq] at h
  rcases h with h | h
  · simp [h]
  · simp [h]

theorem level_joined {clauses : List (Symbol × Row)} (h : AreBranches clauses) :
    (joined clauses).Level := by
  intro s hs
  obtain ⟨c, hc, hs⟩ := List.mem_flatMap.mp hs
  obtain ⟨branch, neutral⟩ := h c hc
  rcases List.mem_cons.mp hs with rfl | hs
  · exact level_of_isBranch branch
  · exact level_of_neutral neutral s hs

theorem cutBranches_append {u : Row} (neutral : u.Neutral) (w : Row) :
    Row.cutBranches (u ++ w) = (u ++ (Row.cutBranches w).1, (Row.cutBranches w).2) := by
  induction u with
  | nil => rfl
  | cons s u ih =>
    obtain ⟨hs, hu⟩ := List.forall_mem_cons.mp neutral
    have no_branch : s.isBranch = false := by simp [Symbol.isBranch, hs]
    rw [List.cons_append, Row.cutBranches, no_branch, if_neg (by simp), ih hu]
    rfl

/-- Clauses are cut apart where they were joined. -/
theorem cutBranches_joined {clauses : List (Symbol × Row)} (h : AreBranches clauses) :
    Row.cutBranches (joined clauses) = ([], clauses) := by
  induction clauses with
  | nil => rfl
  | cons c clauses ih =>
    obtain ⟨⟨branch, neutral⟩, later⟩ := List.forall_mem_cons.mp h
    have e : joined (c :: clauses) = c.1 :: (c.2 ++ joined clauses) := by
      rw [joined, List.flatMap_cons]
      rfl
    rw [e, Row.cutBranches, branch, if_pos rfl, cutBranches_append neutral, ih later,
      List.append_nil]

end Stencil
