import Stencil.Proofs.Words
import Stencil.Report

/-! # The grammar of valid templates

A report checks the directives of a template in one pass, with a stack of open blocks.  It finds
nothing wrong exactly if the markers of the template follow a grammar: a template is a row of
variables, empty markers and blocks, and a block is a header, a template, any number of `#elseif`
markers with a template each, at most one `#else` marker with a template behind all of them, and a
footer.

* `Grammatical` is the grammar, and `OpenBlock.Step` says what a marker without a flaw makes of the
  stack.
* `problems_append`: grammatical markers leave the stack as it was, and show no flaw.
* `closes_of_problems`: markers without a flaw close the open blocks one after the other, and are
  grammatical in between.
* `valid_iff_grammatical` puts both together. -/

namespace Stencil

open Text

/-! ### The grammar -/

/-- A marker that may stand anywhere: it names a variable, or its body is empty. -/
def Marker.IsFree (m : Marker) : Prop := m.isVariable = true ∨ m.body = []

mutual

/-- The markers of a template in which every block is complete. -/
inductive Grammatical : List Marker → Prop where
  | nil : Grammatical []
  | free {m : Marker} {rest : List Marker} : m.IsFree → Grammatical rest →
      Grammatical (m :: rest)
  | block {header footer : Marker} {body branches rest : List Marker} :
      header.directive? = some .ifHeader → Grammatical body → GrammaticalBranches branches →
      footer.directive? = some .endIf → Grammatical rest →
      Grammatical (header :: (body ++ (branches ++ footer :: rest)))

/-- The markers of the branches of a complete block. -/
inductive GrammaticalBranches : List Marker → Prop where
  | none : GrammaticalBranches []
  | elseIf {m : Marker} {body later : List Marker} : m.directive? = some .elseIf →
      Grammatical body → GrammaticalBranches later → GrammaticalBranches (m :: (body ++ later))
  | otherwise {m : Marker} {body : List Marker} : m.directive? = some .otherwise →
      Grammatical body → GrammaticalBranches (m :: body)

end

theorem directive?_of_isFree {m : Marker} (h : m.IsFree) : m.directive? = none := by
  rcases h with named | empty
  · exact Directive.ofBody?_of_isVariableBody named
  · rw [Marker.directive?, empty]
    decide

/-! ### Steps without a flaw -/

namespace OpenBlock

variable {template : Text} {line : Nat} {m : Marker} {stack after : List OpenBlock}

/-- What a marker that shows no flaw makes of the open blocks. -/
inductive Step (line : Nat) (m : Marker) : List OpenBlock → List OpenBlock → Prop where
  | free {stack : List OpenBlock} : m.IsFree → Step line m stack stack
  | header {stack : List OpenBlock} : m.directive? = some .ifHeader →
      Step line m stack (⟨line, false⟩ :: stack)
  | elseIf {opened : Nat} {stack : List OpenBlock} : m.directive? = some .elseIf →
      Step line m (⟨opened, false⟩ :: stack) (⟨opened, false⟩ :: stack)
  | otherwise {opened : Nat} {stack : List OpenBlock} : m.directive? = some .otherwise →
      Step line m (⟨opened, false⟩ :: stack) (⟨opened, true⟩ :: stack)
  | footer {b : OpenBlock} {stack : List OpenBlock} : m.directive? = some .endIf →
      Step line m (b :: stack) stack

theorem next_of_step (h : Step line m stack after) : next line m stack = (after, none) := by
  cases h with
  | free free =>
    have unflawed : (m.isVariable || m.body.isEmpty) = true := by
      rcases free with named | empty
      · rw [named, Bool.true_or]
      · rw [empty, List.isEmpty_nil, Bool.or_true]
    simp [next, directive?_of_isFree free, unflawed]
  | header h => simp [next, h]
  | elseIf h => simp [next, h]
  | otherwise h => simp [next, h]
  | footer h => simp [next, h]

theorem step_of_next (h : (next line m stack).2 = none) :
    Step line m stack (next line m stack).1 := by
  cases directive : m.directive? with
  | none =>
    have free : m.IsFree := by
      simp only [next, directive] at h
      split at h
      · rename_i unflawed
        simpa [Marker.IsFree] using unflawed
      · simp at h
    rw [next_of_step (.free free)]
    exact .free free
  | some k =>
    cases k with
    | ifHeader =>
      rw [next_of_step (.header directive)]
      exact .header directive
    | elseIf =>
      match stack with
      | [] | ⟨_, true⟩ :: _ => simp [next, directive] at h
      | ⟨_, false⟩ :: _ =>
        rw [next_of_step (.elseIf directive)]
        exact .elseIf directive
    | otherwise =>
      match stack with
      | [] | ⟨_, true⟩ :: _ => simp [next, directive] at h
      | ⟨_, false⟩ :: _ =>
        rw [next_of_step (.otherwise directive)]
        exact .otherwise directive
    | endIf =>
      match stack with
      | [] => simp [next, directive] at h
      | _ :: _ =>
        rw [next_of_step (.footer directive)]
        exact .footer directive

/-- A marker that shows no flaw adds no problem. -/
theorem problems_cons_of_step (h : Step (lineNumber template m.start) m stack after)
    (ms : List Marker) : problems template stack (m :: ms) = problems template after ms := by
  simp [problems, next_of_step h]

/-- The first of some markers without a flaw shows none, and neither do the others. -/
theorem exists_step_of_problems {ms : List Marker} (h : problems template stack (m :: ms) = []) :
    ∃ after, Step (lineNumber template m.start) m stack after ∧ problems template after ms = [] := by
  simp only [problems, List.append_eq_nil_iff, List.map_eq_nil_iff, Option.toList_eq_nil_iff] at h
  exact ⟨_, step_of_next h.1, h.2⟩

/-! ### The stack on grammatical markers -/

mutual

/-- Grammatical markers leave the stack as it was. -/
theorem problems_append : {ms : List Marker} → Grammatical ms → (stack : List OpenBlock) →
    (rest : List Marker) → problems template stack (ms ++ rest) = problems template stack rest
  | _, .nil, _, _ => rfl
  | _, .free free later, stack, rest => by
    rw [List.cons_append, problems_cons_of_step (.free free), problems_append later]
  | _, .block header body branches footer later, stack, rest => by
    rw [List.cons_append, problems_cons_of_step (.header header), List.append_assoc,
      problems_append body, List.append_assoc, List.cons_append,
      problems_branches branches footer, problems_append later]

/-- Grammatical branches and the footer behind them close the innermost block. -/
theorem problems_branches {opened : Nat} {footer : Marker} : {ms : List Marker} →
    GrammaticalBranches ms → footer.directive? = some .endIf → {stack : List OpenBlock} →
    {rest : List Marker} → problems template (⟨opened, false⟩ :: stack) (ms ++ footer :: rest)
      = problems template stack rest
  | _, .none, hf, _, _ => problems_cons_of_step (.footer hf) _
  | _, .elseIf branch body later, hf, _, _ => by
    rw [List.cons_append, problems_cons_of_step (.elseIf branch), List.append_assoc,
      problems_append body, problems_branches later hf]
  | _, .otherwise branch body, hf, _, _ => by
    rw [List.cons_append, problems_cons_of_step (.otherwise branch), problems_append body,
      problems_cons_of_step (.footer hf)]

end

/-! ### Markers without a flaw -/

/-- Markers that close the open blocks, the innermost first.  A block whose `#else` has come has no
branch any more. -/
inductive Closes : List OpenBlock → List Marker → Prop where
  | done {ms : List Marker} : Grammatical ms → Closes [] ms
  | close {b : OpenBlock} {stack : List OpenBlock} {footer : Marker}
      {body branches rest : List Marker} :
      Grammatical body → GrammaticalBranches branches → (b.elseSeen = true → branches = []) →
      footer.directive? = some .endIf → Closes stack rest →
      Closes (b :: stack) (body ++ (branches ++ footer :: rest))

/-- What makes grammatical markers grammatical again in front of them may stand in front. -/
theorem Closes.prepend {ms : List Marker} (h : Closes stack ms) (front : List Marker)
    (grows : ∀ rest, Grammatical rest → Grammatical (front ++ rest)) :
    Closes stack (front ++ ms) := by
  cases h with
  | done own => exact .done (grows _ own)
  | close body branches seen footer later =>
    rw [← List.append_assoc]
    exact .close (grows _ body) branches seen footer later

/-- A flawless marker in front of markers that close the blocks that it leaves open. -/
theorem Closes.cons {ms : List Marker} (step : Step line m stack after) (h : Closes after ms) :
    Closes stack (m :: ms) := by
  cases step with
  | free free => exact h.prepend [m] fun _ => .free free
  | header header =>
    cases h with
    | @close _ _ footer body branches _ own others _ last later =>
      have grows (rest : List Marker) (hr : Grammatical rest) :
          Grammatical ((m :: (body ++ (branches ++ [footer]))) ++ rest) := by
        simpa using Grammatical.block header own others last hr
      simpa using later.prepend _ grows
  | @elseIf opened stack branch =>
    cases h with
    | close own others _ last later =>
      have grown := GrammaticalBranches.elseIf branch own others
      simpa using Closes.close (b := ⟨opened, false⟩) .nil grown (by simp) last later
  | @otherwise opened stack branch =>
    cases h with
    | close own others no_branch last later =>
      obtain rfl := no_branch rfl
      have grown := GrammaticalBranches.otherwise branch own
      simpa using Closes.close (b := ⟨opened, false⟩) .nil grown (by simp) last later
  | @footer b stack last => exact .close (b := b) .nil .none (fun _ => rfl) last h

/-- **Markers without a flaw close the open blocks.** -/
theorem closes_of_problems {ms : List Marker} (h : problems template stack ms = []) :
    Closes stack ms := by
  induction ms generalizing stack with
  | nil =>
    cases stack with
    | nil => exact .done .nil
    | cons b stack => simp [problems] at h
  | cons m ms ih =>
    obtain ⟨after, step, later⟩ := exists_step_of_problems h
    exact .cons step (ih later)

theorem grammatical_of_problems {ms : List Marker} (h : problems template [] ms = []) :
    Grammatical ms := by
  cases closes_of_problems h with
  | done own => exact own

end OpenBlock

/-- **A template is valid exactly if its markers follow the grammar.** -/
theorem valid_iff_grammatical (token template : Text) :
    (Report.ofTemplate (Delimiters.ofToken token) template).valid = true
      ↔ Grammatical (markers (Delimiters.ofToken token) template) := by
  rw [Report.valid, List.isEmpty_iff]
  constructor
  · exact OpenBlock.grammatical_of_problems
  · intro h
    have unchanged : OpenBlock.problems template [] _ = [] := OpenBlock.problems_append h [] []
    rwa [List.append_nil] at unchanged

end Stencil
