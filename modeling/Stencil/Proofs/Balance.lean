import Stencil.Proofs.Row.Run
import Stencil.Proofs.Termination
import Stencil.Report

/-! # Headers without a footer, footers without a header

The report on a template matches headers and footers in one pass with a stack; a run takes the last
innermost pair away again and again.  Both are compared through the balance of a row of directives:
how many headers stay open, and how many footers come with no header open.

* `balance_problems`: the stack of the report computes the balance.
* `Settles.balance_eq`: no pass changes the balance, whatever clause it chooses.
* `balance_of_pairwise`: where every footer precedes every header, nothing is matched.
* `leftovers_eq_problems`: the headers and footers that a run leaves are those that the report
  lists. -/

namespace Stencil

/-! ### Directives of a text -/

/-- The directives that the markers of a text write, left to right. -/
def directives (d : Delimiters) (text : Text) : List Directive :=
  (markers d text).filterMap Marker.directive?

/-- The directives that the symbols of a row write. -/
def Row.directives (w : Row) : List Directive := w.filterMap Symbol.directive?

namespace Row

theorem directives_cons (s : Symbol) (w : Row) :
    directives (s :: w) = s.directive?.toList ++ directives w := by
  rw [directives, List.filterMap_cons]
  cases s.directive? <;> rfl

theorem directives_append (u w : Row) : directives (u ++ w) = directives u ++ directives w :=
  List.filterMap_append

theorem directives_markers (d : Delimiters) (w : Row) (position : Nat) :
    (w.markers d position).filterMap Marker.directive? = w.directives := by
  induction w generalizing position with
  | nil => rfl
  | cons s w ih =>
    rw [directives_cons]
    cases s with
    | char c => exact ih (position + 1)
    | marker level body =>
      rw [Row.markers, List.filterMap_cons, directive?_markerAt, ih]
      cases (Symbol.marker level body).directive? <;> rfl

/-- The directives of a printed row are those that were printed. -/
theorem directives_of_legible {d : Delimiters} (usable : d.usable = true) {w : Row}
    (legible : w.Legible d) : Stencil.directives d (w.print d) = w.directives := by
  rw [Stencil.directives, markers_print usable legible, directives_markers]

theorem directives_print {d : Delimiters} (usable : d.usable = true) {w : Row}
    (clean : w.Clean d) : Stencil.directives d (w.print d) = w.directives :=
  directives_of_legible usable (clean.legible usable)

theorem directives_core (w : Row) : w.core.directives = w.directives := by
  induction w with
  | nil => rfl
  | cons s w ih =>
    rw [core_cons, directives_cons s w]
    cases blank : s.isBlank with
    | true =>
      rw [if_pos rfl, ih, Symbol.directive?_of_isBlank blank]
      rfl
    | false => rw [if_neg (by simp), directives_cons, Symbol.directive?_plain, ih]

end Row

/-! ### Balances -/

/-- How many headers are open, and how many footers came when none was. -/
structure Balance where
  opened : Nat
  stray : Nat
deriving DecidableEq, Repr

namespace Balance

/-- The balance after one more directive. -/
def next (b : Balance) : Directive → Balance
  | .ifHeader => { b with opened := b.opened + 1 }
  | .endIf =>
    if b.opened = 0 then { b with stray := b.stray + 1 } else { b with opened := b.opened - 1 }
  | .elseIf | .otherwise => b

/-- The balance after a row of directives. -/
def after (b : Balance) (ds : List Directive) : Balance := ds.foldl next b

@[simp] theorem after_nil (b : Balance) : b.after [] = b := rfl

theorem after_cons (b : Balance) (x : Directive) (ds : List Directive) :
    b.after (x :: ds) = (b.next x).after ds := rfl

theorem after_append (b : Balance) (xs ys : List Directive) :
    b.after (xs ++ ys) = (b.after xs).after ys := List.foldl_append

end Balance

/-- Directives that neither open nor close a block. -/
def Inside (ds : List Directive) : Prop := ∀ x ∈ ds, x ≠ .ifHeader ∧ x ≠ .endIf

theorem inside_of_level {w : Row} (level : w.Level) : Inside w.directives := by
  intro x hx
  obtain ⟨s, hs, e⟩ := List.mem_filterMap.mp hx
  obtain ⟨h1, h2⟩ := level s hs
  constructor
  · rintro rfl
    exact h1 e
  · rintro rfl
    exact h2 e

theorem after_of_inside {ds : List Directive} (inside : Inside ds) (b : Balance) :
    b.after ds = b := by
  induction ds with
  | nil => rfl
  | cons x ds ih =>
    obtain ⟨⟨h1, h2⟩, later⟩ := List.forall_mem_cons.mp inside
    have same : b.next x = b := by
      cases x with
      | ifHeader => exact absurd rfl h1
      | endIf => exact absurd rfl h2
      | elseIf => rfl
      | otherwise => rfl
    rw [Balance.after_cons, same, ih later]

/-! ### The balance of a report -/

/-- The problems of a report that are a certain flaw. -/
def countFlaw (flaw : Flaw) (problems : List Problem) : Nat := problems.countP (·.flaw = flaw)

theorem countFlaw_append (flaw : Flaw) (ps qs : List Problem) :
    countFlaw flaw (ps ++ qs) = countFlaw flaw ps + countFlaw flaw qs := List.countP_append

/-- One marker changes the stack of a report as it changes the balance. -/
theorem balance_next (line : Nat) (m : Marker) (stack : List OpenBlock) (stray : Nat) :
    (⟨stack.length, stray⟩ : Balance).after m.directive?.toList
      = ⟨(OpenBlock.next line m stack).1.length,
          stray + if (OpenBlock.next line m stack).2 = some .endWithoutIf then 1 else 0⟩ := by
  unfold OpenBlock.next
  split
  · rename_i h
    rw [h]
    rfl
  · rename_i h
    rw [h]
    rfl
  · rename_i b stack h
    obtain ⟨opened, seen⟩ := b
    rw [h]
    cases seen <;> rfl
  · rename_i h
    rw [h]
    rfl
  · rename_i b stack h
    obtain ⟨opened, seen⟩ := b
    rw [h]
    cases seen <;> rfl
  · rename_i h
    rw [h]
    rfl
  · rename_i h
    rw [h]
    rfl
  · rename_i h
    rw [h]
    split <;> simp

/-- No marker shows that a block is never closed. -/
theorem next_ne_neverClosed (line : Nat) (m : Marker) (stack : List OpenBlock) :
    (OpenBlock.next line m stack).2 ≠ some .neverClosed := by
  unfold OpenBlock.next
  split
  all_goals try split
  all_goals simp

/-- **The stack of a report computes the balance**: at the end the open blocks are the headers never
closed, and the footers without a header are counted as they come. -/
theorem balance_problems (template : Text) (stack : List OpenBlock) (ms : List Marker)
    (stray : Nat) :
    (⟨stack.length, stray⟩ : Balance).after (ms.filterMap Marker.directive?)
      = ⟨countFlaw .neverClosed (OpenBlock.problems template stack ms),
          stray + countFlaw .endWithoutIf (OpenBlock.problems template stack ms)⟩ := by
  induction ms generalizing stack stray with
  | nil =>
    have never : countFlaw .neverClosed (OpenBlock.problems template stack []) = stack.length := by
      simp [OpenBlock.problems, countFlaw, List.countP_map, Function.comp_def]
    have none_stray : countFlaw .endWithoutIf (OpenBlock.problems template stack []) = 0 := by
      simp [OpenBlock.problems, countFlaw, List.countP_map, Function.comp_def]
    rw [never, none_stray]
    rfl
  | cons m ms ih =>
    rw [OpenBlock.problems]
    generalize Text.lineNumber template m.start = line
    have head : List.filterMap Marker.directive? (m :: ms)
        = m.directive?.toList ++ ms.filterMap Marker.directive? := by
      rw [List.filterMap_cons]
      cases m.directive? <;> rfl
    have never := next_ne_neverClosed line m stack
    rw [countFlaw_append, countFlaw_append, head, Balance.after_append, balance_next line, ih]
    cases hf : (OpenBlock.next line m stack).2 with
    | none => simp [countFlaw]
    | some flaw =>
      rw [hf, ne_eq, Option.some.injEq] at never
      simp [countFlaw, never, List.countP_singleton, Nat.add_assoc]

/-! ### The balance of a run -/

section pass
variable {data : Value} {w r : Row} {b : RowBlock}

theorem directives_row (hb : b.Innermost) : b.row.directives = b.before.directives
    ++ .ifHeader :: (b.inner.directives ++ .endIf :: b.after.directives) := by
  rw [RowBlock.row, Row.directives_append, Row.directives_cons, Row.directives_append,
    Row.directives_cons, hb.header, hb.footer]
  rfl

theorem inside_of_chooseClause (hb : Row.block? w = some b)
    (hr : chooseClause data b.clauses = .ok r) : Inside r.directives :=
  inside_of_level fun s hs => (Row.block?_eq_some hb).2.inner s (subset_of_chooseClause hr s hs)

/-- A pass takes one header away, and a footer that it matches. -/
theorem balance_pass (hb : Row.block? w = some b) (hr : chooseClause data b.clauses = .ok r)
    (t : Balance) :
    t.after w.directives = t.after (Row.directives (b.before ++ r ++ b.after))
      ∧ w.directives.count .ifHeader
        = (Row.directives (b.before ++ r ++ b.after)).count .ifHeader + 1 := by
  obtain ⟨rfl, innermost⟩ := Row.block?_eq_some hb
  have inner := inside_of_level innermost.inner
  have chosen := inside_of_chooseClause hb hr
  have no_header {ds : List Directive} (inside : Inside ds) : ds.count .ifHeader = 0 :=
    List.count_eq_zero.mpr fun h => (inside _ h).1 rfl
  rw [directives_row innermost, Row.directives_append, Row.directives_append]
  constructor
  · rw [Balance.after_append, Balance.after_cons, Balance.after_append, after_of_inside inner,
      Balance.after_append, Balance.after_append, after_of_inside chosen]
    rfl
  · have h1 := no_header inner
    have h2 := no_header chosen
    simp only [List.count_append, List.count_cons_self, h1, h2,
      List.count_cons_of_ne (show Directive.endIf ≠ .ifHeader by simp)]
    omega

end pass

/-- A run keeps the balance, and every pass of it takes one header away. -/
theorem Settles.balance_eq {data : Value} {n : Nat} {w out : Row} (h : Settles data n w out)
    (t : Balance) : t.after w.directives = t.after out.directives
      ∧ w.directives.count .ifHeader = out.directives.count .ifHeader + n := by
  induction h with
  | done => exact ⟨rfl, rfl⟩
  | pass hb hr _ ih =>
    obtain ⟨same, fewer⟩ := balance_pass hb hr t
    refine ⟨same.trans ih.1, ?_⟩
    rw [fewer, ih.2]
    rfl

/-- Where no footer follows a header, every header stays open and every footer is stray. -/
theorem after_of_pairwise {ds : List Directive}
    (settled : ds.Pairwise fun x y => x = .ifHeader → y ≠ .endIf) {t : Balance}
    (ready : 0 < t.opened → .endIf ∉ ds) :
    t.after ds = ⟨t.opened + ds.count .ifHeader, t.stray + ds.count .endIf⟩ := by
  induction ds generalizing t with
  | nil => rfl
  | cons x ds ih =>
    obtain ⟨hx, later⟩ := List.pairwise_cons.mp settled
    have ready_later : 0 < t.opened → .endIf ∉ ds :=
      fun h hm => ready h (List.mem_cons_of_mem x hm)
    rw [Balance.after_cons]
    cases x with
    | ifHeader =>
      rw [ih later fun _ h => hx _ h rfl rfl]
      simp [Balance.next, Nat.add_assoc, Nat.add_comm 1]
    | endIf =>
      have closed : t.opened = 0 := by
        by_contra h
        exact ready (Nat.pos_of_ne_zero h) List.mem_cons_self
      rw [ih later (by simp [Balance.next, closed])]
      simp [Balance.next, closed, Nat.add_assoc, Nat.add_comm 1]
    | elseIf | otherwise =>
      rw [Balance.next, ih later ready_later]
      simp

/-- In the text that a run returns no footer follows a header. -/
theorem pairwise_directives {d : Delimiters} {data : Value} {text out : Text}
    (resolved : resolveBlocks d data text = .ok out) :
    (directives d out).Pairwise fun x y => x = .ifHeader → y ≠ .endIf := by
  apply List.pairwise_filterMap.mpr
  refine (Block.pairwise_of_last?_eq_none (locate?_outcome resolved)).imp ?_
  rintro a b apart x hx y hy rfl rfl
  exact apart hx hy

/-- **The report agrees with the run.**  For delimiters without blanks, let the markers of a template
be those that were written on purpose.  If no condition fails, the headers that a run leaves are as
many as the report finds never closed, the footers that it leaves as many as the report finds without
a header, and the other headers are as many as the passes of the run. -/
theorem leftovers_eq_problems {d : Delimiters} (solid : d.Solid) {w : Row} (clean : w.Clean d)
    {data : Value} (calm : Calm d data (w.print d)) :
    ∃ out, resolveBlocks d data (w.print d) = .ok out
      ∧ (directives d out).count .ifHeader
        = countFlaw .neverClosed (Report.ofTemplate d (w.print d)).problems
      ∧ (directives d out).count .endIf
        = countFlaw .endWithoutIf (Report.ofTemplate d (w.print d)).problems
      ∧ (directives d (w.print d)).count .ifHeader = (run d data (w.print d)).steps.length
        + countFlaw .neverClosed (Report.ofTemplate d (w.print d)).problems := by
  obtain ⟨out, resolved⟩ := calm_iff.mp calm
  obtain ⟨left, clean_left, rfl, settles⟩ := settles_of_resolveBlocks solid clean resolved
  obtain ⟨same, fewer⟩ := settles.balance_eq ⟨0, 0⟩
  rw [Row.directives_core, Row.directives_core, ← Row.directives_print solid.usable clean,
    ← Row.directives_print solid.usable clean_left] at same fewer
  have settled := pairwise_directives resolved
  have reported := balance_problems (w.print d) [] (markers d (w.print d)) 0
  have unmatched := after_of_pairwise (t := ⟨0, 0⟩) settled (fun h => absurd h (Nat.lt_irrefl 0))
  rw [← same] at unmatched
  have agree := reported.symm.trans unmatched
  simp only [Nat.zero_add, Balance.mk.injEq] at agree
  refine ⟨left.print d, resolved, agree.1.symm, agree.2.symm, ?_⟩
  rw [fewer, ← agree.1, Nat.add_comm]
  rfl

/-- A footer without a header, a block inside a block, and a header without a footer. -/
theorem leftovers_eq_problems_nested :
    let d : Delimiters := ⟨['<'], ['>']⟩
    let data : Value := .mapping [("a".toList, .bool true)]
    let w : Row := [.marker 2 "/if".toList, .marker 1 "#if a".toList, .char 'x',
      .marker 1 "#if b".toList, .char 'y', .marker 3 "/if ".toList, .marker 1 "#else".toList,
      .marker 1 "/if".toList, .marker 1 "#if c".toList, .marker 1 "name".toList]
    d.Solid ∧ w.Clean d ∧ Calm d data (w.print d) ∧ ∃ out, resolveBlocks d data (w.print d) = .ok out
      ∧ (directives d out).count .ifHeader
        = countFlaw .neverClosed (Report.ofTemplate d (w.print d)).problems
      ∧ (directives d out).count .endIf
        = countFlaw .endWithoutIf (Report.ofTemplate d (w.print d)).problems := by
  intro d data w
  have solid : d.Solid := by decide
  have clean : w.Clean d := by decide
  have calm : Calm d data (w.print d) := by decide +kernel
  obtain ⟨out, resolved, headers, footers, -⟩ := leftovers_eq_problems solid clean calm
  exact ⟨solid, clean, calm, out, resolved, headers, footers⟩

end Stencil
