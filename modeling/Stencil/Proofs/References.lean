import Stencil.Proofs.Row.Shown
import Stencil.Report

/-! # What a template asks of its data

A rendering looks up paths and evaluates conditions in texts that were rewritten many times.  The
report on a template lists the paths and conditions of the text as it was written.  For delimiters
without blanks nothing else is ever asked, because every marker of a rewritten text is one of the
template.

* `agree_next`: where two contexts agree on all that a row asks, they agree on the row after a pass.
* `exists_resolve_of_agree` and `exists_shown_of_agree`: so their runs go the same way, and show the
  same text in the end.
* `render_eq_of_report`: two contexts that agree on what a report lists render the template alike. -/

namespace Stencil

open Text

/-! ### Contexts that agree -/

/-- Two contexts test a condition with the same result, and without a fault. -/
def AgreeOnCondition (data other : Value) (condition : Text) : Prop :=
  ∃ holds, evaluate (some condition) data = .ok holds ∧ evaluate (some condition) other = .ok holds

/-- Two contexts show the same text where a path leads, and without a fault. -/
def AgreeOnPath (data other : Value) (path : Text) : Prop :=
  ∃ text, Value.shownAt path data = .ok text ∧ Value.shownAt path other = .ok text

/-- Two contexts agree on everything that a report lists. -/
structure Report.Agree (data other : Value) (r : Report) : Prop where
  paths : ∀ path ∈ r.paths, AgreeOnPath data other path
  conditions : ∀ condition ∈ r.conditions, AgreeOnCondition data other condition

section decidable
variable (data other : Value)

/-- It can be told whether two outcomes are the same and no fault. -/
instance decidableSameOutcome {α : Type} [DecidableEq α] :
    (x y : Except Fault α) → Decidable (∃ a, x = .ok a ∧ y = .ok a)
  | .ok a, .ok b => decidable_of_iff (b = a) (by simp)
  | .error _, _ => .isFalse (by simp)
  | .ok _, .error _ => .isFalse (by simp)

instance (path : Text) : Decidable (AgreeOnPath data other path) :=
  decidableSameOutcome (Value.shownAt path data) _

instance (condition : Text) : Decidable (AgreeOnCondition data other condition) :=
  decidableSameOutcome (evaluate (some condition) data) _

instance (r : Report) : Decidable (r.Agree data other) :=
  decidable_of_iff ((∀ path ∈ r.paths, AgreeOnPath data other path)
      ∧ ∀ condition ∈ r.conditions, AgreeOnCondition data other condition)
    ⟨fun ⟨paths, conditions⟩ => ⟨paths, conditions⟩, fun h => ⟨h.paths, h.conditions⟩⟩

end decidable

/-- Two contexts agree on everything that a symbol can ask. -/
structure Symbol.Agree (data other : Value) (s : Symbol) : Prop where
  path : isVariableBody s.body = true → AgreeOnPath data other (trim s.body)
  condition : s.directive? = some .ifHeader ∨ s.directive? = some .elseIf →
    AgreeOnCondition data other (argumentOf s.body)

theorem Symbol.agree_char (data other : Value) (c : Char) : (Symbol.char c).Agree data other :=
  ⟨by simp [Symbol.body, isVariableBody], by simp [Symbol.directive?]⟩

/-- Two contexts agree on everything that a row can ask. -/
def Row.Agree (data other : Value) (w : Row) : Prop := ∀ s ∈ w, s.Agree data other

/-! ### Runs with contexts that agree -/

section run
variable {data other : Value} {w : Row}

theorem isBranch_of_mem_cutBranches {c : Symbol × Row} (h : c ∈ (Row.cutBranches w).2) :
    c.1.isBranch = true := by
  induction w with
  | nil => simp [Row.cutBranches] at h
  | cons s w ih =>
    rw [Row.cutBranches] at h
    split at h
    · rename_i branch
      rcases List.mem_cons.mp h with rfl | h
      · exact branch
      · exact ih h
    · exact ih h

/-- The clauses of a block are opened by symbols of its row, a header and branches. -/
theorem mem_row_of_mem_clauses {b : RowBlock} (hb : b.Innermost) {c : Symbol × Row}
    (h : c ∈ b.clauses) : c.1 ∈ b.row ∧ (c.1.directive? = some .ifHeader ∨ c.1.isBranch = true) := by
  rcases List.mem_cons.mp h with rfl | h
  · exact ⟨List.mem_append_right _ List.mem_cons_self, .inl hb.header⟩
  · have inside : c.1 ∈ b.inner := by
      rw [← Row.append_cutBranches b.inner]
      exact List.mem_append_right _ (List.mem_flatMap.mpr ⟨c, h, List.mem_cons_self⟩)
    refine ⟨?_, .inr (isBranch_of_mem_cutBranches h)⟩
    exact List.mem_append_right _ (List.mem_cons_of_mem _ (List.mem_append_left _ inside))

theorem exists_chooseClause_of_agree {clauses : List (Symbol × Row)}
    (agree : ∀ c ∈ clauses, c.1.Agree data other)
    (opened : ∀ c ∈ clauses, c.1.directive? = some .ifHeader ∨ c.1.isBranch = true) :
    ∃ r, chooseClause data clauses = .ok r ∧ chooseClause other clauses = .ok r := by
  induction clauses with
  | nil => exact ⟨[], rfl, rfl⟩
  | cons c clauses ih =>
    obtain ⟨hc, later⟩ := List.forall_mem_cons.mp agree
    obtain ⟨oc, opened_later⟩ := List.forall_mem_cons.mp opened
    rw [chooseClause, chooseClause]
    by_cases otherwise : c.1.directive? = some .otherwise
    · exact ⟨c.2, if_pos otherwise, if_pos otherwise⟩
    · have asks : c.1.directive? = some .ifHeader ∨ c.1.directive? = some .elseIf := by
        simpa [Symbol.isBranch, otherwise] using oc
      obtain ⟨holds, h1, h2⟩ := hc.condition asks
      rw [if_neg otherwise, if_neg otherwise, ok_bind h1, ok_bind h2]
      cases holds with
      | true => exact ⟨c.2, rfl, rfl⟩
      | false => exact ih later opened_later

/-- Two contexts that agree on what a row asks choose the same clause of its block. -/
theorem exists_chooseClause_of_block? (agree : w.Agree data other) {b : RowBlock}
    (hb : Row.block? w = some b) :
    ∃ r, chooseClause data b.clauses = .ok r ∧ chooseClause other b.clauses = .ok r := by
  obtain ⟨rfl, innermost⟩ := Row.block?_eq_some hb
  exact exists_chooseClause_of_agree (fun c hc => agree _ (mem_row_of_mem_clauses innermost hc).1)
    (fun c hc => (mem_row_of_mem_clauses innermost hc).2)

/-- Where two contexts agree on what a row asks, a pass asks nothing new. -/
theorem agree_next (agree : w.Agree data other) {b : RowBlock} (hb : Row.block? w = some b) {r : Row}
    (hr : chooseClause data b.clauses = .ok r) :
    (Row.splice b.before r b.after).Agree data other := by
  intro s hs
  rcases mem_of_mem_next hb hr hs with hs | blank
  · exact agree s hs
  · cases s with
    | char c => exact Symbol.agree_char data other c
    | marker level body => simp [Symbol.isBlank] at blank

/-- Two contexts that agree on what a row asks leave the same of it, and agree on what is left. -/
theorem exists_resolve_of_agree (agree : w.Agree data other) :
    ∃ left, w.resolve data = .ok left ∧ w.resolve other = .ok left ∧ left.Agree data other := by
  -- Along the run of the first context; the second one chooses the same clause at every pass.
  induction w using Row.resolve.induct data with
  | case1 w hb => exact ⟨w, Row.resolve_of_none hb, Row.resolve_of_none hb, agree⟩
  | case2 w b hb fault hr =>
    obtain ⟨r, h1, -⟩ := exists_chooseClause_of_block? agree hb
    rw [hr] at h1
    simp at h1
  | case3 w b hb r hr ih =>
    obtain ⟨left, h1, h2, agree_left⟩ := ih (agree_next agree hb hr)
    obtain ⟨r', hr', hr_other⟩ := exists_chooseClause_of_block? agree hb
    obtain rfl := Except.ok.inj (hr.symm.trans hr')
    rw [Row.resolve_of_ok hb hr, Row.resolve_of_ok hb hr_other]
    exact ⟨left, h1, h2, agree_left⟩

theorem exists_shown_of_agree (d : Delimiters) (agree : w.Agree data other) :
    ∃ text, w.shown d data = .ok text ∧ w.shown d other = .ok text := by
  induction w with
  | nil => exact ⟨[], rfl, rfl⟩
  | cons s w ih =>
    obtain ⟨hs, hw⟩ := List.forall_mem_cons.mp agree
    obtain ⟨rest, h1, h2⟩ := ih hw
    have first : ∃ text, s.shown d data = .ok text ∧ s.shown d other = .ok text := by
      cases s with
      | char c => exact ⟨[c], rfl, rfl⟩
      | marker level body =>
        rw [Symbol.shown, Symbol.shown]
        split
        · exact hs.path ‹_›
        · exact ⟨_, rfl, rfl⟩
    obtain ⟨text, f1, f2⟩ := first
    refine ⟨text ++ rest, ?_, ?_⟩
    · rw [Row.shown, ok_bind f1, ok_bind h1]
      rfl
    · rw [Row.shown, ok_bind f2, ok_bind h2]
      rfl

end run

/-! ### What a report lists -/

theorem mem_foldl_known {path : Text} (paths known : List Text) (h : path ∈ known ∨ path ∈ paths) :
    path ∈ paths.foldl
      (fun known path => if known.contains path then known else known ++ [path]) known := by
  induction paths generalizing known with
  | nil => simpa using h
  | cons p paths ih =>
    rw [List.foldl_cons]
    apply ih
    by_cases seen : known.contains p = true
    · rw [if_pos seen]
      rcases h with h | h
      · exact .inl h
      · rcases List.mem_cons.mp h with rfl | h
        · exact .inl (List.contains_iff_mem.mp seen)
        · exact .inr h
    · rw [if_neg seen, List.mem_append, List.mem_singleton]
      rcases h with h | h
      · exact .inl (.inl h)
      · rcases List.mem_cons.mp h with rfl | h
        · exact .inl (.inr rfl)
        · exact .inr h

theorem mem_pathsOf {ms : List Marker} {m : Marker} (h : m ∈ ms) (named : m.isVariable = true) :
    trim m.body ∈ Report.pathsOf ms :=
  mem_foldl_known _ [] (.inr (List.mem_map_of_mem (List.mem_filter.mpr ⟨h, named⟩)))

theorem mem_conditionsOf {ms : List Marker} {m : Marker} (h : m ∈ ms)
    (asks : m.directive? = some .ifHeader ∨ m.directive? = some .elseIf) :
    m.argument ∈ Report.conditionsOf ms :=
  List.mem_map_of_mem (List.mem_filter.mpr ⟨h, by simpa using asks⟩)

/-- A report lists everything that the row it was printed from asks. -/
theorem agree_of_report {d : Delimiters} (usable : d.usable = true) {w : Row}
    (legible : w.Legible d) {data other : Value}
    (agree : (Report.ofTemplate d (w.print d)).Agree data other) : w.Agree data other := by
  intro s hs
  cases s with
  | char c => exact Symbol.agree_char data other c
  | marker level body =>
    obtain ⟨m, hm, rfl⟩ := exists_mem_markers d hs 0
    rw [← markers_print usable legible] at hm
    exact ⟨fun named => agree.paths _ (mem_pathsOf hm named),
      fun asks => agree.conditions _ (mem_conditionsOf hm asks)⟩

theorem agreeOnPath_dataOr {data other : Value} {path : Text} :
    AgreeOnPath (Renderer.dataOr data) (Renderer.dataOr other) path ↔ AgreeOnPath data other path := by
  rw [AgreeOnPath, AgreeOnPath, shownAt_dataOr, shownAt_dataOr]

theorem agreeOnCondition_dataOr {data other : Value} {condition : Text} :
    AgreeOnCondition (Renderer.dataOr data) (Renderer.dataOr other) condition
      ↔ AgreeOnCondition data other condition := by
  rw [AgreeOnCondition, AgreeOnCondition, evaluate_dataOr, evaluate_dataOr]

/-- **A report lists everything that a rendering asks.**  For delimiters without blanks, let the
markers of a template be those that were written on purpose.  If two contexts agree on the paths and
conditions that the report lists, and none of them fails, the renderings succeed and agree. -/
theorem render_eq_of_report {token : Text} (solid : (Delimiters.ofToken token).Solid) {w : Row}
    (clean : w.Clean (Delimiters.ofToken token)) {data other : Value}
    (agree : (Report.ofTemplate (Delimiters.ofToken token)
      (w.print (Delimiters.ofToken token))).Agree data other) :
    ∃ out, render (w.print (Delimiters.ofToken token)) data token = .ok out
      ∧ render (w.print (Delimiters.ofToken token)) other token = .ok out := by
  rw [render_eq_fill solid.usable, render_eq_fill solid.usable]
  generalize Delimiters.ofToken token = d at *
  have legible := clean.legible solid.usable
  have agree_row : w.Agree (Renderer.dataOr data) (Renderer.dataOr other) :=
    agree_of_report solid.usable legible
      ⟨fun path hp => agreeOnPath_dataOr.mpr (agree.paths path hp),
        fun condition hc => agreeOnCondition_dataOr.mpr (agree.conditions condition hc)⟩
  obtain ⟨left, h1, h2, agree_left⟩ := exists_resolve_of_agree agree_row
  obtain ⟨result, s1, s2⟩ := exists_shown_of_agree d agree_left
  rw [fill_print solid legible, fill_print solid legible, ok_bind h1, ok_bind h2, s1, s2]
  exact ⟨_, rfl, rfl⟩

/-- Nested blocks with a stray footer, and contexts that differ where nothing is asked. -/
theorem render_eq_of_report_nested :
    let token : Text := ['<', '>']
    let d := Delimiters.ofToken token
    let data : Value := .mapping [("a".toList, .bool true), ("n".toList, .int 7)]
    let other : Value := .mapping [("n".toList, .str ['7']), ("a".toList, .list [.null]),
      ("hidden".toList, .bool true)]
    let w : Row := [.marker 1 "/if".toList, .marker 2 "#if a".toList, .char '\n',
      .marker 1 "#if !a".toList, .char 'x', .marker 1 "#elseif n == 7".toList,
      .marker 3 " n ".toList, .marker 1 "/if".toList, .char '\n', .marker 1 "/if".toList,
      .char 'y', .marker 1 "#if b.c".toList]
    d.Solid ∧ w.Clean d ∧ (Report.ofTemplate d (w.print d)).Agree data other
      ∧ ∃ out, render (w.print d) data token = .ok out ∧ render (w.print d) other token = .ok out := by
  intro token d data other w
  have solid : d.Solid := by decide
  have clean : w.Clean d := by decide
  have agree : (Report.ofTemplate d (w.print d)).Agree data other := by decide +kernel
  exact ⟨solid, clean, agree, render_eq_of_report solid clean agree⟩

end Stencil
