import Stencil.Proofs.Row.Block
import Stencil.Proofs.Row.Splice
import Stencil.Proofs.Run

/-! # Runs over printed rows

For delimiters without blanks, a pass over a printed row leaves a printed row again.  Blanks apart,
the new row is the old one with its block replaced by the clause that was chosen.

* `Row.resolve` is the run on rows, which knows neither texts nor positions nor delimiters;
  `resolveBlocks_print`: a run over a printed row prints what is left of the row.
* `Row.headers_next`: every pass takes one header away.
* `Settles` is the run that puts clauses in as they are; `settles_of_resolveBlocks`: a run over a
  printed row is such a run on its core. -/

namespace Stencil

open Text

/-! ### Choosing a clause -/

/-- The content of the first clause that is an `#else` or whose condition holds, if there is one. -/
def chooseClause (data : Value) : List (Symbol × Row) → Except Fault Row
  | [] => .ok []
  | c :: clauses =>
    if c.1.directive? = some .otherwise then .ok c.2
    else do
      if ← evaluate (some (argumentOf c.1.body)) data then return c.2
      else chooseClause data clauses

theorem select_ofBody (d : Delimiters) (data : Value) (clauses : List (Symbol × Row)) :
    (select data (clauses.map fun c => Section.ofBody c.1.body (Row.print d c.2))).map
        (fun s => (s.map (·.content)).getD [])
      = (chooseClause data clauses).map (Row.print d) := by
  induction clauses with
  | nil => rfl
  | cons c clauses ih =>
    have content := Section.content_ofBody c.1.body (Row.print d c.2)
    have kind := Section.kind_ofBody c.1.body (Row.print d c.2)
    rw [← Symbol.directive?_eq] at kind
    rw [List.map_cons, select, chooseClause]
    by_cases h : c.1.directive? = some .otherwise
    · rw [if_pos (kind.mpr h), if_pos h]
      exact congrArg Except.ok content
    · have condition := Section.condition_ofBody (Symbol.directive?_eq c.1 ▸ h) (Row.print d c.2)
      rw [if_neg (mt kind.mp h), if_neg h, condition]
      cases evaluate (some (argumentOf c.1.body)) data with
      | error fault => rfl
      | ok holds =>
        cases holds with
        | true => exact congrArg Except.ok content
        | false => exact ih

/-! ### Passes over a printed row -/

section pass
variable {d : Delimiters} {data : Value} {w : Row} {b : RowBlock}

theorem pass?_print_of_none (usable : d.usable = true) (legible : w.Legible d)
    (h : Row.block? w = none) : pass? d data (w.print d) = none := by
  rw [pass?, locate?_print usable legible, h]
  rfl

theorem pass?_print (usable : d.usable = true) (legible : w.Legible d) (h : Row.block? w = some b) :
    pass? d data (w.print d) = some ((select data (b.clauses.map fun c =>
      Section.ofBody c.1.body (Row.print d c.2))).map fun s => ⟨b.placeAt d 0, s⟩) := by
  rw [pass?, locate?_print usable legible, h, Option.map_some, Option.map_some, ← sections_print,
    ← (Row.block?_eq_some h).1]

theorem pass?_print_of_error (usable : d.usable = true) (legible : w.Legible d)
    (h : Row.block? w = some b) {fault : Fault} (hc : chooseClause data b.clauses = .error fault) :
    pass? d data (w.print d) = some (.error fault) := by
  have e := select_ofBody d data b.clauses
  rw [hc] at e
  rw [pass?_print usable legible h]
  cases hs : select data (b.clauses.map fun c => Section.ofBody c.1.body (Row.print d c.2)) with
  | ok s =>
    rw [hs] at e
    simp [Except.map] at e
  | error f =>
    rw [hs] at e
    simp only [Except.map, Except.error.injEq] at e
    rw [e]
    rfl

/-- A pass over a printed row puts the chosen clause where the block was printed. -/
theorem pass?_print_of_ok (usable : d.usable = true) (legible : w.Legible d)
    (h : Row.block? w = some b) {r : Row} (hc : chooseClause data b.clauses = .ok r) :
    ∃ p, pass? d data (w.print d) = some (.ok p)
      ∧ p.apply (w.print d) = splice (b.before.print d) (r.print d) (b.after.print d) := by
  have e := select_ofBody d data b.clauses
  rw [hc] at e
  rw [pass?_print usable legible h]
  cases hs : select data (b.clauses.map fun c => Section.ofBody c.1.body (Row.print d c.2)) with
  | error f =>
    rw [hs] at e
    simp [Except.map] at e
  | ok s =>
    rw [hs] at e
    simp only [Except.map, Except.ok.injEq] at e
    refine ⟨⟨b.placeAt d 0, s⟩, rfl, ?_⟩
    rw [(Row.block?_eq_some h).1, Pass.apply, take_start_print, drop_stop_print, Pass.content, e]

/-- Where a run over a printed row with a block returns a text, a clause was chosen and the run went
on from the splice. -/
theorem exists_chooseClause (usable : d.usable = true) (legible : w.Legible d)
    (h : Row.block? w = some b) {out : Text} (hr : resolveBlocks d data (w.print d) = .ok out) :
    ∃ r, chooseClause data b.clauses = .ok r
      ∧ resolveBlocks d data (splice (b.before.print d) (r.print d) (b.after.print d)) = .ok out := by
  cases hc : chooseClause data b.clauses with
  | error fault =>
    rw [resolveBlocks_of_error (pass?_print_of_error usable legible h hc)] at hr
    simp at hr
  | ok r =>
    obtain ⟨p, hp, applied⟩ := pass?_print_of_ok usable legible h hc
    rw [resolveBlocks_of_ok hp, applied] at hr
    exact ⟨r, rfl, hr⟩

/-- Where a pass over a printed row comes to its end, a clause was chosen. -/
theorem exists_of_pass?_print (usable : d.usable = true) (legible : w.Legible d) {p : Pass}
    (h : pass? d data (w.print d) = some (.ok p)) :
    ∃ b r, Row.block? w = some b ∧ chooseClause data b.clauses = .ok r
      ∧ p.apply (w.print d) = splice (b.before.print d) (r.print d) (b.after.print d) := by
  cases hb : Row.block? w with
  | none =>
    rw [pass?_print_of_none usable legible hb] at h
    simp at h
  | some b =>
    cases hr : chooseClause data b.clauses with
    | error fault =>
      rw [pass?_print_of_error usable legible hb hr] at h
      simp at h
    | ok r =>
      obtain ⟨p', hp', applied⟩ := pass?_print_of_ok usable legible hb hr
      obtain rfl : p' = p := Except.ok.inj (Option.some.inj (hp'.symm.trans h))
      exact ⟨b, r, rfl, hr, applied⟩

end pass

/-! ### Rows with other symbols

Blocks and their clauses are found by the bodies of the symbols alone.  So they stay where they are
when some symbols without a directive are left out and the others are replaced by symbols with the
same bodies. -/

/-- A row without the symbols that are not kept, and with the others replaced. -/
def Row.recast (keep : Symbol → Bool) (change : Symbol → Symbol) (w : Row) : Row :=
  (w.filter keep).map change

/-- A block with its rows and its two markers changed. -/
def RowBlock.recast (keep : Symbol → Bool) (change : Symbol → Symbol) (b : RowBlock) : RowBlock :=
  ⟨b.before.recast keep change, change b.header, b.inner.recast keep change, change b.footer,
    b.after.recast keep change⟩

section recast
variable {keep : Symbol → Bool} {change : Symbol → Symbol}

theorem recast_cons (s : Symbol) (w : Row) : Row.recast keep change (s :: w)
    = if keep s then change s :: w.recast keep change else w.recast keep change := by
  rw [Row.recast, List.filter_cons]
  cases keep s <;> rfl

variable (body : ∀ s, (change s).body = s.body) (left_out : ∀ s, keep s = false → s.directive? = none)
include body left_out

theorem closing?_recast (w : Row) : Row.closing? (w.recast keep change)
    = (Row.closing? w).map fun found =>
        (found.1.recast keep change, change found.2.1, found.2.2.recast keep change) := by
  induction w with
  | nil => rfl
  | cons s w ih =>
    rw [recast_cons]
    cases kept : keep s with
    | false =>
      have hd := left_out s kept
      rw [if_neg (by simp), ih, Row.closing?]
      simp only [hd, Option.map_map]
      congr 1
      funext found
      simp [recast_cons, kept]
    | true =>
      rw [if_pos rfl, Row.closing?, Row.closing?, Symbol.directive?_eq (change s), body,
        ← Symbol.directive?_eq]
      split
      · rfl
      · rfl
      · rw [ih, Option.map_map, Option.map_map]
        congr 1
        funext found
        simp [recast_cons, kept]

/-- The block of a row with other symbols is the block of the row with other symbols. -/
theorem block?_recast (w : Row) : Row.block? (w.recast keep change)
    = (Row.block? w).map (RowBlock.recast keep change) := by
  induction w with
  | nil => rfl
  | cons s w ih =>
    rw [recast_cons]
    cases kept : keep s with
    | false =>
      have hd : s.directive? ≠ some .ifHeader := by simp [left_out s kept]
      rw [if_neg (by simp), ih, Row.block?]
      cases Row.block? w with
      | none => exact congrArg (Option.map (RowBlock.recast keep change)) (if_neg hd).symm
      | some b => simp [RowBlock.recast, recast_cons, kept]
    | true =>
      rw [if_pos rfl, Row.block?, Row.block?, ih]
      cases Row.block? w with
      | some b => simp [RowBlock.recast, recast_cons, kept]
      | none =>
        rw [Option.map_none]
        dsimp only
        rw [Symbol.directive?_eq (change s), body, ← Symbol.directive?_eq,
          closing?_recast body left_out]
        split
        · rw [Option.map_map, Option.map_map]
          rfl
        · rfl

theorem cutBranches_recast (w : Row) : Row.cutBranches (w.recast keep change)
    = ((Row.cutBranches w).1.recast keep change,
        (Row.cutBranches w).2.map fun c => (change c.1, c.2.recast keep change)) := by
  induction w with
  | nil => rfl
  | cons s w ih =>
    rw [recast_cons, Row.cutBranches]
    cases kept : keep s with
    | false =>
      have no_branch : s.isBranch = false := by simp [Symbol.isBranch, left_out s kept]
      simp [no_branch, ih, recast_cons, kept]
    | true =>
      have same : (change s).isBranch = s.isBranch := by
        rw [Symbol.isBranch, Symbol.directive?_eq, body, ← Symbol.directive?_eq]
        rfl
      rw [if_pos rfl, Row.cutBranches, same, ih]
      split
      · rfl
      · simp [recast_cons, kept]

theorem clauses_recast (b : RowBlock) : (b.recast keep change).clauses
    = b.clauses.map fun c => (change c.1, c.2.recast keep change) := by
  rw [RowBlock.clauses, RowBlock.clauses, RowBlock.recast, cutBranches_recast body left_out]
  rfl

omit left_out in
theorem chooseClause_recast (data : Value) (clauses : List (Symbol × Row)) :
    chooseClause data (clauses.map fun c => (change c.1, c.2.recast keep change))
      = (chooseClause data clauses).map (Row.recast keep change) := by
  induction clauses with
  | nil => rfl
  | cons c clauses ih =>
    rw [List.map_cons, chooseClause, chooseClause, Symbol.directive?_eq (change c.1), body,
      ← Symbol.directive?_eq]
    split
    · rfl
    · cases evaluate (some (argumentOf c.1.body)) data with
      | error fault => rfl
      | ok holds =>
        cases holds with
        | true => rfl
        | false => exact ih

end recast

/-! ### Blocks of a core, and blocks at level one -/

/-- A block between cores. -/
def RowBlock.core (b : RowBlock) : RowBlock :=
  ⟨b.before.core, b.header.plain, b.inner.core, b.footer.plain, b.after.core⟩

theorem directive?_of_not_kept (s : Symbol) (h : (!s.isBlank) = false) : s.directive? = none :=
  Symbol.directive?_of_isBlank (by simpa using h)

/-- The block of a core is the core of the block. -/
theorem block?_core (w : Row) : Row.block? w.core = (Row.block? w).map RowBlock.core :=
  block?_recast Symbol.body_plain directive?_of_not_kept w

theorem clauses_core (b : RowBlock) :
    b.core.clauses = b.clauses.map fun c => (c.1.plain, c.2.core) :=
  clauses_recast Symbol.body_plain directive?_of_not_kept b

theorem chooseClause_core (data : Value) (clauses : List (Symbol × Row)) :
    chooseClause data (clauses.map fun c => (c.1.plain, c.2.core))
      = (chooseClause data clauses).map Row.core := chooseClause_recast Symbol.body_plain data clauses

theorem recast_plain (w : Row) : w.recast (fun _ => true) Symbol.plain = w.plain := by
  rw [Row.recast, List.filter_eq_self.mpr fun _ _ => rfl]
  rfl

/-- A block with all its markers at level one. -/
def RowBlock.plain (b : RowBlock) : RowBlock :=
  ⟨b.before.plain, b.header.plain, b.inner.plain, b.footer.plain, b.after.plain⟩

theorem recast_block_plain (b : RowBlock) : b.recast (fun _ => true) Symbol.plain = b.plain := by
  simp only [RowBlock.recast, RowBlock.plain, recast_plain]

theorem block?_plain (w : Row) : Row.block? w.plain = (Row.block? w).map RowBlock.plain := by
  have none_left_out : ∀ s, (fun _ : Symbol => true) s = false → s.directive? = none := by simp
  have found := block?_recast Symbol.body_plain none_left_out w
  rwa [recast_plain, funext recast_block_plain] at found

theorem chooseClause_plain (data : Value) (b : RowBlock) :
    chooseClause data b.plain.clauses = (chooseClause data b.clauses).map Row.plain := by
  rw [← recast_block_plain, clauses_recast Symbol.body_plain (by simp),
    chooseClause_recast Symbol.body_plain, funext recast_plain]

/-! ### What is left after a pass -/

/-- What is chosen is nothing, or the content of a clause. -/
theorem mem_of_chooseClause {data : Value} {clauses : List (Symbol × Row)} {r : Row}
    (h : chooseClause data clauses = .ok r) : r = [] ∨ ∃ c ∈ clauses, c.2 = r := by
  induction clauses with
  | nil =>
    rw [chooseClause, Except.ok.injEq] at h
    exact .inl h.symm
  | cons c clauses ih =>
    rw [chooseClause] at h
    split at h
    · exact .inr ⟨c, List.mem_cons_self, Except.ok.inj h⟩
    · obtain ⟨holds, -, h⟩ := ok_of_bind h
      cases holds with
      | true => exact .inr ⟨c, List.mem_cons_self, Except.ok.inj h⟩
      | false =>
        rcases ih h with h | ⟨x, hx, e⟩
        · exact .inl h
        · exact .inr ⟨x, List.mem_cons_of_mem c hx, e⟩

/-- A chosen clause holds nothing but what stood inside the block. -/
theorem subset_of_chooseClause {data : Value} {b : RowBlock} {r : Row}
    (h : chooseClause data b.clauses = .ok r) : ∀ s ∈ r, s ∈ b.inner := by
  intro s hs
  rcases mem_of_chooseClause h with rfl | ⟨c, hc, rfl⟩
  · simp at hs
  · rw [← Row.append_cutBranches b.inner]
    rcases List.mem_cons.mp hc with rfl | hc
    · exact List.mem_append_left _ hs
    · exact List.mem_append_right _ (List.mem_flatMap.mpr ⟨c, hc, List.mem_cons_of_mem c.1 hs⟩)

/-- The row after a pass holds symbols of the row before it, and blanks. -/
theorem mem_of_mem_next {data : Value} {w r : Row} {b : RowBlock} (hb : Row.block? w = some b)
    (hr : chooseClause data b.clauses = .ok r) {s : Symbol}
    (h : s ∈ Row.splice b.before r b.after) : s ∈ w ∨ s.isBlank = true := by
  rw [(Row.block?_eq_some hb).1, RowBlock.row]
  simp only [List.mem_append, List.mem_cons]
  rcases Row.mem_of_mem_splice h with h | h | h | h
  · exact .inl (.inl h)
  · exact .inl (.inr (.inr (.inl (subset_of_chooseClause hr s h))))
  · exact .inl (.inr (.inr (.inr (.inr h))))
  · exact .inr h

/-- The row after a pass is as legible as the row before it. -/
theorem legible_next {d : Delimiters} (solid : d.Solid) {data : Value} {w r : Row} {b : RowBlock}
    (legible : w.Legible d) (hb : Row.block? w = some b) (hr : chooseClause data b.clauses = .ok r) :
    (Row.splice b.before r b.after).Legible d := by
  intro s hs
  rcases mem_of_mem_next hb hr hs with hs | blank
  · exact legible s hs
  · exact (solid.clean_of_isBlank blank).legible solid.usable

theorem print_next {d : Delimiters} (solid : d.Solid) {data : Value} {w r : Row} {b : RowBlock}
    (legible : w.Legible d) (hb : Row.block? w = some b) (hr : chooseClause data b.clauses = .ok r) :
    (Row.splice b.before r b.after).print d
      = splice (b.before.print d) (r.print d) (b.after.print d) := by
  rw [(Row.block?_eq_some hb).1, RowBlock.row] at legible
  simp only [Row.legible_append, Row.legible_cons] at legible
  obtain ⟨before, -, inner, -, after⟩ := legible
  exact Row.print_splice solid before (fun s hs => inner s (subset_of_chooseClause hr s hs)) after

/-- The headers of blocks in a row. -/
def Row.headers (w : Row) : Nat := w.countP fun s => s.directive? = some .ifHeader

namespace Row

theorem headers_append (u w : Row) : headers (u ++ w) = headers u + headers w := List.countP_append

theorem headers_core (w : Row) : headers w.core = headers w := by
  rw [headers, headers, core, List.countP_map, List.countP_filter]
  congr 1
  funext s
  cases blank : s.isBlank with
  | true => simp [Symbol.directive?_of_isBlank blank]
  | false => simp

/-- Every pass takes one header away. -/
theorem headers_next {data : Value} {w r : Row} {b : RowBlock} (hb : Row.block? w = some b)
    (hr : chooseClause data b.clauses = .ok r) :
    (splice b.before r b.after).headers + 1 = w.headers := by
  obtain ⟨rfl, innermost⟩ := Row.block?_eq_some hb
  have none_inside : b.inner.headers = 0 :=
    List.countP_eq_zero.mpr fun s hs => by simpa using (innermost.inner s hs).1
  have none_chosen : r.headers = 0 :=
    List.countP_eq_zero.mpr fun s hs => by
      simpa using (innermost.inner s (subset_of_chooseClause hr s hs)).1
  have after_footer : headers (b.footer :: b.after) = b.after.headers := by
    simp [headers, innermost.footer]
  have at_header : headers (b.header :: (b.inner ++ b.footer :: b.after))
      = headers (b.inner ++ b.footer :: b.after) + 1 := by
    simp [headers, innermost.header]
  rw [← headers_core, core_splice, headers_append, headers_append, headers_core, headers_core,
    headers_core, none_chosen, RowBlock.row, headers_append, at_header, headers_append,
    none_inside, after_footer]
  omega

/-! ### Runs on rows -/

/-- Resolves every block of a row. -/
def resolve (data : Value) (w : Row) : Except Fault Row :=
  match _ : block? w with
  | none => .ok w
  | some b =>
    match _ : chooseClause data b.clauses with
    | .error fault => .error fault
    | .ok r => resolve data (splice b.before r b.after)
termination_by w.headers
decreasing_by
  have := headers_next ‹block? w = some b› ‹chooseClause data b.clauses = .ok r›
  omega

section resolve
variable {data : Value} {w r : Row} {b : RowBlock}

theorem resolve_of_none (h : block? w = none) : resolve data w = .ok w := by
  rw [resolve]
  split
  · rfl
  · rename_i found
    rw [h] at found
    simp at found

theorem resolve_of_error (hb : block? w = some b) {fault : Fault}
    (hr : chooseClause data b.clauses = .error fault) : resolve data w = .error fault := by
  rw [resolve]
  split
  · rename_i found
    rw [hb] at found
    simp at found
  · rename_i found
    obtain rfl := Option.some.inj (hb.symm.trans found)
    split
    · rename_i e
      exact e.symm.trans hr
    · rename_i e
      rw [hr] at e
      simp at e

theorem resolve_of_ok (hb : block? w = some b) (hr : chooseClause data b.clauses = .ok r) :
    resolve data w = resolve data (splice b.before r b.after) := by
  rw [resolve]
  split
  · rename_i found
    rw [hb] at found
    simp at found
  · rename_i found
    obtain rfl := Option.some.inj (hb.symm.trans found)
    split
    · rename_i e
      rw [hr] at e
      simp at e
    · rename_i e
      rw [Except.ok.inj (e.symm.trans hr)]

/-- What is left of a row holds symbols of the row, and blanks. -/
theorem mem_of_mem_resolve {left : Row} (h : resolve data w = .ok left) :
    ∀ s ∈ left, s ∈ w ∨ s.isBlank = true := by
  induction w using resolve.induct data with
  | case1 w hb =>
    rw [resolve_of_none hb, Except.ok.injEq] at h
    rw [h]
    exact fun s hs => .inl hs
  | case2 w b hb fault hr =>
    rw [resolve_of_error hb hr] at h
    simp at h
  | case3 w b hb r hr ih =>
    rw [resolve_of_ok hb hr] at h
    intro s hs
    rcases ih h s hs with hs | blank
    · exact mem_of_mem_next hb hr hs
    · exact .inr blank

/-- A run does not look at levels. -/
theorem resolve_plain (data : Value) (w : Row) :
    resolve data w.plain = (resolve data w).map plain := by
  induction w using resolve.induct data with
  | case1 w hb =>
    have none_plain : block? w.plain = none := by rw [block?_plain, hb, Option.map_none]
    rw [resolve_of_none hb, resolve_of_none none_plain]
    rfl
  | case2 w b hb fault hr =>
    have found : block? w.plain = some b.plain := by rw [block?_plain, hb, Option.map_some]
    have failed : chooseClause data b.plain.clauses = .error fault := by
      rw [chooseClause_plain, hr]
      rfl
    rw [resolve_of_error hb hr, resolve_of_error found failed]
    rfl
  | case3 w b hb r hr ih =>
    have found : block? w.plain = some b.plain := by rw [block?_plain, hb, Option.map_some]
    have chosen : chooseClause data b.plain.clauses = .ok r.plain := by
      rw [chooseClause_plain, hr]
      rfl
    rw [resolve_of_ok hb hr, resolve_of_ok found chosen, ← ih, plain_splice]
    rfl

end resolve
end Row

section run
variable {d : Delimiters} {data : Value} {w : Row}

/-- **A run over a printed row prints what is left of the row**, or fails as the run on the row
does. -/
theorem resolveBlocks_print (solid : d.Solid) (legible : w.Legible d) :
    resolveBlocks d data (w.print d) = (w.resolve data).map (Row.print d) := by
  induction w using Row.resolve.induct data with
  | case1 w hb =>
    rw [Row.resolve_of_none hb,
      resolveBlocks_of_none (pass?_print_of_none solid.usable legible hb)]
    rfl
  | case2 w b hb fault hr =>
    rw [Row.resolve_of_error hb hr,
      resolveBlocks_of_error (pass?_print_of_error solid.usable legible hb hr)]
    rfl
  | case3 w b hb r hr ih =>
    obtain ⟨p, hp, applied⟩ := pass?_print_of_ok solid.usable legible hb hr
    rw [Row.resolve_of_ok hb hr, resolveBlocks_of_ok hp, applied, ← print_next solid legible hb hr]
    exact ih (legible_next solid legible hb hr)

theorem legible_of_resolve (solid : d.Solid) (legible : w.Legible d) {left : Row}
    (h : w.resolve data = .ok left) : left.Legible d := by
  intro s hs
  rcases Row.mem_of_mem_resolve h s hs with hs | blank
  · exact legible s hs
  · exact (solid.clean_of_isBlank blank).legible solid.usable

theorem clean_of_resolve (solid : d.Solid) (clean : w.Clean d) {left : Row}
    (h : w.resolve data = .ok left) : left.Clean d := by
  intro s hs
  rcases Row.mem_of_mem_resolve h s hs with hs | blank
  · exact clean s hs
  · exact solid.clean_of_isBlank blank

/-! ### Runs on cores -/

/-- A row that a number of passes takes to another one without blocks, where each pass puts its clause
in as it is.  On cores this is all that a splice does. -/
inductive Settles (data : Value) : Nat → Row → Row → Prop where
  | done {w : Row} : Row.block? w = none → Settles data 0 w w
  | pass {w r out : Row} {n : Nat} {b : RowBlock} : Row.block? w = some b →
      chooseClause data b.clauses = .ok r → Settles data n (b.before ++ r ++ b.after) out →
      Settles data (n + 1) w out

/-- A pass on a row is a pass on its core. -/
theorem settles_next {n : Nat} {r out : Row} {b : RowBlock} (hb : Row.block? w = some b)
    (hr : chooseClause data b.clauses = .ok r)
    (h : Settles data n (Row.splice b.before r b.after).core out) :
    Settles data (n + 1) w.core out := by
  have found : Row.block? w.core = some b.core := by rw [block?_core, hb, Option.map_some]
  have chosen : chooseClause data b.core.clauses = .ok r.core := by
    rw [clauses_core, chooseClause_core, hr]
    rfl
  rw [Row.core_splice] at h
  exact .pass found chosen h

/-- What is left of a row is what a run on its core leaves, with as many passes as the run over the
printed row. -/
theorem settles_of_resolve (solid : d.Solid) (legible : w.Legible d) {left : Row}
    (resolved : w.resolve data = .ok left) :
    Settles data (run d data (w.print d)).steps.length w.core left.core := by
  induction w using Row.resolve.induct data with
  | case1 w hb =>
    rw [Row.resolve_of_none hb, Except.ok.injEq] at resolved
    rw [run_of_none (pass?_print_of_none solid.usable legible hb), ← resolved]
    apply Settles.done
    rw [block?_core, hb]
    rfl
  | case2 w b hb fault hr =>
    rw [Row.resolve_of_error hb hr] at resolved
    simp at resolved
  | case3 w b hb r hr ih =>
    obtain ⟨p, hp, applied⟩ := pass?_print_of_ok solid.usable legible hb hr
    rw [Row.resolve_of_ok hb hr] at resolved
    rw [run_of_ok hp, List.length_cons, applied, ← print_next solid legible hb hr]
    exact settles_next hb hr (ih (legible_next solid legible hb hr) resolved)

/-- **A run over a printed row is a run on its core**, with as many passes. -/
theorem settles_of_resolveBlocks (solid : d.Solid) (clean : w.Clean d) {out : Text}
    (h : resolveBlocks d data (w.print d) = .ok out) :
    ∃ left : Row, left.Clean d ∧ left.print d = out
      ∧ Settles data (run d data (w.print d)).steps.length w.core left.core := by
  have legible := clean.legible solid.usable
  rw [resolveBlocks_print solid legible] at h
  obtain ⟨left, resolved, rfl⟩ := ok_of_map h
  exact ⟨left, clean_of_resolve solid clean resolved, rfl,
    settles_of_resolve solid legible resolved⟩

end run
end Stencil
