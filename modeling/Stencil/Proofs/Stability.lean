import Stencil.Proofs.Nesting

/-! # Rendering a rendering

A rendering of a valid template has nothing left that another rendering could change, as long as no
value that is put in brings a character of the delimiters along.

* `clean_shown`: characters and variables show no character of the delimiters then.
* `fill_of_clean`: a text without such characters is filled in as it is.
* `render_stable` puts this together for whole renderings. -/

namespace Stencil

open Text

/-! ### Blank lines -/

theorem mem_of_mem_leadingFeeds {text : Text} {c : Char} (h : c ∈ (leadingFeeds text).2) :
    c ∈ text := by
  fun_induction leadingFeeds text with
  | case1 text rest found ih =>
    have behind : c ∈ text.dropWhile isLineFiller := by
      rw [after?_eq_some_iff.mp found]
      exact List.mem_cons_of_mem _ (ih h)
    exact (List.dropWhile_sublist _).subset behind
  | case2 => exact h

/-- Shortening runs of blank lines brings no character in. -/
theorem mem_of_mem_collapseBlankRuns {text : Text} {c : Char} (h : c ∈ collapseBlankRuns text) :
    c ∈ text := by
  fun_induction collapseBlankRuns text with
  | case1 => exact h
  | case2 text run two ih =>
    rcases List.mem_cons.mp h with rfl | h
    · exact List.mem_cons_self
    · rcases List.mem_cons.mp h with rfl | h
      · exact List.mem_cons_self
      · exact List.mem_cons_of_mem _ (mem_of_mem_leadingFeeds (ih h))
  | case3 text run few ih =>
    rcases List.mem_cons.mp h with rfl | h
    · exact List.mem_cons_self
    · exact List.mem_cons_of_mem _ (ih h)
  | case4 x text hx ih =>
    rcases List.mem_cons.mp h with rfl | h
    · exact List.mem_cons_self
    · exact List.mem_cons_of_mem _ (ih h)

/-! ### What is put in -/

/-- The texts that filling in a template puts in for its variables: those of the values of the
variables that are left once its blocks are resolved. -/
def PutsIn (d : Delimiters) (data : Value) (template text : Text) : Prop :=
  ∃ resolved m, resolveBlocks d data template = .ok resolved ∧ m ∈ markers d resolved
    ∧ m.isVariable = true ∧ Value.shownAt (trim m.body) data = .ok text

section shown
variable {d : Delimiters} {data : Value}

/-- What a row of clean characters and variables with clean values shows is clean. -/
theorem clean_shown {w : Row} (content : w.IsContent) (clean : w.Clean d)
    (values : ∀ level body text, .marker level body ∈ w →
      Value.shownAt (trim body) data = .ok text → d.Clean text)
    {out : Text} (h : w.shown d data = .ok out) : d.Clean out := by
  induction w generalizing out with
  | nil =>
    obtain rfl := Except.ok.inj h
    exact List.forall_mem_nil _
  | cons s w ih =>
    obtain ⟨own, later⟩ := List.forall_mem_cons.mp content
    obtain ⟨clean_s, clean_w⟩ := Row.clean_cons.mp clean
    obtain ⟨first, hs, h⟩ := ok_of_bind h
    obtain ⟨rest, hw, h⟩ := ok_of_bind h
    obtain rfl := Except.ok.inj h
    refine Delimiters.clean_append.mpr ⟨?_, ih later clean_w
      (fun level body text hm => values level body text (List.mem_cons_of_mem s hm)) hw⟩
    cases s with
    | char c =>
      obtain rfl := Except.ok.inj hs
      exact clean_s
    | marker level body =>
      have named : isVariableBody body = true := own
      rw [Symbol.shown, if_pos named] at hs
      exact values level body first List.mem_cons_self hs

/-- The variables of a row that is left are put in. -/
theorem putsIn_of_resolve (solid : d.Solid) {w left : Row} (legible : w.Legible d)
    (resolved : w.resolve data = .ok left) {level : Nat} {body text : Text}
    (h : .marker level body ∈ left) (named : isVariableBody body = true)
    (shown : Value.shownAt (trim body) data = .ok text) : PutsIn d data (w.print d) text := by
  obtain ⟨m, hm, rfl⟩ := exists_mem_markers d h 0
  rw [← markers_print solid.usable (legible_of_resolve solid legible resolved)] at hm
  refine ⟨left.print d, m, ?_, hm, named, shown⟩
  rw [resolveBlocks_print solid legible, resolved]
  rfl

end shown

/-! ### Clean texts -/

section clean
variable {d : Delimiters} {text : Text}

theorem directive?_of_mem_literal {s : Symbol} (h : s ∈ Row.literal text) : s.directive? = none := by
  obtain ⟨c, -, rfl⟩ := List.mem_map.mp h
  rfl

theorem markers_of_clean (usable : d.usable = true) (clean : d.Clean text) : markers d text = [] := by
  have none_printed (position : Nat) : (Row.literal text).markers d position = [] := by
    induction text generalizing position with
    | nil => rfl
    | cons c text ih => exact ih (List.forall_mem_cons.mp clean).2 (position + 1)
  have printed := markers_print usable ((Row.clean_literal.mpr clean).legible usable)
  rw [Row.print_literal, none_printed] at printed
  exact printed

/-- A text without characters of the delimiters is filled in as it is. -/
theorem fill_of_clean (solid : d.Solid) (clean : d.Clean text) (data : Value) :
    fill d data text = .ok text := by
  have filled : fill d data ((Row.literal text).print d) = _ :=
    fill_print solid ((Row.clean_literal.mpr clean).legible solid.usable)
  have no_block : Row.block? (Row.literal text) = none := by
    apply Row.block?_eq_none
    intro s hs
    rw [directive?_of_mem_literal hs]
    simp
  rw [Row.print_literal, Row.resolve_of_none no_block, ok_bind rfl, shown_literal] at filled
  exact filled

end clean

/-- **A rendering of a valid template is stable.**  For delimiters without blanks, let the markers of a
template be those that were written on purpose, and let its report find nothing wrong.  If the rendering
returns a text and no text that is put in for a variable holds a character of the delimiters, then the
rendering holds none either, so it has no markers, and rendering it again with any data gives it
back. -/
theorem render_stable {token : Text} (solid : (Delimiters.ofToken token).Solid) {w : Row}
    (clean : w.Clean (Delimiters.ofToken token))
    (valid : (Report.ofTemplate (Delimiters.ofToken token)
      (w.print (Delimiters.ofToken token))).valid = true)
    {data : Value} {out : Text}
    (rendered : render (w.print (Delimiters.ofToken token)) data token = .ok out)
    (puts : ∀ text, PutsIn (Delimiters.ofToken token) (Renderer.dataOr data)
      (w.print (Delimiters.ofToken token)) text → (Delimiters.ofToken token).Clean text) :
    (Delimiters.ofToken token).Clean out ∧ markers (Delimiters.ofToken token) out = []
      ∧ ∀ other, render out other token = .ok out := by
  have legible := clean.legible solid.usable
  rw [render_eq_fill solid.usable, fill_print solid legible] at rendered
  obtain ⟨result, filled, rfl⟩ := ok_of_map rendered
  obtain ⟨left, resolved, shown⟩ := ok_of_bind filled
  have content := isContent_of_valid solid clean valid resolved
  have clean_result : (Delimiters.ofToken token).Clean result := by
    refine clean_shown content (clean_of_resolve solid clean resolved) ?_ shown
    intro level body text hm own
    exact puts _ (putsIn_of_resolve solid legible resolved hm (content _ hm) own)
  have clean_out : (Delimiters.ofToken token).Clean
      (if result = w.print (Delimiters.ofToken token) then result
        else collapseBlankRuns result) := by
    split
    · exact clean_result
    · exact fun c hc => clean_result c (mem_of_mem_collapseBlankRuns hc)
  refine ⟨clean_out, markers_of_clean solid.usable clean_out, fun other => ?_⟩
  rw [render_eq_fill solid.usable, fill_of_clean solid clean_out, Except.map, if_pos rfl]

/-- A block in a section of another one, a variable in a run of blank lines, and an unused branch. -/
theorem render_stable_nested :
    let token : Text := ['<', '>']
    let d := Delimiters.ofToken token
    let data : Value := .mapping [(['a'], .bool true), (['n'], .str ['z'])]
    let w : Row := [.char 'p', .marker 2 "#if a".toList, .char '\n', .char '\n', .char '\n',
      .marker 1 [' ', 'n'], .marker 1 "#if b".toList, .char 'x', .marker 3 "#else ".toList,
      .char 'y', .marker 1 "/if".toList, .marker 1 "#elseif c".toList, .marker 1 ['m'],
      .marker 2 "/if ".toList]
    d.Solid ∧ w.Clean d ∧ (Report.ofTemplate d (w.print d)).valid = true
      ∧ render (w.print d) data token = .ok "p\n\nzy".toList
      ∧ (∀ text, PutsIn d (Renderer.dataOr data) (w.print d) text → d.Clean text)
      ∧ ∀ other, render "p\n\nzy".toList other token = .ok "p\n\nzy".toList := by
  intro token d data w
  have solid : d.Solid := by decide
  have clean : w.Clean d := by decide
  have valid : (Report.ofTemplate d (w.print d)).valid = true := by decide +kernel
  have rendered : render (w.print d) data token = .ok "p\n\nzy".toList := by decide +kernel
  have resolves : resolveBlocks d (Renderer.dataOr data) (w.print d) = .ok "p\n\n\n< n>y".toList := by
    decide +kernel
  have puts : ∀ text, PutsIn d (Renderer.dataOr data) (w.print d) text → d.Clean text := by
    rintro text ⟨resolved, m, hr, hm, -, own⟩
    obtain rfl := Except.ok.inj (hr.symm.trans resolves)
    have values : ∀ m ∈ markers d "p\n\n\n< n>y".toList,
        Value.shownAt (trim m.body) (Renderer.dataOr data) = .ok ['z'] := by
      decide +kernel
    obtain rfl := Except.ok.inj (own.symm.trans (values m hm))
    decide
  have stable := render_stable solid clean valid rendered puts
  exact ⟨solid, clean, valid, rendered, puts, stable.2.2⟩

end Stencil
