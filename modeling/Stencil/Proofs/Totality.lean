import Stencil.Proofs.Filling
import Stencil.Proofs.Literals
import Stencil.Proofs.Overflow
import Stencil.Proofs.Termination

/-! # Renderings that cannot fail

A rendering fails only at a whole number: one of the data or of a literal that has no double, or one
that has too many digits to be read or to be written.  Data in range have neither kind.  A pass moves
blanks and joins what stood apart, so it can form new markers, but it adds no digit.  So a template with
few digits in all keeps few of them through every pass, and no path, condition or literal that is read on
the way has more.

* `digitCount_apply_le`: a pass adds no digit.
* `exists_evaluate`: a condition with few digits has an answer in data in range.
* `exists_resolveBlocks`: a run comes to its end, and what is left has few digits.
* `exists_render`: a template with few digits is rendered, whatever the delimiters are. -/

namespace Stencil

open Text

/-! ### Digits of a pass -/

theorem isBlankChar_of_isDecimalDigit {c : Char} (h : isDecimalDigit c = true) :
    isBlankChar c = false := by
  have every : ∀ first ∈ digitZeros, ∀ k < 10, isBlankChar (Char.ofNat (first + k)) = false := by
    decide +kernel
  obtain ⟨d, hd⟩ := Option.isSome_iff_exists.mp h
  obtain ⟨first, found, rfl⟩ := Option.map_eq_some_iff.mp hd
  have within := List.find?_some found
  simp only [Bool.and_eq_true, decide_eq_true_eq] at within
  have hc := every first (List.mem_of_find?_eq_some found) (c.toNat - first) (by omega)
  rwa [show first + (c.toNat - first) = c.toNat by omega, Char.ofNat_toNat] at hc

theorem digitCount_glyphs (text : Text) : digitCount (glyphs text) = digitCount text := by
  rw [digitCount, digitCount, glyphs, List.countP_filter]
  apply List.countP_congr
  intro c _
  simp +contextual [isBlankChar_of_isDecimalDigit]

/-- A pass adds no digit. -/
theorem digitCount_apply_le {d : Delimiters} {data : Value} {text : Text} {p : Pass}
    (h : pass? d data text = some (.ok p)) : digitCount (p.apply text) ≤ digitCount text := by
  rw [← digitCount_glyphs (p.apply text), ← digitCount_glyphs text]
  exact digitCount_le_of_sublist (glyphs_apply_sublist h)

/-! ### Conditions -/

section conditions
variable {data : Value}

theorem sublist_of_cut? {source path rest : Text} {op : Operator}
    (h : Operator.cut? source = some (op, path, rest)) :
    path.Sublist source ∧ rest.Sublist source := by
  rw [Operator.eq_of_cut? h, List.append_assoc]
  exact ⟨List.sublist_append_left _ _,
    (List.sublist_append_right _ _).trans (List.sublist_append_right _ _)⟩

/-- The literal of a comparison ends where its operator comes once more. -/
theorem literal_sublist (token rest : Text) :
    (((cut? token rest).map (·.1)).getD rest).Sublist rest := by
  cases again : cut? token rest with
  | none => exact List.Sublist.refl _
  | some parts =>
    rw [eq_of_cut? again, List.append_assoc]
    exact List.sublist_append_left _ _

theorem exists_ofClause {source : Text} (few : digitCount source ≤ digitCap) (range : data.InRange) :
    ∃ holds, (Condition.ofClause source).holds data = .ok holds := by
  rw [Condition.ofClause]
  split
  · obtain ⟨v, hv, range_v⟩ := range.resolve few
    obtain ⟨holds, h⟩ := Value.exists_isTruthy range_v.hasDouble
    exact ⟨holds, by rw [Condition.holds, ok_bind hv, h]⟩
  · rename_i op path rest found
    obtain ⟨in_path, in_rest⟩ := sublist_of_cut? found
    have few_path := few_of_sublist few ((trim_sublist path).trans in_path)
    have few_literal := few_of_sublist few ((literal_sublist op.text rest).trans in_rest)
    obtain ⟨left, hl, range_left⟩ := range.resolve few_path
    obtain ⟨right, hr, double_right⟩ := Value.exists_ofLiteral few_literal
    obtain ⟨holds, h⟩ := Value.exists_compare range_left.hasDouble double_right op
    refine ⟨holds, ?_⟩
    rw [Condition.holds, Condition.operands, ok_bind hl, ok_bind hr]
    exact h

theorem exists_holds {text : Text} (few : digitCount text ≤ digitCap) (range : data.InRange) :
    ∃ holds, (Condition.parse text).holds data = .ok holds := by
  fun_induction Condition.parse text with
  | case1 => exact ⟨false, rfl⟩
  | case2 text some_char rest e ih =>
    have shorter : rest.Sublist text := by
      have := trim_sublist text
      rw [e] at this
      exact (List.sublist_cons_self _ _).trans this
    obtain ⟨holds, h⟩ := ih (few_of_sublist few shorter)
    exact ⟨!holds, congrArg (Except.map (!·)) h⟩
  | case3 text some_char source =>
    exact exists_ofClause (few_of_sublist few (trim_sublist text)) range

/-- A condition with few digits has an answer in data in range. -/
theorem exists_evaluate {condition : Option Text}
    (few : ∀ text ∈ condition, digitCount text ≤ digitCap) (range : data.InRange) :
    ∃ holds, evaluate condition data = .ok holds := by
  cases condition with
  | none => exact ⟨false, rfl⟩
  | some text => exact exists_holds (few text rfl) range

theorem exists_select {sections : List Section}
    (few : ∀ s ∈ sections, ∀ text ∈ s.condition, digitCount text ≤ digitCap) (range : data.InRange) :
    ∃ s, select data sections = .ok s := by
  induction sections with
  | nil => exact ⟨none, rfl⟩
  | cons s sections ih =>
    obtain ⟨own, later⟩ := List.forall_mem_cons.mp few
    rw [select]
    split
    · exact ⟨_, rfl⟩
    · obtain ⟨holds, h⟩ := exists_evaluate own range
      rw [ok_bind h]
      cases holds with
      | true => exact ⟨_, rfl⟩
      | false => exact ih later

end conditions

/-! ### Markers of a text -/

section markers
variable {d : Delimiters} {text : Text}

theorem sublist_body_of_mem_dissect {p : Piece} (h : p ∈ (dissect d text).pieces) :
    p.body.Sublist text := by
  obtain ⟨front, rest, e⟩ := List.append_of_mem h
  have whole := source_dissect d text
  rw [Dissection.source, e, List.flatMap_append, List.flatMap_cons, Piece.source, Piece.marker] at whole
  rw [← whole]
  simp only [List.append_assoc]
  exact (List.sublist_append_left p.body _).trans <| (List.sublist_append_right _ _).trans <|
    (List.sublist_append_right _ _).trans (List.sublist_append_right _ _)

theorem exists_mem_of_mem_markersOf {pieces : List Piece} {m : Marker} {position : Nat}
    (h : m ∈ markersOf d position pieces) : ∃ p ∈ pieces, p.body = m.body := by
  induction pieces generalizing position with
  | nil => simp [markersOf] at h
  | cons p pieces ih =>
    rcases List.mem_cons.mp h with rfl | h
    · exact ⟨p, List.mem_cons_self, rfl⟩
    · obtain ⟨q, hq, e⟩ := ih h
      exact ⟨q, List.mem_cons_of_mem p hq, e⟩

theorem sublist_argument_of_mem_markers {m : Marker} (h : m ∈ markers d text) :
    m.argument.Sublist text := by
  obtain ⟨p, hp, e⟩ := exists_mem_of_mem_markersOf h
  rw [List.drop_zero] at hp
  have body := sublist_body_of_mem_dissect hp
  rw [e] at body
  have behind : (cutWord m.body).2.Sublist m.body :=
    (List.dropWhile_sublist _).trans (trimStart_sublist _ _)
  exact (trim_sublist _).trans (behind.trans body)

theorem mem_of_closing? {ms branches : List Marker} {footer : Marker}
    (h : Block.closing? ms = some (branches, footer)) : ∀ m ∈ branches, m ∈ ms := by
  induction ms generalizing branches with
  | nil => simp [Block.closing?] at h
  | cons m ms ih =>
    have branch (hm : (Block.closing? ms).map (fun found => (m :: found.1, found.2))
        = some (branches, footer)) : ∀ x ∈ branches, x ∈ m :: ms := by
      obtain ⟨⟨bs, f⟩, hf, hp⟩ := Option.map_eq_some_iff.mp hm
      obtain ⟨rfl, rfl⟩ := Prod.mk.injEq .. ▸ hp
      exact List.cons_subset_cons m (ih hf)
    rw [Block.closing?] at h
    split at h
    · simp at h
    · obtain ⟨rfl, -⟩ := Prod.mk.injEq .. ▸ Option.some.inj h
      exact List.forall_mem_nil _
    · exact branch h
    · exact branch h
    · exact fun x hx => List.mem_cons_of_mem m (ih h x hx)

theorem mem_of_last? {ms : List Marker} {b : Block} (h : Block.last? ms = some b) :
    ∀ m ∈ b.header :: b.branches, m ∈ ms := by
  induction ms with
  | nil => simp [Block.last?] at h
  | cons m ms ih =>
    rw [Block.last?] at h
    split at h
    · rename_i found
      obtain rfl := Option.some.inj h
      exact fun x hx => List.mem_cons_of_mem m (ih found x hx)
    · split at h
      · obtain ⟨⟨branches, footer⟩, found, rfl⟩ := Option.map_eq_some_iff.mp h
        exact List.cons_subset_cons m (mem_of_closing? found)
      · simp at h

/-- The conditions of a located block are parts of the text. -/
theorem sublist_condition_of_mem_sections {b : Block} (located : Block.locate? d text = some b)
    {s : Section} (h : s ∈ b.sections text) {condition : Text} (hc : condition ∈ s.condition) :
    condition.Sublist text := by
  have argument {m : Marker} {stop : Nat} (hm : condition ∈ (Section.ofMarker text m stop).condition) :
      condition = m.argument := by
    unfold Section.ofMarker at hm
    dsimp only at hm
    split at hm <;> simp_all
  have opened : ∃ m ∈ b.header :: b.branches, condition = m.argument := by
    rw [Block.sections] at h
    generalize b.header = m, b.branches = branches at h
    induction branches generalizing m with
    | nil =>
      rw [Block.sectionsFrom, List.mem_singleton] at h
      exact ⟨m, List.mem_cons_self, argument (h ▸ hc)⟩
    | cons next branches ih =>
      rcases List.mem_cons.mp h with rfl | h
      · exact ⟨m, List.mem_cons_self, argument hc⟩
      · obtain ⟨x, hx, e⟩ := ih next h
        exact ⟨x, List.mem_cons_of_mem m hx, e⟩
  obtain ⟨m, hm, rfl⟩ := opened
  exact sublist_argument_of_mem_markers (mem_of_last? located m hm)

end markers

/-! ### Runs and renderings -/

section render
variable {d : Delimiters} {data : Value} {text : Text}

/-- A run over a text with few digits comes to its end, and leaves no more of them. -/
theorem exists_resolveBlocks (few : digitCount text ≤ digitCap) (range : data.InRange) :
    ∃ out, resolveBlocks d data text = .ok out ∧ digitCount out ≤ digitCap := by
  -- Nothing is known of the markers that a pass forms, but the digits of the whole text bound those
  -- of every condition in it.
  induction text using run.induct d data with
  | case1 text hp => exact ⟨text, resolveBlocks_of_none hp, few⟩
  | case2 text fault hp =>
    obtain ⟨b, located, failed⟩ := Option.map_eq_some_iff.mp hp
    obtain ⟨s, hs⟩ := exists_select (fun s hs condition hc =>
      few_of_sublist few (sublist_condition_of_mem_sections located hs hc)) range
    rw [hs] at failed
    simp [Except.map] at failed
  | case3 text p hp ih =>
    rw [resolveBlocks_of_ok hp]
    exact ih (Nat.le_trans (digitCount_apply_le hp) few)

theorem exists_mapM {α β : Type} {f : α → Except Fault β} {items : List α}
    (h : ∀ a ∈ items, ∃ b, f a = .ok b) : ∃ bs, items.mapM f = .ok bs := by
  induction items with
  | nil => exact ⟨[], rfl⟩
  | cons a items ih =>
    obtain ⟨ha, later⟩ := List.forall_mem_cons.mp h
    obtain ⟨b, hb⟩ := ha
    obtain ⟨bs, hbs⟩ := ih later
    rw [List.mapM_cons, ok_bind hb, ok_bind hbs]
    exact ⟨b :: bs, rfl⟩

theorem exists_substitute (few : digitCount text ≤ digitCap) (range : data.InRange) :
    ∃ out, substitute d data text = .ok out := by
  have pieces : ∀ p ∈ (dissect d text).pieces, ∃ shown, p.substituted d data = .ok shown := by
    intro p hp
    have part := (trim_sublist p.body).trans (sublist_body_of_mem_dissect hp)
    obtain ⟨own, h⟩ := range.shownAt (few_of_sublist few part)
    rw [Piece.substituted, Piece.path, h]
    split <;> exact ⟨_, rfl⟩
  obtain ⟨shown, h⟩ := exists_mapM pieces
  rw [substitute, ok_bind h]
  exact ⟨_, rfl⟩

theorem exists_fill (few : digitCount text ≤ digitCap) (range : data.InRange) :
    ∃ out, fill d data text = .ok out := by
  obtain ⟨resolved, hr, few_left⟩ := exists_resolveBlocks few range
  rw [fill, ok_bind hr]
  exact exists_substitute few_left range

end render

/-- **A template with few digits is rendered**, in data in range, whatever the delimiters are. -/
theorem exists_render {template : Text} (few : digitCount template ≤ digitCap) {data : Value}
    (range : data.InRange) (token : Text) : ∃ out, render template data token = .ok out := by
  have range_there : (Renderer.dataOr data).InRange := by
    cases data with
    | null => exact .mapping (List.forall_mem_nil _)
    | _ => exact range
  cases usable : (Delimiters.ofToken token).usable with
  | true =>
    obtain ⟨result, h⟩ := exists_fill few range_there
    rw [render_eq_fill usable, h]
    exact ⟨_, rfl⟩
  | false =>
    have unusable : (Renderer.mk token).delimiters.usable ≠ true := by
      rw [Renderer.delimiters, usable]
      simp
    exact ⟨template, if_neg unusable⟩

/-- The greatest integer in range, an index, a literal and a marker that a splice puts together. -/
theorem exists_render_at_bound :
    let data : Value := .mapping [(['n'], .int (Double.overflow - 1)),
      (['s'], .list [.str ['7'], .float .nan])]
    let template := "[[[[s.0 ]]][[#if n > 12.5]]]x[[/if]]".toList
    digitCount template ≤ digitCap ∧ data.InRange
      ∧ ∃ out, render template data ['[', '[', ']', ']'] = .ok out := by
  intro data template
  have few : digitCount template ≤ digitCap := by decide +kernel
  have strings : ∀ v ∈ [Value.str ['7'], .float .nan], v.InRange :=
    List.forall_mem_cons.mpr
      ⟨.str (by decide +kernel), List.forall_mem_cons.mpr ⟨.float _, List.forall_mem_nil _⟩⟩
  have range : data.InRange := .mapping <| List.forall_mem_cons.mpr
    ⟨.int (by decide +kernel), List.forall_mem_cons.mpr
      ⟨.list (by decide +kernel) strings, List.forall_mem_nil _⟩⟩
  exact ⟨few, range, exists_render few range _⟩

example : render "&#if n&x&/if&".toList (.mapping [(['n'], .int Double.overflow)])
    Delimiters.defaultToken = .error .integerTooLarge := by
  decide +kernel

end Stencil
