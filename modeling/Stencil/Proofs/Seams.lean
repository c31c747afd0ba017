import Stencil.Splice

/-! # The seams of a splice

A splice moves nothing but blanks.  What stands before the block keeps everything up to its last
glyph, the content everything between its first and its last glyph, and what stands after the block
everything from its first glyph on; between these parts there are seams of blanks.

* `keepLines_eq` and `collapse_eq` compute the seams from the blanks that met there.
* `splice_eq_seams`: every splice has this form, and all it looks at are these blanks and the outline
  of the other parts.
* `glyphs_splice`: so its glyphs are those of the three parts. -/

namespace Stencil

open Text

/-! ### Glyphs and blanks -/

namespace Text

/-- The characters of a text that are not blank. -/
def glyphs (text : Text) : Text := text.filter (!isBlankChar ·)

theorem glyphs_append (front rest : Text) : glyphs (front ++ rest) = glyphs front ++ glyphs rest :=
  List.filter_append ..

theorem glyphs_cons (c : Char) (text : Text) : glyphs (c :: text) = glyphs [c] ++ glyphs text :=
  glyphs_append [c] text

theorem glyphs_cons_of_isBlankChar {c : Char} (h : isBlankChar c = true) (text : Text) :
    glyphs (c :: text) = glyphs text := by
  rw [glyphs, List.filter_cons_of_neg (by simp [h])]
  rfl

theorem isBlank_append (front rest : Text) :
    isBlank (front ++ rest) = (isBlank front && isBlank rest) := List.all_append

theorem glyphs_of_isBlank {text : Text} (h : isBlank text = true) : glyphs text = [] := by
  apply List.filter_eq_nil_iff.mpr
  intro c hc
  simp [List.all_eq_true.mp h c hc]

theorem isBlank_of_sublist {text part : Text} (hs : part.Sublist text) (h : isBlank text = true) :
    isBlank part = true :=
  List.all_eq_true.mpr fun c hc => List.all_eq_true.mp h c (hs.subset hc)

theorem dropLeadingBreak_sublist (text : Text) : (dropLeadingBreak text).Sublist text := by
  unfold dropLeadingBreak
  split
  · exact (List.sublist_cons_self ..).trans (List.sublist_cons_self ..)
  · exact List.drop_sublist 1 _

/-- A text that does not start with a blank. -/
def FirmStart (text : Text) : Prop := ∀ c ∈ text.head?, isBlankChar c = false

/-- A text that does not end in a blank. -/
def FirmEnd (text : Text) : Prop := ∀ c ∈ text.getLast?, isBlankChar c = false

theorem isBlank_of_firmStart {text : Text} (h : FirmStart text) (hne : text ≠ []) :
    isBlank text = false := by
  cases text with
  | nil => exact absurd rfl hne
  | cons c text =>
    have hc : isBlankChar c = false := h c rfl
    simp [isBlank, hc]

theorem firmStart_reverse {text : Text} : FirmStart text.reverse ↔ FirmEnd text := by
  rw [FirmStart, FirmEnd, List.head?_reverse]

theorem firmStart_append {front : Text} (h : FirmStart front) (hne : front ≠ []) (rest : Text) :
    FirmStart (front ++ rest) := by
  cases front with
  | nil => exact absurd rfl hne
  | cons c front => exact h

theorem firmStart_of_append {front rest : Text} (h : FirmStart (front ++ rest)) :
    FirmStart front := by
  cases front with
  | nil => simp [FirmStart]
  | cons c front => exact h

theorem firmEnd_append {rest : Text} (h : FirmEnd rest) (hne : rest ≠ []) (front : Text) :
    FirmEnd (front ++ rest) := by
  unfold FirmEnd
  rw [List.getLast?_append, Option.or_of_isSome (by simpa using hne)]
  exact h

/-- Every text is a firm part with blanks behind it. -/
theorem exists_firmEnd (text : Text) :
    ∃ front blanks, text = front ++ blanks ∧ FirmEnd front ∧ isBlank blanks = true := by
  obtain ⟨tail, e, ht⟩ := eq_trimEnd_append isBlankChar text
  refine ⟨trimEnd isBlankChar text, tail, e, ?_, ht⟩
  rw [← firmStart_reverse, trimEnd, List.reverse_reverse]
  intro c hc
  have := List.head?_dropWhile_not (p := isBlankChar) (l := text.reverse)
  rw [Option.mem_def.mp hc] at this
  simpa using this

/-- Every text is a firm part with blanks in front of it. -/
theorem exists_firmStart (text : Text) :
    ∃ blanks rest, text = blanks ++ rest ∧ isBlank blanks = true ∧ FirmStart rest := by
  obtain ⟨front, blanks, e, hf, hb⟩ := exists_firmEnd text.reverse
  refine ⟨blanks.reverse, front.reverse, ?_, ?_, firmStart_reverse.mpr hf⟩
  · rw [← List.reverse_append, ← e, List.reverse_reverse]
  · rw [isBlank, List.all_reverse]
    exact hb

/-- Every text is empty or blank, or a firm part with blanks on both sides. -/
theorem exists_firm (text : Text) :
    ∃ left mid right, text = left ++ mid ++ right ∧ isBlank left = true ∧ FirmStart mid
      ∧ FirmEnd mid ∧ isBlank right = true ∧ (mid = [] → right = []) := by
  obtain ⟨left, rest, e, hl, hr⟩ := exists_firmStart text
  obtain ⟨mid, right, rfl, hm, hb⟩ := exists_firmEnd rest
  cases mid with
  | nil =>
    refine ⟨left ++ right, [], [], by simpa using e, ?_, by simp [FirmStart], hm, rfl, fun _ => rfl⟩
    rw [isBlank_append, hl, hb]
    rfl
  | cons c mid =>
    refine ⟨left, c :: mid, right, ?_, hl, hr, hm, hb, by simp⟩
    rw [e, List.append_assoc]

end Text

/-! ### Blanks next to firm text -/

section firm
variable {p u v q : Text}

theorem isBlankChar_of_isPadding {c : Char} (h : isPadding c = true) : isBlankChar c = true := by
  simp only [isPadding, Bool.or_eq_true, beq_iff_eq] at h
  rcases h with rfl | rfl <;> rfl

theorem dropWhile_append_firm {f : Char → Bool} (hf : ∀ c, f c = true → isBlankChar c = true)
    (hq : FirmStart q) (v : Text) : (v ++ q).dropWhile f = v.dropWhile f ++ q := by
  induction v with
  | nil =>
    cases q with
    | nil => rfl
    | cons c q =>
      have hc : isBlankChar c = false := hq c rfl
      rw [List.nil_append, List.dropWhile_cons_of_neg]
      · rfl
      · intro h
        simp [hf c h] at hc
  | cons c v ih =>
    rw [List.cons_append, List.dropWhile_cons, List.dropWhile_cons, ih]
    split <;> rfl

theorem trimEnd_append_of_firmEnd {f : Char → Bool} (hf : ∀ c, f c = true → isBlankChar c = true)
    (hp : FirmEnd p) (u : Text) : trimEnd f (p ++ u) = p ++ trimEnd f u := by
  rw [trimEnd, List.reverse_append, dropWhile_append_firm hf (firmStart_reverse.mpr hp),
    List.reverse_append, List.reverse_reverse]
  rfl

theorem trimStart_append_firm (hq : FirmStart q) (v : Text) :
    trimStart isPadding (v ++ q) = trimStart isPadding v ++ q :=
  dropWhile_append_firm (fun _ => isBlankChar_of_isPadding) hq v

theorem trimEnd_append_firm (hp : FirmEnd p) (u : Text) :
    trimEnd isPadding (p ++ u) = p ++ trimEnd isPadding u :=
  trimEnd_append_of_firmEnd (fun _ => isBlankChar_of_isPadding) hp u

theorem isBlank_trimStart (f : Char → Bool) (hv : isBlank v = true) :
    isBlank (trimStart f v) = true := isBlank_of_sublist (trimStart_sublist f v) hv

theorem isBlank_trimEnd (f : Char → Bool) (hu : isBlank u = true) :
    isBlank (trimEnd f u) = true := isBlank_of_sublist (trimEnd_sublist f u) hu

theorem ne_of_firm {c x : Char} (hc : isBlankChar c = false) (hx : isBlankChar x = true) :
    c ≠ x := by
  rintro rfl
  rw [hc] at hx
  simp at hx

theorem endsWithFeed_append_firm (hp : FirmEnd p) (u : Text) :
    endsWithFeed (p ++ u) = endsWithFeed u := by
  unfold endsWithFeed
  rw [List.getLast?_append]
  cases hu : u.getLast? with
  | some c => rfl
  | none =>
    cases hl : p.getLast? with
    | none => rfl
    | some c => simpa using ne_of_firm (hp c hl) (x := '\n') rfl

theorem dropTrailingReturn_append_firm (hp : FirmEnd p) (u : Text) :
    dropTrailingReturn (p ++ u) = p ++ dropTrailingReturn u := by
  unfold dropTrailingReturn
  cases u with
  | nil =>
    rw [List.append_nil, if_neg]
    · simp
    · cases hl : p.getLast? with
      | none => simp
      | some c => simpa using ne_of_firm (hp c hl) (x := '\r') rfl
  | cons c u =>
    have last : (p ++ c :: u).getLast? = (c :: u).getLast? := by
      rw [List.getLast?_append]
      exact Option.or_of_isSome (by simp)
    rw [last, List.dropLast_append_of_ne_nil (List.cons_ne_nil c u)]
    split <;> rfl

theorem dropTrailingBreak_append_firm (hp : FirmEnd p) (u : Text) :
    dropTrailingBreak (p ++ u) = p ++ dropTrailingBreak u := by
  unfold dropTrailingBreak
  rw [endsWithFeed_append_firm hp]
  split
  · rename_i hu
    have hne : u ≠ [] := by
      rintro rfl
      simp [endsWithFeed] at hu
    rw [List.dropLast_append_of_ne_nil hne, dropTrailingReturn_append_firm hp]
  · rfl

theorem dropLeadingBreak_append_firm (hq : FirmStart q) (hv : v ≠ []) :
    dropLeadingBreak (v ++ q) = dropLeadingBreak v ++ q := by
  match v, hv with
  | [a], _ =>
    cases q with
    | nil => rw [List.append_nil, List.append_nil]
    | cons b q =>
      have hb := ne_of_firm (hq b rfl) (x := '\n') rfl
      simp [dropLeadingBreak, hb]
  | a :: b :: v, _ =>
    by_cases h : a = '\r' ∧ b = '\n'
    · obtain ⟨rfl, rfl⟩ := h
      rfl
    · have drop_one (t : Text) : dropLeadingBreak (a :: b :: t) = b :: t := by
        apply dropLeadingBreak.eq_2
        intro rest e
        obtain ⟨rfl, rfl, -⟩ := e
        exact h ⟨rfl, rfl⟩
      rw [List.cons_append, List.cons_append, drop_one, drop_one]
      rfl

theorem startsWithBreak_of_firm (hq : FirmStart q) : startsWithBreak q = false := by
  match q with
  | [] => rfl
  | c :: q =>
    have h1 := ne_of_firm (hq c rfl) (x := '\n') rfl
    have h2 := ne_of_firm (hq c rfl) (x := '\r') rfl
    simp [startsWithBreak, h1, h2]

/-! ### Cutting at a break -/

theorem cutFirstBreak?_cons (c : Char) (t : Text) :
    cutFirstBreak? (c :: t) = if c = '\n' then some ([], t)
      else (cutFirstBreak? t).map fun parts => (c :: parts.1, parts.2) := by
  unfold cutFirstBreak? firstLine
  split
  · rename_i hd
    split
    · rename_i hc
      simp [hc] at hd
    · rename_i hc
      rw [List.dropWhile_cons_of_pos (by simpa using hc)] at hd
      simp [hd]
  · rename_i x rest hd
    split
    · rename_i hc
      subst hc
      simp at hd
      simp [hd.2]
    · rename_i hc
      rw [List.dropWhile_cons_of_pos (by simpa using hc)] at hd
      simp [hd, hc]

theorem cutFirstBreak?_append_of_some {x first rest : Text}
    (h : cutFirstBreak? x = some (first, rest)) (t : Text) :
    cutFirstBreak? (x ++ t) = some (first, rest ++ t) := by
  induction x generalizing first with
  | nil => simp [cutFirstBreak?] at h
  | cons c x ih =>
    rw [List.cons_append, cutFirstBreak?_cons]
    rw [cutFirstBreak?_cons] at h
    split at h
    · rename_i hc
      obtain ⟨rfl, rfl⟩ := Prod.mk.injEq .. ▸ Option.some.inj h
      exact if_pos hc
    · rename_i hc
      obtain ⟨⟨f, r⟩, hf, hp⟩ := Option.map_eq_some_iff.mp h
      obtain ⟨rfl, rfl⟩ := Prod.mk.injEq .. ▸ hp
      rw [if_neg hc, ih hf]
      rfl

theorem cutFirstBreak?_append_of_none {x : Text} (h : cutFirstBreak? x = none) (t : Text) :
    cutFirstBreak? (x ++ t) = (cutFirstBreak? t).map fun parts => (x ++ parts.1, parts.2) := by
  induction x with
  | nil => simp
  | cons c x ih =>
    rw [cutFirstBreak?_cons] at h
    split at h
    · simp at h
    · rename_i hc
      rw [List.cons_append, cutFirstBreak?_cons, if_neg hc, ih (Option.map_eq_none_iff.mp h),
        Option.map_map]
      rfl

theorem cutLastBreak?_eq (t : Text) :
    cutLastBreak? t = (cutFirstBreak? t.reverse).map fun parts =>
      (parts.2.reverse, parts.1.reverse) := by
  unfold cutLastBreak? cutFirstBreak?
  cases t.reverse.dropWhile (· != '\n') with
  | nil => rfl
  | cons c front => rfl

theorem isBlank_first_of_firm {m first rest : Text} (hm : FirmStart m)
    (h : cutFirstBreak? m = some (first, rest)) : isBlank first = false := by
  have e := eq_of_cutFirstBreak? h
  cases first with
  | nil =>
    rw [e] at hm
    exact absurd (hm '\n' rfl) (by decide)
  | cons c first =>
    rw [e] at hm
    have hc : isBlankChar c = false := hm c rfl
    simp [isBlank, hc]

/-- The header's line is dropped from the blanks in front of the content alone. -/
theorem dropHeaderLine_append_firm {x m : Text} (hp : FirmEnd p) (hx : isBlank x = true)
    (hm : FirmStart m) : Splice.dropHeaderLine (p ++ u) (x ++ m)
      = (p ++ (Splice.dropHeaderLine u x).1, (Splice.dropHeaderLine u x).2 ++ m) := by
  unfold Splice.dropHeaderLine
  cases h : cutFirstBreak? x with
  | some parts =>
    obtain ⟨first, rest⟩ := parts
    have blank : isBlank first = true := by
      rw [eq_of_cutFirstBreak? h, isBlank_append] at hx
      exact (Bool.and_eq_true .. ▸ hx).1
    simp [cutFirstBreak?_append_of_some h, blank, trimEnd_append_firm hp]
  | none =>
    rw [cutFirstBreak?_append_of_none h]
    cases hcut : cutFirstBreak? m with
    | none => rfl
    | some parts => simp [isBlank_append, isBlank_first_of_firm hm hcut]

/-- The footer's line is dropped from the blanks behind the content alone. -/
theorem dropFooterLine_append_firm {m y : Text} (hm : FirmEnd m) (hy : isBlank y = true)
    (hq : FirmStart q) : Splice.dropFooterLine (m ++ y) (v ++ q)
      = (m ++ (Splice.dropFooterLine y v).1, (Splice.dropFooterLine y v).2 ++ q) := by
  unfold Splice.dropFooterLine
  rw [cutLastBreak?_eq, cutLastBreak?_eq, List.reverse_append]
  cases h : cutFirstBreak? y.reverse with
  | some parts =>
    obtain ⟨last, rest⟩ := parts
    have blank : isBlank last.reverse = true := by
      have hy' : isBlank y.reverse = true := by rwa [isBlank, List.all_reverse]
      rw [eq_of_cutFirstBreak? h, isBlank_append] at hy'
      rw [isBlank, List.all_reverse]
      exact (Bool.and_eq_true .. ▸ hy').1
    simp [cutFirstBreak?_append_of_some h, blank, trimStart_append_firm hq,
      dropTrailingReturn_append_firm hm]
  | none =>
    rw [cutFirstBreak?_append_of_none h]
    cases hcut : cutFirstBreak? m.reverse with
    | none => rfl
    | some parts =>
      have firm := isBlank_first_of_firm (firmStart_reverse.mpr hm) hcut
      have firm' : isBlank parts.1.reverse = false := by rwa [isBlank, List.all_reverse]
      simp [isBlank_append, firm']

theorem isBlank_dropHeaderLine {x : Text} (hu : isBlank u = true) (hx : isBlank x = true) :
    isBlank (Splice.dropHeaderLine u x).1 = true ∧ isBlank (Splice.dropHeaderLine u x).2 = true := by
  unfold Splice.dropHeaderLine
  split
  · rename_i first rest h
    rw [eq_of_cutFirstBreak? h, isBlank_append, Bool.and_eq_true] at hx
    split
    · exact ⟨isBlank_trimEnd isPadding hu, isBlank_of_sublist (List.sublist_cons_self ..) hx.2⟩
    · refine ⟨hu, ?_⟩
      rw [eq_of_cutFirstBreak? h, isBlank_append, hx.1, hx.2]
      rfl
  · exact ⟨hu, hx⟩

theorem isBlank_dropTrailingReturn (hu : isBlank u = true) :
    isBlank (dropTrailingReturn u) = true := by
  unfold dropTrailingReturn
  split
  · exact isBlank_of_sublist (List.dropLast_sublist u) hu
  · exact hu

theorem isBlank_dropFooterLine {y : Text} (hy : isBlank y = true) (hv : isBlank v = true) :
    isBlank (Splice.dropFooterLine y v).1 = true ∧ isBlank (Splice.dropFooterLine y v).2 = true := by
  unfold Splice.dropFooterLine
  split
  · rename_i rest last h
    rw [eq_of_cutLastBreak? h, isBlank_append, Bool.and_eq_true] at hy
    split
    · exact ⟨isBlank_dropTrailingReturn hy.1, isBlank_trimStart isPadding hv⟩
    · refine ⟨?_, hv⟩
      rw [eq_of_cutLastBreak? h, isBlank_append, hy.1, hy.2]
      rfl
  · exact ⟨hy, hv⟩

end firm

/-! ### Seams -/

namespace Splice

/-- The blanks between what stands before a block and its content: `u` stood at the end of the one
and `x` at the start of the other. -/
def leftSeam (opens : Bool) (u x : Text) : Text :=
  let parts := if opens then dropHeaderLine u x else (u, x)
  parts.1 ++ if !opens && parts.2.head? != some '\n' then '\n' :: parts.2 else parts.2

/-- The blanks between the content of a block and what stands after it: `y` stood at the end of the
one and `v` at the start of the other. -/
def rightSeam (closes : Bool) (y v : Text) : Text :=
  let parts := if closes then dropFooterLine y v else (y, v)
  (if !closes && !endsWithFeed parts.1 then parts.1 ++ ['\n'] else parts.1) ++ parts.2

/-- The blanks that are left where a block without content stood between `u` and `v`. -/
def emptySeam (alone atEnd : Bool) (u v : Text) : Text :=
  if alone then
    if atEnd then dropTrailingBreak (trimEnd isPadding u)
    else trimEnd isPadding u ++ dropLeadingBreak (trimStart isPadding v)
  else u ++ v

variable {p u x m y v q : Text}

theorem head?_append_firm (hs : FirmStart m) (t rest : Text) :
    ((t ++ (m ++ rest)).head? != some '\n') = (t.head? != some '\n') ∨ m = [] := by
  cases t with
  | cons c t => exact .inl rfl
  | nil =>
    cases m with
    | nil => exact .inr rfl
    | cons c m =>
      left
      have hc := ne_of_firm (hs c rfl) (x := '\n') rfl
      simp [bne, hc]

/-- Content with a glyph is joined to its neighbours by two seams. -/
theorem keepLines_eq (hp : FirmEnd p) (hx : isBlank x = true) (hs : FirmStart m) (he : FirmEnd m)
    (hne : m ≠ []) (hy : isBlank y = true) (hq : FirmStart q) :
    keepLines (p ++ u) (x ++ m ++ y) (v ++ q)
      = p ++ leftSeam (opensLine (p ++ u)) u x ++ m ++ rightSeam (closesLine (v ++ q)) y v ++ q := by
  unfold keepLines leftSeam rightSeam
  dsimp only
  generalize opensLine (p ++ u) = opens
  generalize closesLine (v ++ q) = closes
  have header : (if opens = true then dropHeaderLine (p ++ u) (x ++ m ++ y)
        else (p ++ u, x ++ m ++ y))
      = (p ++ (if opens = true then dropHeaderLine u x else (u, x)).1,
          (if opens = true then dropHeaderLine u x else (u, x)).2 ++ (m ++ y)) := by
    rw [List.append_assoc]
    split
    · exact dropHeaderLine_append_firm hp hx (firmStart_append hs hne y)
    · rfl
  rw [header]
  generalize (if opens = true then dropHeaderLine u x else (u, x)) = left
  obtain ⟨u', x'⟩ := left
  have firm := firmEnd_append he hne x'
  have footer : (if closes = true then dropFooterLine (x' ++ (m ++ y)) (v ++ q)
        else (x' ++ (m ++ y), v ++ q))
      = (x' ++ (m ++ (if closes = true then dropFooterLine y v else (y, v)).1),
          (if closes = true then dropFooterLine y v else (y, v)).2 ++ q) := by
    rw [← List.append_assoc, ← List.append_assoc]
    split
    · exact dropFooterLine_append_firm firm hy hq
    · rfl
  dsimp only
  rw [footer]
  generalize (if closes = true then dropFooterLine y v else (y, v)) = right
  obtain ⟨y', v'⟩ := right
  have head := (head?_append_firm hs x' y').resolve_right hne
  dsimp only
  rw [head]
  have feed (t : Text) : endsWithFeed (t ++ (m ++ y')) = endsWithFeed y' := by
    rw [← List.append_assoc]
    exact endsWithFeed_append_firm (firmEnd_append he hne t) y'
  split
  · rw [← List.cons_append, feed]
    split <;> simp
  · rw [feed]
    split <;> simp

/-- Where a block without content stood, one seam is left. -/
theorem collapse_eq (hp : FirmEnd p) (hq : FirmStart q) :
    collapse (p ++ u) (v ++ q)
      = p ++ emptySeam (opensLine (p ++ u) && closesLine (v ++ q))
          (trimStart isPadding (v ++ q)).isEmpty u v ++ q := by
  unfold collapse emptySeam
  dsimp only
  split
  · rename_i alone
    rw [trimEnd_append_firm hp, trimStart_append_firm hq]
    split
    · rename_i atEnd
      have hq' : q = [] := (List.append_eq_nil_iff.mp (List.isEmpty_iff.mp atEnd)).2
      rw [dropTrailingBreak_append_firm hp, hq', List.append_nil]
    · rename_i inside
      have hv : trimStart isPadding v ≠ [] := by
        intro hv
        have closes := (Bool.and_eq_true .. ▸ alone).2
        rw [closesLine, trimStart_append_firm hq, hv, List.nil_append,
          startsWithBreak_of_firm hq, Bool.or_false] at closes
        rw [hv, List.nil_append] at inside
        exact inside closes
      rw [dropLeadingBreak_append_firm hq hv]
      simp only [List.append_assoc]
  · simp only [List.append_assoc]

theorem isBlank_leftSeam (opens : Bool) (hu : isBlank u = true) (hx : isBlank x = true) :
    isBlank (leftSeam opens u x) = true := by
  have parts : isBlank (if opens then dropHeaderLine u x else (u, x)).1 = true
      ∧ isBlank (if opens then dropHeaderLine u x else (u, x)).2 = true := by
    cases opens with
    | true => exact isBlank_dropHeaderLine hu hx
    | false => exact ⟨hu, hx⟩
  unfold leftSeam
  dsimp only
  generalize (if opens then dropHeaderLine u x else (u, x)) = pair at parts ⊢
  rw [isBlank_append, parts.1, Bool.true_and]
  split
  · exact parts.2
  · exact parts.2

theorem isBlank_rightSeam (closes : Bool) (hy : isBlank y = true) (hv : isBlank v = true) :
    isBlank (rightSeam closes y v) = true := by
  have parts : isBlank (if closes then dropFooterLine y v else (y, v)).1 = true
      ∧ isBlank (if closes then dropFooterLine y v else (y, v)).2 = true := by
    cases closes with
    | true => exact isBlank_dropFooterLine hy hv
    | false => exact ⟨hy, hv⟩
  unfold rightSeam
  dsimp only
  generalize (if closes then dropFooterLine y v else (y, v)) = pair at parts ⊢
  rw [isBlank_append, parts.2, Bool.and_true]
  split
  · rw [isBlank_append, parts.1]
    rfl
  · exact parts.1

theorem isBlank_emptySeam (alone atEnd : Bool) (hu : isBlank u = true) (hv : isBlank v = true) :
    isBlank (emptySeam alone atEnd u v) = true := by
  have hu' := isBlank_trimEnd isPadding hu
  have hv' := isBlank_trimStart isPadding hv
  unfold emptySeam
  split
  · split
    · unfold dropTrailingBreak
      split
      · exact isBlank_dropTrailingReturn (isBlank_of_sublist (List.dropLast_sublist _) hu')
      · exact hu'
    · rw [isBlank_append, hu', isBlank_of_sublist (dropLeadingBreak_sublist _) hv']
      rfl
  · rw [isBlank_append, hu, hv]
    rfl

/-! ### What a splice looks at -/

/-- What decides about the seams besides the blanks that meet there: whether a glyph stands before the
block, in the content and after the block, and whether a line feed stands between two glyphs of the
content. -/
structure Outline where
  front : Bool
  inside : Bool
  feed : Bool
  back : Bool
deriving DecidableEq, Repr

namespace Outline

/-- The outline of three firm texts. -/
def ofTexts (p m q : Text) : Outline := ⟨!p.isEmpty, !m.isEmpty, m.contains '\n', !q.isEmpty⟩

/-- Whether a glyph stands on the line of the block, with `u` before the block and `v` after it. -/
def sharesLine (o : Outline) (u v : Text) : Bool :=
  !((u.contains '\n' || !o.front) && (v.contains '\n' || !o.back))

/-- Whether the block is the first thing on its line. -/
def opensLine (o : Outline) (u : Text) : Bool :=
  (!o.front && (trimEnd isPadding u).isEmpty) || endsWithFeed (trimEnd isPadding u)

/-- Whether only padding comes after the block. -/
def endsText (o : Outline) (v : Text) : Bool := !o.back && (trimStart isPadding v).isEmpty

/-- Whether the block is the last thing on its line. -/
def closesLine (o : Outline) (v : Text) : Bool :=
  o.endsText v || startsWithBreak (trimStart isPadding v)

/-- The seams of a splice: `u` and `x` meet in front of the content, `y` and `v` behind it. -/
def seams (o : Outline) (u x y v : Text) : Text × Text :=
  if o.sharesLine u v && !(x.contains '\n' || o.feed || y.contains '\n') then (u ++ x, y ++ v)
  else if o.inside then (leftSeam (o.opensLine u) u x, rightSeam (o.closesLine v) y v)
  else (emptySeam (o.opensLine u && o.closesLine v) (o.endsText v) u v, [])

end Outline

theorem isBlank_firstLine_firm (hq : FirmStart q) (hv : isBlank v = true) :
    isBlank (firstLine (v ++ q)) = (v.contains '\n' || q.isEmpty) := by
  induction v with
  | nil =>
    cases q with
    | nil => rfl
    | cons c q =>
      have hc : isBlankChar c = false := hq c rfl
      have feed := ne_of_firm hc (x := '\n') rfl
      simp [firstLine, feed, isBlank, hc]
  | cons c v ih =>
    simp only [isBlank, List.all_cons, Bool.and_eq_true] at hv
    by_cases feed : c = '\n'
    · simp [firstLine, feed, isBlank]
    · have step : firstLine (c :: v ++ q) = c :: firstLine (v ++ q) := by
        simp [firstLine, feed]
      rw [step, isBlank, List.all_cons, hv.1, Bool.true_and, ← isBlank, ih hv.2]
      simp [Ne.symm feed]

theorem isBlank_lastLine_firm (hp : FirmEnd p) (hu : isBlank u = true) :
    isBlank (lastLine (p ++ u)) = (u.contains '\n' || p.isEmpty) := by
  have mirrored : isBlank (lastLine (p ++ u)) = isBlank (firstLine (u.reverse ++ p.reverse)) := by
    rw [lastLine, isBlank, List.all_reverse, List.reverse_append]
    rfl
  have hu' : isBlank u.reverse = true := by rwa [isBlank, List.all_reverse]
  rw [mirrored, isBlank_firstLine_firm (firmStart_reverse.mpr hp) hu']
  simp

theorem sharesLine_eq (hp : FirmEnd p) (hu : isBlank u = true) (hv : isBlank v = true)
    (hq : FirmStart q) :
    sharesLine (p ++ u) (v ++ q) = (Outline.ofTexts p m q).sharesLine u v := by
  rw [sharesLine, isBlank_lastLine_firm hp hu, isBlank_firstLine_firm hq hv, Outline.sharesLine,
    Outline.ofTexts, Bool.not_not, Bool.not_not]

theorem opensLine_eq (hp : FirmEnd p) (u : Text) :
    opensLine (p ++ u) = (Outline.ofTexts p m q).opensLine u := by
  rw [opensLine, trimEnd_append_firm hp, endsWithFeed_append_firm hp, Outline.opensLine,
    Outline.ofTexts, Bool.not_not]
  cases p <;> rfl

theorem endsText_eq (hq : FirmStart q) (v : Text) :
    (trimStart isPadding (v ++ q)).isEmpty = (Outline.ofTexts p m q).endsText v := by
  rw [trimStart_append_firm hq, Outline.endsText, Outline.ofTexts, Bool.not_not, Bool.and_comm]
  cases trimStart isPadding v <;> rfl

theorem startsWithBreak_append_firm (hq : FirmStart q) (v : Text) :
    startsWithBreak (v ++ q) = startsWithBreak v := by
  match v with
  | [] => exact startsWithBreak_of_firm hq
  | [a] =>
    cases q with
    | nil => rfl
    | cons c q =>
      have hc := ne_of_firm (hq c rfl) (x := '\n') rfl
      by_cases feed : a = '\n'
      · rw [feed]
        rfl
      · simp [startsWithBreak, feed, hc]
  | a :: b :: v =>
    by_cases feed : a = '\n'
    · rw [feed]
      rfl
    · by_cases both : a = '\r' ∧ b = '\n'
      · rw [both.1, both.2]
        rfl
      · have none_here (t : Text) : startsWithBreak (a :: b :: t) = false := by
          apply startsWithBreak.eq_3
          · intro rest e
            exact feed (List.cons.inj e).1
          · intro rest e
            exact both ⟨(List.cons.inj e).1, (List.cons.inj (List.cons.inj e).2).1⟩
        exact (none_here (v ++ q)).trans (none_here v).symm

theorem closesLine_eq (hq : FirmStart q) (v : Text) :
    closesLine (v ++ q) = (Outline.ofTexts p m q).closesLine v := by
  rw [closesLine, endsText_eq hq (p := p) (m := m), trimStart_append_firm hq,
    startsWithBreak_append_firm hq, Outline.closesLine]

theorem isBlank_seams (o : Outline) (hu : isBlank u = true) (hx : isBlank x = true)
    (hy : isBlank y = true) (hv : isBlank v = true) :
    isBlank (o.seams u x y v).1 = true ∧ isBlank (o.seams u x y v).2 = true := by
  unfold Outline.seams
  split
  · rw [isBlank_append, isBlank_append, hu, hx, hy, hv]
    exact ⟨rfl, rfl⟩
  · split
    · exact ⟨isBlank_leftSeam _ hu hx, isBlank_rightSeam _ hy hv⟩
    · exact ⟨isBlank_emptySeam _ _ hu hv, rfl⟩

end Splice

/-- **A splice moves blanks only**: the parts up to the last glyph, between the outer glyphs and from
the first glyph on are kept, and blanks stand between them, which do not depend on what these parts
are beyond their outline. -/
theorem splice_eq_seams {p u x m y v q : Text} (hp : FirmEnd p) (hu : isBlank u = true)
    (hx : isBlank x = true) (hs : FirmStart m) (he : FirmEnd m) (hy : isBlank y = true)
    (hv : isBlank v = true) (hq : FirmStart q) :
    splice (p ++ u) (x ++ m ++ y) (v ++ q)
      = p ++ ((Splice.Outline.ofTexts p m q).seams u x y v).1 ++ m
        ++ ((Splice.Outline.ofTexts p m q).seams u x y v).2 ++ q := by
  have feeds : (x ++ m ++ y).contains '\n'
      = (x.contains '\n' || (Splice.Outline.ofTexts p m q).feed || y.contains '\n') := by
    rw [Splice.Outline.ofTexts]
    simp [Bool.or_assoc]
  rw [splice, Splice.sharesLine_eq hp hu hv hq (m := m), feeds, Splice.Outline.seams]
  split
  · simp only [List.append_assoc]
  · cases m with
    | nil =>
      have blank : isBlank (x ++ [] ++ y) = true := by
        rw [List.append_nil, isBlank_append, hx, hy]
        rfl
      have bare : ¬ (Splice.Outline.ofTexts p [] q).inside = true := by simp [Splice.Outline.ofTexts]
      rw [if_pos blank, if_neg bare, Splice.collapse_eq hp hq,
        Splice.opensLine_eq hp u (m := []) (q := q), Splice.closesLine_eq hq v (p := p) (m := []),
        Splice.endsText_eq hq v (p := p) (m := [])]
      simp only [List.append_nil]
    | cons c m =>
      have hc : isBlankChar c = false := hs c rfl
      have firm : ¬ isBlank (x ++ c :: m ++ y) = true := by
        simp [isBlank, hc]
      have filled : (Splice.Outline.ofTexts p (c :: m) q).inside = true := rfl
      rw [if_neg firm, if_pos filled, Splice.keepLines_eq hp hx hs he (List.cons_ne_nil c m) hy hq,
        Splice.opensLine_eq hp u (m := c :: m) (q := q),
        Splice.closesLine_eq hq v (p := p) (m := c :: m)]

/-- The glyphs of a splice are those of its parts. -/
theorem glyphs_splice (before content after : Text) :
    glyphs (splice before content after) = glyphs before ++ glyphs content ++ glyphs after := by
  obtain ⟨p, u, rfl, hp, hu⟩ := exists_firmEnd before
  obtain ⟨x, m, y, rfl, hx, hs, he, hy, -⟩ := exists_firm content
  obtain ⟨v, q, rfl, hv, hq⟩ := exists_firmStart after
  obtain ⟨hl, hr⟩ := Splice.isBlank_seams (Splice.Outline.ofTexts p m q) hu hx hy hv
  rw [splice_eq_seams hp hu hx hs he hy hv hq]
  simp only [glyphs_append, glyphs_of_isBlank hl, glyphs_of_isBlank hr, glyphs_of_isBlank hu,
    glyphs_of_isBlank hx, glyphs_of_isBlank hy, glyphs_of_isBlank hv, List.append_nil,
    List.nil_append]

end Stencil
