import Stencil.Proofs.Seams
import Stencil.Proofs.Run

/-! # Blanks around a condition

A condition is trimmed before it is read, so what stands around it in the way of blanks does not matter,
as long as something is left.  A text of blanks only is not the empty condition: it is read as the empty
path, and mappings may have an empty key.

* `trim_append_firm`: trimming goes up to a firm part from both sides.
* `parse_eq_of_trim`: texts with the same trimmed text are read alike, unless one of them is empty.
* `evaluate_of_isBlank`: what a condition of blanks asks for.
* `evaluate_trim_iff`: exactly when a condition holds like its trimmed text. -/

namespace Stencil

open Text

/-! ### Trimming -/

namespace Text
variable {front core rest blanks text : Text}

/-- Trimming stops at a firm part in the middle. -/
theorem trim_append_firm (hs : FirmStart core) (he : FirmEnd core) (hne : core ≠ [])
    (front rest : Text) : trim (front ++ core ++ rest)
      = trimStart isBlankChar front ++ core ++ trimEnd isBlankChar rest := by
  have fromStart : trimStart isBlankChar (front ++ (core ++ rest))
      = trimStart isBlankChar front ++ (core ++ rest) :=
    dropWhile_append_firm (fun _ h => h) (firmStart_append hs hne rest) front
  have ends : FirmEnd (trimStart isBlankChar front ++ core) := firmEnd_append he hne _
  rw [trim, List.append_assoc, fromStart, ← List.append_assoc,
    trimEnd_append_of_firmEnd (fun _ h => h) ends]

theorem trimEnd_of_isBlank (hb : isBlank blanks = true) : trimEnd isBlankChar blanks = [] := by
  have backwards : isBlank blanks.reverse = true := by rwa [isBlank, List.all_reverse]
  rw [trimEnd, ← trimStart, trimStart_of_isBlank backwards]
  rfl

/-- Trimming finds the firm part between blanks. -/
theorem trim_surrounded (hb : isBlank blanks = true) (hs : FirmStart core) (he : FirmEnd core)
    (hr : isBlank rest = true) : trim (blanks ++ core ++ rest) = core := by
  cases core with
  | nil =>
    apply isBlank_trim
    rw [List.append_nil, isBlank_append, hb, hr]
    rfl
  | cons c core =>
    rw [trim_append_firm hs he (List.cons_ne_nil c core), trimStart_of_isBlank hb,
      trimEnd_of_isBlank hr]
    simp

/-- A text is its trimmed text with blanks around it. -/
theorem exists_trim (text : Text) : ∃ left right, text = left ++ trim text ++ right
    ∧ isBlank left = true ∧ isBlank right = true ∧ FirmStart (trim text) ∧ FirmEnd (trim text) := by
  obtain ⟨left, mid, right, e, hl, hs, he, hr, -⟩ := exists_firm text
  have trimmed : trim text = mid := e ▸ trim_surrounded hl hs he hr
  exact ⟨left, right, trimmed ▸ e, hl, hr, trimmed ▸ hs, trimmed ▸ he⟩

theorem trim_trim (text : Text) : trim (trim text) = trim text := by
  obtain ⟨-, -, -, -, -, hs, he⟩ := exists_trim text
  have alone : trim ([] ++ trim text ++ []) = trim text := trim_surrounded rfl hs he rfl
  rwa [List.nil_append, List.append_nil] at alone

theorem trim_blanks_append (hb : isBlank blanks = true) (text : Text) :
    trim (blanks ++ text) = trim text := by
  obtain ⟨left, right, e, hl, hr, hs, he⟩ := exists_trim text
  have wider : isBlank (blanks ++ left) = true := by
    rw [isBlank_append, hb, hl]
    rfl
  have moved : blanks ++ text = (blanks ++ left) ++ trim text ++ right := by
    conv => lhs; rw [e]
    simp only [List.append_assoc]
  rw [moved, trim_surrounded wider hs he hr]

theorem trim_append_blanks (text : Text) (hb : isBlank blanks = true) :
    trim (text ++ blanks) = trim text := by
  obtain ⟨left, right, e, hl, hr, hs, he⟩ := exists_trim text
  have wider : isBlank (right ++ blanks) = true := by
    rw [isBlank_append, hr, hb]
    rfl
  have moved : text ++ blanks = left ++ trim text ++ (right ++ blanks) := by
    conv => lhs; rw [e]
    simp only [List.append_assoc]
  rw [moved, trim_surrounded hl hs he wider]

theorem trim_trimStart (text : Text) : trim (trimStart isBlankChar text) = trim text := by
  have hb : isBlank (text.takeWhile isBlankChar) = true := List.all_takeWhile
  have split := List.takeWhile_append_dropWhile (p := isBlankChar) (l := text)
  conv => rhs; rw [← split, trim_blanks_append hb]
  rfl

theorem trim_trimEnd (text : Text) : trim (trimEnd isBlankChar text) = trim text := by
  obtain ⟨tail, e, hb⟩ := eq_trimEnd_append isBlankChar text
  conv => rhs; rw [e, trim_append_blanks _ hb]

theorem trim_eq_nil_iff : trim text = [] ↔ isBlank text = true := by
  constructor
  · intro nothing
    obtain ⟨left, right, e, hl, hr, -⟩ := exists_trim text
    rw [e, nothing, List.append_nil, isBlank_append, hl, hr]
    rfl
  · exact isBlank_trim

theorem trim_ne_nil (visible : isBlank text = false) : trim text ≠ [] := by
  intro nothing
  rw [trim_eq_nil_iff.mp nothing] at visible
  cases visible

theorem ne_nil_of_not_isBlank (visible : isBlank text = false) : text ≠ [] := by
  rintro rfl
  exact absurd visible (by decide)

end Text

/-! ### Reading a trimmed text -/

namespace Condition
variable {text other rest : Text}

theorem parse_nil : parse [] = empty := by
  rw [parse]
  rfl

theorem parse_negation (h : trim text = '!' :: rest) : parse text = negation (parse rest) := by
  have some_char : text.isEmpty = false := by
    rw [List.isEmpty_eq_false_iff]
    rintro rfl
    exact absurd h (by simp [isBlank_trim (show isBlank [] = true from rfl)])
  rw [parse, some_char, if_neg Bool.false_ne_true]
  split
  · rename_i rest' found
    rw [h] at found
    rw [(List.cons.inj found).2]
  · rename_i other
    exact absurd h (other rest)

theorem parse_clause (hne : text ≠ []) (h : ∀ rest, trim text ≠ '!' :: rest) :
    parse text = ofClause (trim text) := by
  rw [parse, List.isEmpty_eq_false_iff.mpr hne, if_neg Bool.false_ne_true]
  split
  · rename_i rest found
    exact absurd found (h rest)
  · rfl

/-- Texts that are not empty are read alike if they are the same without the blanks at their ends. -/
theorem parse_eq_of_trim (hne : text ≠ []) (hne' : other ≠ []) (same : trim text = trim other) :
    parse text = parse other := by
  by_cases bang : ∃ rest, trim text = '!' :: rest
  · obtain ⟨rest, h⟩ := bang
    rw [parse_negation h, parse_negation (same.symm.trans h)]
  · have clause : ∀ rest, trim text ≠ '!' :: rest := fun rest h => bang ⟨rest, h⟩
    rw [parse_clause hne clause, parse_clause hne' (same ▸ clause), same]

theorem parse_trim (visible : isBlank text = false) : parse (trim text) = parse text :=
  parse_eq_of_trim (trim_ne_nil visible) (ne_nil_of_not_isBlank visible) (trim_trim text)

theorem parse_trimEnd (visible : isBlank text = false) :
    parse (trimEnd isBlankChar text) = parse text := by
  apply parse_eq_of_trim _ (ne_nil_of_not_isBlank visible) (trim_trimEnd text)
  intro nothing
  apply trim_ne_nil visible
  rw [← trim_trimEnd, nothing]
  rfl

/-- A text of blanks is read as the empty path. -/
theorem parse_of_isBlank (hb : isBlank text = true) (hne : text ≠ []) : parse text = truth [] := by
  have nothing := isBlank_trim hb
  rw [parse_clause hne (by simp [nothing]), nothing]
  rfl

end Condition

/-! ### Conditions of blanks -/

/-- The value of the empty key, in a mapping that has one. -/
def Value.atEmptyKey? : Value → Option Value
  | .mapping fields => fields.lookup []
  | _ => none

theorem Value.resolve_nil (data : Value) :
    resolve [] data = .ok (data.atEmptyKey?.getD undefined) := by
  have keys : splitOn '.' ([] : Text) = [[]] := rfl
  have step : resolve [] data = child data [] := by
    rw [resolve, keys, walk, List.foldlM_cons]
    cases child data [] <;> rfl
  rw [step]
  cases data <;> rfl

/-- A condition of blanks asks for the value of the empty key. -/
theorem evaluate_of_isBlank {condition : Text} (hb : isBlank condition = true) (hne : condition ≠ [])
    (data : Value) :
    evaluate (some condition) data = (data.atEmptyKey?.getD .undefined).isTruthy := by
  rw [evaluate, Condition.parse_of_isBlank hb hne, Condition.holds, Value.resolve_nil]
  rfl

/-- A condition of blanks, but not the empty one, finds something else than a false value at the empty
key of the data. -/
structure FindsEmptyKey (condition : Text) (data : Value) : Prop where
  nonempty : condition ≠ []
  blank : isBlank condition = true
  found : ∃ v, data.atEmptyKey? = some v ∧ v.isTruthy ≠ .ok false

theorem evaluate_of_isBlank_iff {condition : Text} (hb : isBlank condition = true) (data : Value) :
    evaluate (some condition) data = .ok false ↔ ¬ FindsEmptyKey condition data := by
  by_cases hne : condition = []
  · subst hne
    rw [evaluate, Condition.parse_nil]
    exact ⟨fun _ finds => finds.nonempty rfl, fun _ => rfl⟩
  · rw [evaluate_of_isBlank hb hne]
    cases key : data.atEmptyKey? with
    | none =>
      refine ⟨fun _ finds => ?_, fun _ => rfl⟩
      obtain ⟨v, found, -⟩ := finds.found
      rw [key] at found
      cases found
    | some v =>
      constructor
      · intro false_there finds
        obtain ⟨w, found, not_false⟩ := finds.found
        rw [key] at found
        obtain rfl := Option.some.inj found
        exact not_false false_there
      · intro nothing_found
        exact Classical.byContradiction fun not_false =>
          nothing_found ⟨hne, hb, v, key, not_false⟩

/-- **Blanks around a condition** do not change its outcome, except that a condition of blanks only is
not the empty one: where the data have an empty key, it asks for the value of that key. -/
theorem evaluate_trim_iff (condition : Text) (data : Value) :
    (evaluate (some condition) data = evaluate (some (trim condition)) data
        ↔ ¬ FindsEmptyKey condition data)
      ∧ (isBlank condition = true →
        (evaluate (some condition) data = .ok false ↔ ¬ FindsEmptyKey condition data)) := by
  refine ⟨?_, fun hb => evaluate_of_isBlank_iff hb data⟩
  cases hb : isBlank condition with
  | true =>
    have empty : evaluate (some (trim condition)) data = .ok false := by
      rw [isBlank_trim hb, evaluate, Condition.parse_nil]
      rfl
    rw [empty]
    exact evaluate_of_isBlank_iff hb data
  | false =>
    have same : evaluate (some condition) data = evaluate (some (trim condition)) data := by
      rw [evaluate, evaluate, Condition.parse_trim hb]
    refine iff_of_true same fun finds => ?_
    rw [finds.blank] at hb
    cases hb

/-- A comparison between blanks, and a condition of blanks where the empty key has a false value. -/
theorem evaluate_trim_iff_padded :
    let data : Value := .mapping [([], .str []), ("n".toList, .int 3)]
    evaluate (some "\t n >= 3 \n".toList) data = .ok true
      ∧ evaluate (some "n >= 3".toList) data = .ok true
      ∧ evaluate (some "\u00a0 ".toList) data = .ok false := by
  intro data
  have none_blank : ¬ FindsEmptyKey "\t n >= 3 \n".toList data :=
    fun finds => absurd finds.blank (by decide)
  have false_found : ¬ FindsEmptyKey "\u00a0 ".toList data := by
    rintro ⟨-, -, v, found, not_false⟩
    obtain rfl := Option.some.inj found
    exact not_false rfl
  have holds : evaluate (some "\t n >= 3 \n".toList) data = .ok true := by decide +kernel
  have trimmed := (evaluate_trim_iff "\t n >= 3 \n".toList data).1.mpr none_blank
  refine ⟨holds, ?_, ((evaluate_trim_iff "\u00a0 ".toList data).2 (by decide)).mpr false_found⟩
  exact trimmed.symm.trans holds

/-- Blanks of their own make a condition of what is none, where the empty key has a true value. -/
theorem not_forall_evaluate_trim :
    ¬ ∀ (condition : Text) (data : Value),
      evaluate (some condition) data = evaluate (some (trim condition)) data := by
  intro same
  have differs := same [' ', ' ', ' '] (.mapping [([], .bool true)])
  exact absurd differs (by decide +kernel)

end Stencil
