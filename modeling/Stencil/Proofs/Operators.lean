import Stencil.Proofs.Trimming
import Stencil.Proofs.Search
import Mathlib.Data.List.Infix

/-! # Conditions mean what they say

An operator is found wherever its text occurs, and several operators occur in the texts of others.  In a
condition whose path and literal are free of the characters of operators, an occurrence lies in the
operator that is written there, and no operator of `Operator.all` comes behind one that occurs in it.

* `isInfix_of_signFree` and `isInfix_or_of_append_cons` say where the text of an operator can
  occur.
* `Operator.cut?_eq`: which operator is found, and where it cuts.
* `ofClause_written` and `ofClause_repeated` read a comparison, with one operator or the same one twice.
* `evaluate_negated`: each exclamation mark negates what follows.
* `evaluate_as_written`: comparisons and negations evaluate as they are written. -/

namespace Stencil

open Text

/-! ### Where an operator occurs -/

/-- A character that operators are written with. -/
def isSign (c : Char) : Bool := c = '=' || c = '!' || c = '<' || c = '>'

/-- A text without any character of an operator. -/
def SignFree (text : Text) : Prop := ∀ c ∈ text, isSign c = false

instance : DecidablePred SignFree := fun text =>
  decidable_of_iff (text.all (!isSign ·) = true) (by simp [SignFree])

theorem isBlankChar_of_isSign {c : Char} (h : isSign c = true) : isBlankChar c = false := by
  simp only [isSign, Bool.or_eq_true, decide_eq_true_eq] at h
  rcases h with ((rfl | rfl) | rfl) | rfl <;> rfl

section occurrence
variable {token front rest text : Text}

theorem Text.cut?_eq_none (absent : ¬ token <:+: text) : Text.cut? token text = none := by
  rw [Option.eq_none_iff_forall_ne_some]
  intro parts found
  exact absent ⟨parts.1, parts.2, (eq_of_cut? found).symm⟩

/-- A token lies on one side of a character that it does not have. -/
theorem isInfix_or_of_append_cons {c : Char} (hc : c ∉ token) (h : token <:+: front ++ c :: rest) :
    token <:+: front ∨ token <:+: rest := by
  obtain inside | inside | ⟨left, right, rfl, ends, starts⟩ := List.infix_append_iff.mp h
  · exact .inl inside
  · obtain starts | inside := List.infix_cons_iff.mp inside
    · cases token with
      | nil => exact .inl (List.nil_infix)
      | cons t token => exact absurd (List.cons_prefix_cons.mp starts).1 (by rintro rfl; simp at hc)
    · exact .inr inside
  · cases right with
    | nil => exact .inl (by simpa using ends.isInfix)
    | cons d right => exact absurd (List.cons_prefix_cons.mp starts).1 (by rintro rfl; simp at hc)

theorem SignFree.sublist {part : Text} (free : SignFree text) (h : part.Sublist text) :
    SignFree part := fun c hc => free c (h.subset hc)

theorem SignFree.append {more : Text} (free : SignFree text) (later : SignFree more) :
    SignFree (text ++ more) := List.forall_mem_append.mpr ⟨free, later⟩

theorem SignFree.of_isBlank (h : isBlank text = true) : SignFree text := by
  intro c hc
  rw [← Bool.not_eq_true]
  intro sign
  have blank := List.all_eq_true.mp h c hc
  rw [isBlankChar_of_isSign sign] at blank
  exact Bool.false_ne_true blank

theorem SignFree.filter_isSign (free : SignFree text) : text.filter isSign = [] :=
  List.filter_eq_nil_iff.mpr fun c hc => by simp [free c hc]

/-- A row of operator characters between texts without any lies in the row that stands there. -/
theorem isInfix_of_signFree {signs : Text} (ht : token.filter isSign = token)
    (hs : signs.filter isSign = signs) (hf : SignFree front) (hr : SignFree rest)
    (h : token <:+: front ++ signs ++ rest) : token <:+: signs := by
  have kept := h.filter isSign
  rwa [List.filter_append, List.filter_append, hf.filter_isSign, hr.filter_isSign, ht, hs,
    List.nil_append, List.append_nil] at kept

end occurrence

namespace Operator

theorem text_ne_nil (op : Operator) : op.text ≠ [] := by cases op <;> decide

theorem all_isSign (op : Operator) : op.text.all isSign = true := by cases op <;> rfl

theorem isSign_of_mem_text {op : Operator} {c : Char} (h : c ∈ op.text) : isSign c = true :=
  List.all_eq_true.mp op.all_isSign c h

theorem filter_text (op : Operator) : op.text.filter isSign = op.text :=
  List.filter_eq_self.mpr fun _ => isSign_of_mem_text

theorem notMem_text {c : Char} (h : isSign c = false) (op : Operator) : c ∉ op.text := by
  intro hc
  rw [isSign_of_mem_text hc] at h
  cases h

theorem firmStart_text (op : Operator) : FirmStart op.text :=
  fun _ hc => isBlankChar_of_isSign (isSign_of_mem_text (List.mem_of_head? hc))

theorem firmEnd_text (op : Operator) : FirmEnd op.text :=
  fun _ hc => isBlankChar_of_isSign (isSign_of_mem_text (List.mem_of_getLast? hc))

/-- The operators that are searched before this one. -/
def earlier (op : Operator) : List Operator := all.takeWhile (· != op)

theorem all_eq (op : Operator) : ∃ later, all = op.earlier ++ op :: later := by
  cases op <;> exact ⟨_, rfl⟩

/-- No operator contains one that is searched before it. -/
theorem not_isInfix_of_mem_earlier {op other : Operator} (h : other ∈ op.earlier) :
    ¬ other.text <:+: op.text := by
  revert other
  cases op <;> decide

/-- The operator that is found, if none before it occurs. -/
theorem cut?_eq {op : Operator} {text front rest : Text}
    (first : Text.cut? op.text text = some (front, rest))
    (absent : ∀ other ∈ op.earlier, ¬ other.text <:+: text) :
    cut? text = some (op, front, rest) := by
  obtain ⟨later, split⟩ := op.all_eq
  have none_before : op.earlier.findSome?
      (fun other => (Text.cut? other.text text).map fun parts => (other, parts)) = none := by
    rw [List.findSome?_eq_none_iff]
    intro other h
    rw [Text.cut?_eq_none (absent other h)]
    rfl
  rw [cut?, split, List.findSome?_append, none_before, List.findSome?_cons, first]
  rfl

end Operator

/-! ### Reading a comparison -/

namespace Condition
variable {path literal more : Text}

/-- One operator between a path and a literal that are free of operators. -/
theorem ofClause_written (op : Operator) (hp : SignFree path) (hl : SignFree literal) :
    ofClause (path ++ op.text ++ literal)
      = comparison (path ++ op.text ++ literal) (trim path) op literal := by
  have first : Text.cut? op.text (path ++ op.text ++ literal) = some (path, literal) := by
    rw [List.append_assoc]
    exact cut?_append op.text_ne_nil path literal fun c hc => op.notMem_text (hp c hc)
  have absent : ∀ other ∈ op.earlier, ¬ other.text <:+: path ++ op.text ++ literal :=
    fun other h occurs => Operator.not_isInfix_of_mem_earlier h
      (isInfix_of_signFree other.filter_text op.filter_text hp hl occurs)
  have last : Text.cut? op.text literal = none := by
    apply Text.cut?_eq_none
    intro occurs
    obtain ⟨c, hc⟩ := List.exists_mem_of_ne_nil _ op.text_ne_nil
    exact op.notMem_text (hl c (occurs.subset hc)) hc
  rw [ofClause, Operator.cut?_eq first absent]
  simp only [last, Option.map_none, Option.getD_none]

/-- The same operator twice: what follows the second one is ignored, if there is anything in between to
keep the two apart. -/
theorem ofClause_repeated (op : Operator) (hp : SignFree path) (hl : SignFree literal)
    (hne : literal ≠ []) (hm : SignFree more) :
    ofClause (path ++ (op.text ++ literal ++ op.text) ++ more)
      = comparison (path ++ (op.text ++ literal ++ op.text) ++ more) (trim path) op literal := by
  have first : Text.cut? op.text (path ++ (op.text ++ literal ++ op.text) ++ more)
      = some (path, literal ++ (op.text ++ more)) := by
    simp only [List.append_assoc]
    exact cut?_append op.text_ne_nil path _ fun c hc => op.notMem_text (hp c hc)
  have second : Text.cut? op.text (literal ++ (op.text ++ more)) = some (literal, more) :=
    cut?_append op.text_ne_nil literal more fun c hc => op.notMem_text (hl c hc)
  have absent : ∀ other ∈ op.earlier,
      ¬ other.text <:+: path ++ (op.text ++ literal ++ op.text) ++ more := by
    intro other h occurs
    cases literal with
    | nil => exact hne rfl
    | cons c literal =>
      -- an occurrence cannot reach over `c`, so it lies in one of the two operators
      have apart : path ++ (op.text ++ c :: literal ++ op.text) ++ more
          = path ++ op.text ++ [] ++ c :: (literal ++ op.text ++ more) := by simp
      rw [apart] at occurs
      refine Operator.not_isInfix_of_mem_earlier h ?_
      obtain ⟨hc, hl⟩ := List.forall_mem_cons.mp hl
      obtain occurs | occurs := isInfix_or_of_append_cons (other.notMem_text hc) occurs
      · exact isInfix_of_signFree other.filter_text op.filter_text hp
          (List.forall_mem_nil _) occurs
      · exact isInfix_of_signFree other.filter_text op.filter_text hl hm occurs
  rw [ofClause, Operator.cut?_eq first absent]
  simp only [second, Option.map_some, Option.getD_some]

/-- A condition that starts with a path is no negation, and trimming it stops at the operators. -/
theorem parse_of_path {signs : Text} (visible : isBlank path = false) (hp : SignFree path)
    (hs : FirmStart signs) (he : FirmEnd signs) (hne : signs ≠ []) (rest : Text) :
    parse (path ++ signs ++ rest)
      = ofClause (trimStart isBlankChar path ++ signs ++ trimEnd isBlankChar rest) := by
  have trimmed := trim_append_firm hs he hne path rest
  have free : SignFree (trimStart isBlankChar path) := hp.sublist (trimStart_sublist _ _)
  rw [parse_clause, trimmed]
  · simp [hne]
  · intro rest' found
    rw [trimmed] at found
    cases start : trimStart isBlankChar path with
    | nil =>
      refine absurd ?_ (trim_ne_nil visible)
      rw [trim, start]
      rfl
    | cons c path' =>
      rw [start] at found free
      have sign := free c List.mem_cons_self
      rw [(List.cons.inj found).1] at sign
      exact absurd sign (by decide)

end Condition

/-- What a comparison asks for: the value of the path, then the value of the literal, then the
operator. -/
def compared (path : Text) (op : Operator) (literal : Text) (data : Value) : Except Fault Bool := do
  let left ← Value.resolve (trim path) data
  let right ← Value.ofLiteral literal
  Value.compare op left right

section comparison
variable {path literal more : Text} (op : Operator) (data : Value)

theorem Value.ofLiteral_trimEnd (literal : Text) :
    ofLiteral (trimEnd isBlankChar literal) = ofLiteral literal := by
  rw [ofLiteral, trim_trimEnd, ofLiteral]

theorem Condition.holds_comparison (source : Text) :
    (Condition.comparison source (trim (trimStart isBlankChar path)) op literal).holds data
      = compared path op literal data := by
  rw [Condition.holds, Condition.operands, trim_trimStart, compared]
  cases Value.resolve (trim path) data with
  | error fault => rfl
  | ok left => cases Value.ofLiteral literal <;> rfl

theorem evaluate_written (visible : isBlank path = false) (hp : SignFree path)
    (hl : SignFree literal) :
    evaluate (some (path ++ op.text ++ literal)) data = compared path op literal data := by
  have hp' := hp.sublist (trimStart_sublist isBlankChar path)
  have hl' := hl.sublist (trimEnd_sublist isBlankChar literal)
  rw [evaluate, Condition.parse_of_path visible hp op.firmStart_text op.firmEnd_text op.text_ne_nil,
    Condition.ofClause_written op hp' hl', Condition.holds_comparison, compared, compared,
    Value.ofLiteral_trimEnd]

theorem evaluate_repeated (visible : isBlank path = false) (hp : SignFree path)
    (hl : SignFree literal) (hne : literal ≠ []) (hm : SignFree more) :
    evaluate (some (path ++ op.text ++ literal ++ op.text ++ more)) data
      = compared path op literal data := by
  have hp' := hp.sublist (trimStart_sublist isBlankChar path)
  have hm' := hm.sublist (trimEnd_sublist isBlankChar more)
  have signs : path ++ op.text ++ literal ++ op.text ++ more
      = path ++ (op.text ++ literal ++ op.text) ++ more := by simp only [List.append_assoc]
  have starts : FirmStart (op.text ++ literal ++ op.text) := by
    rw [List.append_assoc]
    exact firmStart_append op.firmStart_text op.text_ne_nil _
  have ends := firmEnd_append op.firmEnd_text op.text_ne_nil (op.text ++ literal)
  rw [evaluate, signs,
    Condition.parse_of_path visible hp starts ends (by simp [op.text_ne_nil]),
    Condition.ofClause_repeated op hp' hl hne hm', Condition.holds_comparison]

end comparison

/-! ### Negations -/

/-- A text behind exclamation marks, each with a gap in front of it. -/
def negated (gaps : List Text) (text : Text) : Text :=
  gaps.foldr (fun gap rest => gap ++ '!' :: rest) text

theorem negated_cons (gap : Text) (gaps : List Text) (text : Text) :
    negated (gap :: gaps) text = gap ++ ['!'] ++ negated gaps text := by
  rw [List.append_assoc]
  rfl

theorem isBlank_negated {text : Text} (visible : isBlank text = false) (gaps : List Text) :
    isBlank (negated gaps text) = false := by
  induction gaps with
  | nil => exact visible
  | cons gap gaps ih => rw [negated_cons, isBlank_append, ih, Bool.and_false]

theorem evaluate_mark {gap rest : Text} (hg : isBlank gap = true) (visible : isBlank rest = false)
    (data : Value) :
    evaluate (some (gap ++ ['!'] ++ rest)) data = (evaluate (some rest) data).map (!·) := by
  have firm : isBlankChar '!' = false := rfl
  have trimmed : trim (gap ++ ['!'] ++ rest) = '!' :: trimEnd isBlankChar rest := by
    rw [trim_append_firm (by simpa [FirmStart]) (by simpa [FirmEnd]) (List.cons_ne_nil _ _),
      trimStart_of_isBlank hg]
    rfl
  rw [evaluate, Condition.parse_negation trimmed, Condition.parse_trimEnd visible, Condition.holds]
  rfl

/-- Exclamation marks negate the outcome of a condition, if their number is odd. -/
theorem evaluate_negated {gaps : List Text} (hg : ∀ gap ∈ gaps, isBlank gap = true) {text : Text}
    (visible : isBlank text = false) (data : Value) :
    evaluate (some (negated gaps text)) data
      = (evaluate (some text) data).map fun holds =>
          if gaps.length % 2 = 1 then !holds else holds := by
  induction gaps with
  | nil =>
    rw [negated, List.foldr_nil]
    cases evaluate (some text) data <;> rfl
  | cons gap gaps ih =>
    obtain ⟨hgap, hg⟩ := List.forall_mem_cons.mp hg
    rw [negated_cons, evaluate_mark hgap (isBlank_negated visible gaps), ih hg]
    cases evaluate (some text) data with
    | error fault => rfl
    | ok holds =>
      simp only [Except.map, List.length_cons]
      congr 1
      have parity : (gaps.length + 1) % 2 = 1 ↔ ¬ gaps.length % 2 = 1 := by omega
      by_cases odd : gaps.length % 2 = 1 <;> simp [parity, odd]

/-! ### Conditions as they are written -/

/-- **Conditions mean what they say.**  A path, an operator and a literal compare the value of the path
with the literal, whatever stands behind a second such operator, and exclamation marks in front of a
condition negate its outcome. -/
theorem evaluate_as_written (data : Value) :
    (∀ (op : Operator) (path literal : Text),
      isBlank path = false → SignFree path → SignFree literal →
        evaluate (some (path ++ op.text ++ literal)) data = compared path op literal data
          ∧ (literal ≠ [] → ∀ more, SignFree more →
            evaluate (some (path ++ op.text ++ literal ++ op.text ++ more)) data
              = evaluate (some (path ++ op.text ++ literal)) data))
      ∧ ∀ (gaps : List Text) (blanks condition : Text), (∀ gap ∈ gaps, isBlank gap = true) →
        isBlank blanks = true → isBlank condition = false →
          evaluate (some (negated gaps (blanks ++ condition))) data
            = (evaluate (some condition) data).map fun holds =>
                if gaps.length % 2 = 1 then !holds else holds := by
  refine ⟨fun op path literal visible hp hl => ?_, fun gaps blanks condition hg hb visible => ?_⟩
  · have single := evaluate_written op data visible hp hl
    refine ⟨single, fun hne more hm => ?_⟩
    rw [evaluate_repeated op data visible hp hl hne hm, single]
  · have visible' : isBlank (blanks ++ condition) = false := by
      rw [isBlank_append, visible, Bool.and_false]
    have same : evaluate (some (blanks ++ condition)) data = evaluate (some condition) data := by
      rw [evaluate, evaluate, ← Condition.parse_trim visible', trim_blanks_append hb,
        Condition.parse_trim visible]
    rw [evaluate_negated hg visible' data, same]

/-- A comparison with a quoted literal, the same with the operator once more, and three exclamation
marks in front of it. -/
theorem evaluate_as_written_padded :
    let data : Value := .mapping [("role".toList, .str "admin".toList)]
    evaluate (some " role == 'admin' ".toList) data = .ok true
      ∧ evaluate (some " role == 'admin' == x".toList) data = .ok true
      ∧ evaluate (some " ! !\t!  role == 'admin' ".toList) data = .ok false := by
  intro data
  have meaning := evaluate_as_written data
  have written := meaning.1 .equal " role ".toList " 'admin' ".toList (by decide) (by decide)
    (by decide)
  have single : evaluate (some " role == 'admin' ".toList) data = .ok true :=
    written.1.trans (by decide +kernel)
  have repeated := written.2 (by decide) " x".toList (by decide)
  have marked := meaning.2 [" ".toList, " ".toList, "\t".toList] " ".toList
    " role == 'admin' ".toList (List.all_eq_true.mp (by decide)) (by decide) (by decide)
  rw [single] at marked
  exact ⟨single, repeated.trans single, marked⟩

end Stencil
