import Stencil.Proofs.Numerals
import Stencil.Proofs.Decimals

/-! # How literals are read

A literal is a numeral of the grammar that has a finite double, or else a string between quotes, a keyword
or a bareword.  A numeral without point and exponent gives the integer that it writes, if it has no more
digits than are read, and any other numeral gives its double.

* `finiteNumeral?_eq_some_iff`: the numerals that are taken for numbers.
* `Plainly`: what the other words stand for.
* `exists_ofLiteral`: a literal with few digits is read as a value that has a double.
* `ofLiteral_rules`: which literals give integers, doubles and failures, and what the others give. -/

namespace Stencil

open Text

namespace Numeral
variable {text : Text} {n : Numeral}

/-- Below the least magnitude that is rounded to infinity. -/
def InRange (n : Numeral) : Prop := |n.value| < Double.overflow

theorem Digits.lt {digits : List Nat} (h : Digits digits text) : ∀ d ∈ digits, d < 10 := by
  intro d hd
  have there : some d ∈ text.map digitValue? := h ▸ List.mem_map_of_mem hd
  obtain ⟨c, -, hc⟩ := List.mem_map.mp there
  exact digitValue?_lt hc

theorem Written.digits_lt (h : n.Written text) : ∀ d ∈ n.whole ++ n.fraction.getD [], d < 10 := by
  obtain ⟨-, mantissa, -⟩ := h
  cases mantissa with
  | whole _ digits => simpa using digits.lt
  | point _ digits digits' =>
    exact List.forall_mem_append.mpr ⟨digits.lt, digits'.lt⟩
  | fraction _ digits => simpa using digits.lt

theorem Written.unique {n' : Numeral} (h : n.Written text) (h' : n'.Written text) : n = n' :=
  Option.some.inj (h.ofText?.symm.trans h'.ofText?)

theorem value_of_isInteger (integer : n.isInteger = true) : n.value = n.toInt := by
  rw [isInteger, Bool.and_eq_true, Option.isNone_iff_eq_none, Option.isNone_iff_eq_none] at integer
  have power : n.power = 0 := by rw [Numeral.power, integer.2]
  rw [value, toInt, integer.1, power]
  cases n.negative <;> simp [Double.signed, ofDigits]

theorem inRange_iff (integer : n.isInteger = true) : n.InRange ↔ n.toInt.natAbs < Double.overflow := by
  rw [InRange, value_of_isInteger integer, ← Int.cast_abs, Int.abs_eq_natAbs]
  exact_mod_cast Iff.rfl

theorem Digits.length_eq {digits : List Nat} (h : Digits digits text) :
    digits.length = digitCount text := by
  have decimal : ∀ c ∈ text, isDecimalDigit c = true := by
    intro c hc
    have there : digitValue? c ∈ digits.map some := h ▸ List.mem_map_of_mem hc
    obtain ⟨d, -, hd⟩ := List.mem_map.mp there
    rw [isDecimalDigit, ← hd]
    rfl
  rw [digitCount, List.countP_eq_length.mpr decimal]
  simpa using (congrArg List.length h).symm

/-- A numeral has no more digits in front of its point than its text has at all. -/
theorem Written.length_whole_le (h : n.Written text) : n.whole.length ≤ digitCount text := by
  obtain @⟨negative, whole, fraction, exponent, sign, mantissa, rest, -, rule, -⟩ := h
  have part : mantissa.Sublist (sign ++ mantissa ++ rest) :=
    (List.sublist_append_right sign mantissa).trans (List.sublist_append_left _ rest)
  refine Nat.le_trans ?_ (digitCount_le_of_sublist part)
  cases rule with
  | whole _ digits => exact Nat.le_of_eq digits.length_eq
  | point _ digits =>
    rw [digits.length_eq]
    exact digitCount_le_of_sublist (List.sublist_append_left ..)
  | fraction => exact Nat.zero_le _

end Numeral

namespace Value

/-! ### Numerals -/

theorem finiteNumeral?_eq_some_iff {word : Text} {n : Numeral} :
    finiteNumeral? word = some n ↔ n.Written word ∧ n.InRange := by
  rw [finiteNumeral?, Option.filter_eq_some_iff, Numeral.ofText?_eq_some_iff]
  refine and_congr_right fun written => ?_
  exact Numeral.isFinite_toDouble_iff written.digits_lt

section numeral
variable {n : Numeral}

theorem ofNumeral_of_few (integer : n.isInteger = true) (few : n.whole.length ≤ digitCap) :
    ofNumeral n = .ok (int n.toInt) := by
  rw [ofNumeral, if_pos integer, wholeNumber_of_length_le few]
  rfl

theorem ofNumeral_of_many (integer : n.isInteger = true) (many : digitCap < n.whole.length) :
    ofNumeral n = .error (.digitLimit (some n.whole.length)) := by
  rw [ofNumeral, if_pos integer, wholeNumber, if_pos many]
  rfl

theorem ofNumeral_of_not_isInteger (h : n.isInteger = false) : ofNumeral n = .ok (float n.toDouble) := by
  rw [ofNumeral, if_neg (by simp [h])]

/-- The three ways to read a numeral. -/
theorem ofNumeral_cases (n : Numeral) :
    (n.isInteger = true ∧ n.whole.length ≤ digitCap) ∧ ofNumeral n = .ok (int n.toInt)
      ∨ (n.isInteger = true ∧ digitCap < n.whole.length)
        ∧ ofNumeral n = .error (.digitLimit (some n.whole.length))
      ∨ n.isInteger = false ∧ ofNumeral n = .ok (float n.toDouble) := by
  cases integer : n.isInteger with
  | false => exact .inr (.inr ⟨rfl, ofNumeral_of_not_isInteger integer⟩)
  | true =>
    rcases Nat.lt_or_ge digitCap n.whole.length with many | few
    · exact .inr (.inl ⟨⟨rfl, many⟩, ofNumeral_of_many integer many⟩)
    · exact .inl ⟨⟨rfl, few⟩, ofNumeral_of_few integer few⟩

theorem ofNumeral_eq_int_iff {z : Int} : ofNumeral n = .ok (int z)
    ↔ n.isInteger = true ∧ n.whole.length ≤ digitCap ∧ n.value = z := by
  rcases ofNumeral_cases n with ⟨⟨integer, few⟩, e⟩ | ⟨⟨integer, many⟩, e⟩ | ⟨other, e⟩
  · simp [e, integer, few, Numeral.value_of_isInteger integer]
  · simp [e, Nat.not_le.mpr many]
  · simp [e, other]

theorem ofNumeral_eq_error_iff {fault : Fault} : ofNumeral n = .error fault
    ↔ n.isInteger = true ∧ digitCap < n.whole.length ∧ fault = .digitLimit (some n.whole.length) := by
  rcases ofNumeral_cases n with ⟨⟨integer, few⟩, e⟩ | ⟨⟨integer, many⟩, e⟩ | ⟨other, e⟩
  · simp [e, Nat.not_lt.mpr few]
  · simp [e, integer, many, eq_comm]
  · simp [e, other]

theorem ofNumeral_eq_float_iff {x : Double} : ofNumeral n = .ok (float x)
    ↔ n.isInteger = false ∧ x = n.toDouble := by
  rcases ofNumeral_cases n with ⟨⟨integer, few⟩, e⟩ | ⟨⟨integer, many⟩, e⟩ | ⟨other, e⟩
  · simp [e, integer]
  · simp [e, integer]
  · simp [e, other, eq_comm]

end numeral

/-! ### Other words -/

/-- The words that stand for values. -/
def keywords : List (Text × Value) :=
  [("true".toList, bool true), ("false".toList, bool false), ("null".toList, null),
    ("undefined".toList, undefined)]

/-- A word between two quotes of one kind, with the text between them. -/
def IsQuoted (word content : Text) : Prop :=
  ∃ quote, (quote = '"' ∨ quote = '\'') ∧ word = quote :: content ++ [quote]

/-- What a word stands for that is not taken for a number. -/
inductive Plainly : Text → Value → Prop
  | quoted {word content} : IsQuoted word content → Plainly word (str content)
  | keyword {word v} : (word, v) ∈ keywords → Plainly word v
  | bareword {word} : (∀ content, ¬ IsQuoted word content) → (∀ v, (word, v) ∉ keywords) →
      Plainly word (bareword word)

section word
variable {word content : Text} {v : Value} {n : Numeral}

theorem unquote?_quoted {quote : Char} (mark : quote = '"' ∨ quote = '\'') (s : Text) :
    unquote? (quote :: s ++ [quote]) = some s := by
  rw [List.cons_append, unquote?, if_pos]
  · rw [List.dropLast_concat]
  · simp [mark]

theorem unquote?_eq_some_iff : unquote? word = some content ↔ IsQuoted word content := by
  constructor
  · intro h
    rw [unquote?.eq_def] at h
    split at h
    · cases h
    · rename_i quote text
      split at h
      · rename_i marked
        simp only [Bool.and_eq_true, Bool.or_eq_true, decide_eq_true_eq] at marked
        obtain ⟨front, rfl⟩ := List.getLast?_eq_some_iff.mp marked.2
        rw [List.dropLast_concat] at h
        cases h
        exact ⟨quote, marked.1, rfl⟩
      · cases h
  · rintro ⟨quote, mark, rfl⟩
    exact unquote?_quoted mark content

theorem keyword?_eq_some_iff : keyword? word = some v ↔ (word, v) ∈ keywords := by
  constructor
  · intro h
    rw [keyword?] at h
    (repeat' split at h) <;> cases h <;> subst word <;> simp [keywords]
  · intro h
    simp only [keywords, List.mem_cons, List.not_mem_nil, or_false, Prod.mk.injEq] at h
    rcases h with ⟨rfl, rfl⟩ | ⟨rfl, rfl⟩ | ⟨rfl, rfl⟩ | ⟨rfl, rfl⟩ <;> rfl

/-- No numeral stands between quotes. -/
theorem not_isQuoted_of_written (h : n.Written word) : ¬ IsQuoted word content := by
  rintro ⟨quote, mark, rfl⟩
  have read := h.ofText?
  rcases mark with rfl | rfl
  · have none_there (rest : Text) : Numeral.ofText? ('"' :: rest) = none := rfl
    exact Option.some_ne_none n (read.symm.trans (none_there _))
  · have none_there (rest : Text) : Numeral.ofText? ('\'' :: rest) = none := rfl
    exact Option.some_ne_none n (read.symm.trans (none_there _))

/-- A numeral in range is taken for a number. -/
theorem ofWord_of_written (h : n.Written word) (range : n.InRange) : ofWord word = ofNumeral n := by
  have unquoted : unquote? word = none := Option.eq_none_iff_forall_ne_some.mpr fun _ quoted =>
    not_isQuoted_of_written h (unquote?_eq_some_iff.mp quoted)
  rw [ofWord, unquoted, finiteNumeral?_eq_some_iff.mpr ⟨h, range⟩]

/-- Every other word stands for something. -/
theorem exists_plainly (h : ∀ n : Numeral, n.Written word → ¬ n.InRange) :
    ∃ v, Plainly word v ∧ ofWord word = .ok v := by
  have no_numeral : finiteNumeral? word = none := by
    refine Option.eq_none_iff_forall_ne_some.mpr fun n found => ?_
    obtain ⟨written, range⟩ := finiteNumeral?_eq_some_iff.mp found
    exact h n written range
  rw [ofWord, no_numeral]
  cases quoted : unquote? word with
  | some content => exact ⟨_, .quoted (unquote?_eq_some_iff.mp quoted), rfl⟩
  | none =>
    cases known : keyword? word with
    | some v => exact ⟨v, .keyword (keyword?_eq_some_iff.mp known), rfl⟩
    | none =>
      refine ⟨_, .bareword (fun content there => ?_) (fun v there => ?_), rfl⟩
      · exact Option.some_ne_none _ ((unquote?_eq_some_iff.mpr there).symm.trans quoted)
      · exact Option.some_ne_none _ ((keyword?_eq_some_iff.mpr there).symm.trans known)

theorem Plainly.isNumber_eq_false (h : Plainly word v) : v.isNumber = false := by
  cases h with
  | quoted | bareword => rfl
  | keyword known =>
    simp only [keywords, List.mem_cons, List.not_mem_nil, or_false, Prod.mk.injEq] at known
    rcases known with ⟨-, rfl⟩ | ⟨-, rfl⟩ | ⟨-, rfl⟩ | ⟨-, rfl⟩ <;> rfl

theorem Plainly.hasDouble (h : Plainly word v) : v.HasDouble := by
  cases h with
  | quoted | bareword => exact ⟨_, rfl⟩
  | keyword known =>
    simp only [keywords, List.mem_cons, List.not_mem_nil, or_false, Prod.mk.injEq] at known
    rcases known with ⟨-, rfl⟩ | ⟨-, rfl⟩ | ⟨-, rfl⟩ | ⟨-, rfl⟩ <;> exact ⟨_, rfl⟩

/-- The results that no other word has are those of the numerals in range. -/
theorem ofWord_eq_iff {outcome : Except Fault Value} (apart : ∀ v, Plainly word v → .ok v ≠ outcome) :
    ofWord word = outcome ↔ ∃ n : Numeral, n.Written word ∧ n.InRange ∧ ofNumeral n = outcome := by
  by_cases number : ∃ n : Numeral, n.Written word ∧ n.InRange
  · obtain ⟨n, written, range⟩ := number
    rw [ofWord_of_written written range]
    constructor
    · exact fun e => ⟨n, written, range, e⟩
    · rintro ⟨m, written', -, e⟩
      rwa [written.unique written']
  · obtain ⟨v, plain, e⟩ := exists_plainly fun n written range => number ⟨n, written, range⟩
    rw [e]
    refine iff_of_false (apart v plain) ?_
    rintro ⟨n, written, range, -⟩
    exact number ⟨n, written, range⟩

/-- A literal with few digits is read as a value that has a double. -/
theorem exists_ofLiteral {text : Text} (few : digitCount text ≤ digitCap) :
    ∃ v, ofLiteral text = .ok v ∧ v.HasDouble := by
  rw [ofLiteral]
  by_cases number : ∃ n : Numeral, n.Written (trim text) ∧ n.InRange
  · obtain ⟨n, written, range⟩ := number
    have few_whole : n.whole.length ≤ digitCap :=
      Nat.le_trans written.length_whole_le (few_of_sublist few (trim_sublist text))
    rw [ofWord_of_written written range]
    rcases ofNumeral_cases n with ⟨⟨integer, -⟩, e⟩ | ⟨⟨-, many⟩, -⟩ | ⟨-, e⟩
    · exact ⟨_, e, hasDouble_int (Double.isSome_ofInt? ((Numeral.inRange_iff integer).mp range))⟩
    · exact absurd few_whole (Nat.not_le.mpr many)
    · exact ⟨_, e, n.toDouble, rfl⟩
  · obtain ⟨v, plain, e⟩ := exists_plainly fun n written range => number ⟨n, written, range⟩
    exact ⟨v, e, plain.hasDouble⟩

end word

/-! ### The rules -/

/-- How a word is read as a literal. -/
structure LiteralRules (word : Text) (outcome : Except Fault Value) : Prop where
  int_iff : ∀ z, outcome = .ok (int z) ↔ ∃ n : Numeral, n.Written word ∧ n.InRange
    ∧ n.isInteger = true ∧ n.whole.length ≤ digitCap ∧ n.value = z
  error_iff : ∀ fault, outcome = .error fault ↔ ∃ n : Numeral, n.Written word ∧ n.InRange
    ∧ n.isInteger = true ∧ digitCap < n.whole.length ∧ fault = .digitLimit (some n.whole.length)
  float_iff : ∀ x, outcome = .ok (float x) ↔ ∃ n : Numeral, n.Written word ∧ n.InRange
    ∧ n.isInteger = false ∧ x = n.toDouble
  other : (∀ n : Numeral, n.Written word → ¬ n.InRange) → ∃ v, Plainly word v ∧ outcome = .ok v

/-- **How literals are read.**  A literal gives an integer exactly if it is a numeral in range without point
and exponent that has no more digits than are read, and the integer is its value.  It fails exactly if it is
such a numeral with more digits, and it gives a double exactly if it is any other numeral in range.  Every
other literal gives its text between quotes, the value of a keyword or itself. -/
theorem ofLiteral_rules (text : Text) : LiteralRules (trim text) (ofLiteral text) := by
  have apart (u : Value) (number : u.isNumber = true) (v : Value) (plain : Plainly (trim text) v) :
      (.ok v : Except Fault Value) ≠ .ok u := by
    intro same
    rw [Except.ok.inj same] at plain
    exact Bool.false_ne_true (plain.isNumber_eq_false.symm.trans number)
  rw [ofLiteral]
  refine ⟨fun z => ?_, fun fault => ?_, fun x => ?_, exists_plainly⟩
  · rw [ofWord_eq_iff (apart (int z) rfl)]
    simp only [ofNumeral_eq_int_iff]
  · have apart (v : Value) : (.ok v : Except Fault Value) ≠ .error fault := by
      intro same
      cases same
    rw [ofWord_eq_iff fun v _ => apart v]
    simp only [ofNumeral_eq_error_iff]
  · rw [ofWord_eq_iff (apart (float x) rfl)]
    simp only [ofNumeral_eq_float_iff]

end Value
end Stencil
