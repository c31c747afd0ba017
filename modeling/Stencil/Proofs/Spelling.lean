import Stencil.Proofs.Operators
import Stencil.Proofs.Literals
import Stencil.Value.Text

/-! # Literals for values

Every value but the doubles and the containers can be written as a literal: the text of a truth value,
of null or of an integer that has a double, the word for what is not there, and a string between
quotes of either kind.

* `written_integerText` and `ofWord_integerText`: the digits of an integer write its numeral and are read back.
* `Spells.ofWord`: a literal is read as the value that it spells.
* `evaluate_spelled`: a condition that compares a path strictly with the literal of a value compares it
  with that value. -/

namespace Stencil

open Text

/-! ### Digits -/

section digits

attribute [local instance] Double.natPow

/-- The values of the decimal digits of a number. -/
def decimalDigits (n : Nat) : List Nat := (Nat.toDigits 10 n).map fun c => c.toNat - 48

theorem isDigit_of_mem_toDigits {n : Nat} {c : Char} (h : c ∈ Nat.toDigits 10 n) : c.isDigit = true :=
  Nat.isDigit_of_mem_toDigits (by omega) (by omega) h

theorem ofDigits_decimalDigits (n : Nat) : ofDigits (decimalDigits n) = n := by
  calc ofDigits (decimalDigits n)
    _ = (Nat.toDigits 10 n).foldl (fun n c => 10 * n + (c.toNat - '0'.toNat)) 0 := List.foldl_map
    _ = Nat.ofDigitChars 10 (Nat.toDigits 10 n) 0 := Nat.ofDigitChars_eq_foldl.symm
    _ = n := Nat.ofDigitChars_ten_toDigits

theorem decimalDigits_ne_nil (n : Nat) : decimalDigits n ≠ [] := by
  rw [decimalDigits, ne_eq, List.map_eq_nil_iff]
  exact Nat.toDigits_ne_nil

namespace Numeral

theorem digits_decimalDigits (n : Nat) : Digits (decimalDigits n) (Nat.toDigits 10 n) := by
  rw [Digits, decimalDigits, List.map_map]
  exact List.map_congr_left fun c hc => digitValue?_of_isDigit (isDigit_of_mem_toDigits hc)

/-- The numeral of an integer. -/
def ofInt (n : Int) : Numeral := ⟨n < 0, decimalDigits n.natAbs, none, none⟩

theorem toInt_ofInt (n : Int) : (ofInt n).toInt = n := by
  rw [toInt, ofInt, ofDigits_decimalDigits, Double.signed]
  by_cases negative : n < 0
  · rw [decide_eq_true negative, if_pos rfl]
    omega
  · rw [decide_eq_false negative, if_neg Bool.false_ne_true]
    omega

/-- The text of an integer writes its numeral. -/
theorem written_integerText (n : Int) : (ofInt n).Written (integerText n) := by
  have mantissa : Mantissa (decimalDigits n.natAbs) none (Nat.toDigits 10 n.natAbs) :=
    .whole (decimalDigits_ne_nil _) (digits_decimalDigits _)
  rw [integerText, ofInt]
  split
  · rename_i negative
    rw [decide_eq_true negative]
    simpa using Written.intro .minus mantissa .none
  · rename_i positive
    rw [decide_eq_false positive]
    simpa using Written.intro .none mantissa .none

end Numeral

end digits

/-! ### Characters of literals -/

/-- Not a blank, nor a character of an operator. -/
def IsInner (c : Char) : Prop := isBlankChar c = false ∧ isSign c = false

instance : DecidablePred IsInner := fun _ => inferInstanceAs (Decidable (_ ∧ _))

theorem isInner_of_isDigit {c : Char} (h : c.isDigit = true) : IsInner c := by
  have range : 48 ≤ c.toNat ∧ c.toNat ≤ 57 := by
    simp only [Char.isDigit, Bool.and_eq_true, decide_eq_true_eq] at h
    exact ⟨UInt32.le_iff_toNat_le.mp h.1, UInt32.le_iff_toNat_le.mp h.2⟩
  constructor
  · rw [← Bool.not_eq_true]
    intro blank
    simp only [isBlankChar, Bool.or_eq_true, Bool.and_eq_true, decide_eq_true_eq, beq_iff_eq] at blank
    omega
  · rw [← Bool.not_eq_true]
    intro sign
    simp only [isSign, Bool.or_eq_true, decide_eq_true_eq] at sign
    rcases sign with ((rfl | rfl) | rfl) | rfl <;> exact absurd h (by decide)

theorem isInner_of_mem_integerText {n : Int} {c : Char} (h : c ∈ integerText n) : IsInner c := by
  have digit {m : Nat} (hm : c ∈ Nat.toDigits 10 m) : IsInner c :=
    isInner_of_isDigit (isDigit_of_mem_toDigits hm)
  rw [integerText] at h
  split at h
  · rcases List.mem_cons.mp h with rfl | h
    · decide
    · exact digit h
  · exact digit h

/-! ### Reading literals -/

namespace Value

/-- An integer of as many digits as are read is what its numeral gives. -/
theorem ofNumeral_ofInt {n : Int} (few : (decimalDigits n.natAbs).length ≤ digitCap) :
    ofNumeral (.ofInt n) = .ok (int n) := by
  rw [ofNumeral_of_few rfl few, Numeral.toInt_ofInt]

theorem ofWord_integerText {n : Int} (h : n.natAbs < Double.overflow) :
    ofWord (integerText n) = .ok (int n) := by
  have few : (decimalDigits n.natAbs).length ≤ digitCap := by
    rw [decimalDigits, List.length_map]
    exact Double.length_toDigits_le h
  have range : (Numeral.ofInt n).InRange := (Numeral.inRange_iff rfl).mpr (by rwa [Numeral.toInt_ofInt])
  rw [ofWord_of_written (Numeral.written_integerText n) range, ofNumeral_ofInt few]

/-- How a value is written as a literal. -/
inductive Spells : Value → Text → Prop where
  | undefined : Spells undefined ['u', 'n', 'd', 'e', 'f', 'i', 'n', 'e', 'd']
  | null : Spells null null.toText
  | bool (b : Bool) : Spells (bool b) (bool b).toText
  | int {n : Int} : n.natAbs < Double.overflow → Spells (int n) (int n).toText
  | str {quote : Char} {s : Text} : quote = '"' ∨ quote = '\'' → SignFree s →
      Spells (str s) (quote :: s ++ [quote])

namespace Spells
variable {w : Value} {literal : Text}

/-- A literal is read as the value that it spells. -/
theorem ofWord (h : Spells w literal) : Value.ofWord literal = .ok w := by
  cases h with
  | undefined | null => rfl
  | bool b => cases b <;> rfl
  | int small => exact ofWord_integerText small
  | str mark free => rw [Value.ofWord, unquote?_quoted mark]

theorem signFree (h : Spells w literal) : SignFree literal := by
  cases h with
  | undefined | null => decide
  | bool b => cases b <;> decide
  | int => exact fun c hc => (isInner_of_mem_integerText hc).2
  | @str quote s mark free =>
    have quotes : SignFree [quote] := by rcases mark with rfl | rfl <;> decide
    exact (quotes.append free).append quotes

/-- Trimming keeps a literal as it is. -/
theorem firm (h : Spells w literal) : FirmStart literal ∧ FirmEnd literal := by
  have inner {text : Text} (h : text.all (!isBlankChar ·) = true) :
      FirmStart text ∧ FirmEnd text := by
    have visible {c : Char} (hc : c ∈ text) : isBlankChar c = false := by
      simpa using List.all_eq_true.mp h c hc
    exact ⟨fun c hc => visible (List.mem_of_head? hc), fun c hc => visible (List.mem_of_getLast? hc)⟩
  cases h with
  | undefined | null => exact inner rfl
  | bool b => cases b <;> exact inner rfl
  | int => exact inner (List.all_eq_true.mpr fun c hc => by simp [(isInner_of_mem_integerText hc).1])
  | @str quote s mark free =>
    have alone : FirmStart [quote] ∧ FirmEnd [quote] :=
      inner (by rcases mark with rfl | rfl <;> rfl)
    exact ⟨firmStart_append alone.1 (List.cons_ne_nil _ _) (s ++ [quote]),
      firmEnd_append alone.2 (List.cons_ne_nil _ _) (quote :: s)⟩

/-- Blanks in front of a literal make no difference. -/
theorem ofLiteral (h : Spells w literal) {blanks : Text} (hb : isBlank blanks = true) :
    Value.ofLiteral (blanks ++ literal) = .ok w := by
  have trimmed := trim_surrounded hb h.firm.1 h.firm.2 (show isBlank [] = true from rfl)
  rw [List.append_nil] at trimmed
  rw [Value.ofLiteral, trimmed, h.ofWord]

/-- The literal of a value that is there and is no string is the text that the value is replaced by. -/
theorem shown (h : Spells w literal) (there : w ≠ Value.undefined) (no_string : w.text? = none) :
    w.shown = .ok literal := by
  cases h with
  | undefined => exact absurd rfl there
  | null | bool b => rfl
  | int small => exact shown_of_isWritable (InRange.int small).isWritable
  | str mark free => cases no_string

theorem strictlyEqual_shared (h : Spells w literal) (shared : Bool) (v : Value) :
    strictlyEqual shared v w = strictlyEqual false v w := by
  cases h <;> cases v <;> simp [strictlyEqual, family]

end Spells

/-- **Literals for values.**  The literal of a value is read as that value, and a condition that compares a
path strictly with it holds exactly if the value of the path is strictly equal to it.  The path is looked
up without the blanks around it, as in every condition. -/
theorem evaluate_spelled {w : Value} {literal : Text} (spelled : Spells w literal) :
    ofLiteral literal = .ok w
      ∧ ∀ (data v : Value) (path before behind : Text), isBlank path = false → SignFree path →
        resolve (trim path) data = .ok v → isBlank before = true → isBlank behind = true →
          ∀ shared, evaluate
              (some (path ++ before ++ Operator.strictlyEqual.text ++ (behind ++ literal))) data
            = .ok (strictlyEqual shared v w) := by
  have alone : ofLiteral ([] ++ literal) = .ok w := spelled.ofLiteral rfl
  refine ⟨alone, fun data v path before behind visible free found hb hb' shared => ?_⟩
  have visible' : isBlank (path ++ before) = false := by rw [isBlank_append, visible, Bool.false_and]
  have free' : SignFree (path ++ before) := free.append (.of_isBlank hb)
  have literal_free : SignFree (behind ++ literal) :=
    SignFree.append (.of_isBlank hb') spelled.signFree
  rw [evaluate_written .strictlyEqual data visible' free' literal_free, compared,
    trim_append_blanks _ hb, found, spelled.ofLiteral hb', spelled.strictlyEqual_shared]
  rfl

/-- A negative integer with uneven blanks, and a string that holds both quotes and looks like a number. -/
theorem evaluate_spelled_quoted :
    let data : Value := .mapping [("n".toList, .int (-12)), ("s".toList, .str "'5\"".toList)]
    ofLiteral "-12".toList = .ok (.int (-12))
      ∧ evaluate (some " n\t===  -12".toList) data = .ok true
      ∧ evaluate (some "s === ''5\"'".toList) data = .ok true := by
  intro data
  have number := evaluate_spelled (.int (show (-12 : Int).natAbs < Double.overflow by decide +kernel))
  have string := evaluate_spelled (.str (.inr rfl) (show SignFree "'5\"".toList by decide))
  have equal := number.2 data (.int (-12)) " n".toList "\t".toList "  ".toList (by decide) (by decide)
    rfl (by decide) (by decide) false
  have equal' := string.2 data (.str "'5\"".toList) "s".toList " ".toList " ".toList (by decide)
    (by decide) rfl (by decide) (by decide) false
  exact ⟨number.1, equal.trans (by decide +kernel), equal'.trans (by decide +kernel)⟩

end Value
end Stencil
