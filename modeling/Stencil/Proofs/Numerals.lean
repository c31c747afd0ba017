import Stencil.Number.Numeral

/-! # The grammar of numerals

A numeral is written `sign? (D+ (. D*)? | . D+) ((e|E) sign? D+)?`, where `D` is a decimal digit of any
script.  The rules below derive the text of a numeral together with its parts, and without a look at
how a numeral is read.

* `Written` holds of a numeral and the texts that write it.
* `ofText?_eq_some_iff`: a text is read as a numeral exactly if it writes this numeral. -/

namespace Stencil
namespace Numeral

/-! ### The rules -/

/-- `sign?`, and whether the sign is a minus. -/
inductive Sign : (negative : Bool) → Text → Prop
  | none : Sign false []
  | plus : Sign false ['+']
  | minus : Sign true ['-']

/-- `D*`, with the values of the digits. -/
def Digits (digits : List Nat) (text : Text) : Prop := text.map digitValue? = digits.map some

/-- `D+ (. D*)? | . D+`, with the digits in front of the point and behind it. -/
inductive Mantissa : (whole : List Nat) → (fraction : Option (List Nat)) → Text → Prop
  | whole {whole text} : whole ≠ [] → Digits whole text → Mantissa whole none text
  | point {whole fraction front behind} : whole ≠ [] → Digits whole front → Digits fraction behind →
      Mantissa whole (some fraction) (front ++ '.' :: behind)
  | fraction {fraction behind} : fraction ≠ [] → Digits fraction behind →
      Mantissa [] (some fraction) ('.' :: behind)

/-- `((e|E) sign? D+)?`, with the sign and the digits. -/
inductive Exponent : Option (Bool × List Nat) → Text → Prop
  | none : Exponent none []
  | some {mark negative sign digits text} : mark = 'e' ∨ mark = 'E' → Sign negative sign →
      digits ≠ [] → Digits digits text → Exponent (some (negative, digits)) (mark :: (sign ++ text))

/-- A text that writes a numeral. -/
inductive Written : Numeral → Text → Prop
  | intro {negative whole fraction exponent sign mantissa rest} : Sign negative sign →
      Mantissa whole fraction mantissa → Exponent exponent rest →
      Written ⟨negative, whole, fraction, exponent⟩ (sign ++ mantissa ++ rest)

/-! ### Digits -/

section digits
variable {c : Char} {text rest : Text} {digits : List Nat}

theorem digits_nil_iff : Digits [] text ↔ text = [] := by
  simp [Digits]

theorem digits_cons_iff {d : Nat} :
    Digits (d :: digits) (c :: text) ↔ digitValue? c = some d ∧ Digits digits text := by
  simp [Digits]

/-- A text that starts with no digit. -/
def NoDigit (text : Text) : Prop := ∀ c ∈ text.head?, digitValue? c = none

theorem noDigit_nil : NoDigit [] := by simp [NoDigit]

theorem readDigits_append (h : Digits digits text) (stop : NoDigit rest) :
    readDigits (text ++ rest) = (digits, rest) := by
  induction text generalizing digits with
  | nil =>
    obtain rfl : digits = [] := by simpa [Digits] using h
    cases rest with
    | nil => rfl
    | cons c rest => simp [readDigits, stop c rfl]
  | cons c text ih =>
    cases digits with
    | nil => simp [Digits] at h
    | cons d digits =>
      obtain ⟨hd, later⟩ := digits_cons_iff.mp h
      simp [readDigits, hd, ih later]

theorem exists_of_readDigits (h : readDigits text = (digits, rest)) :
    ∃ front, text = front ++ rest ∧ Digits digits front := by
  induction text generalizing digits with
  | nil =>
    cases h
    exact ⟨[], rfl, rfl⟩
  | cons c text ih =>
    rw [readDigits] at h
    split at h
    · rename_i d hd
      cases read : readDigits text with
      | mk later behind =>
        rw [read] at h
        cases h
        obtain ⟨front, rfl, digits⟩ := ih read
        exact ⟨c :: front, rfl, digits_cons_iff.mpr ⟨hd, digits⟩⟩
    · cases h
      exact ⟨[], rfl, rfl⟩

end digits

/-! ### Signs and exponents -/

/-- A text that starts with no sign. -/
def NoSign (text : Text) : Prop := ∀ c ∈ text.head?, c ≠ '-' ∧ c ≠ '+'

theorem Digits.noSign {digits : List Nat} {text : Text} (h : Digits digits text) (some_digit : digits ≠ [])
    (rest : Text) : NoSign (text ++ rest) := by
  cases text with
  | nil => exact absurd (by simpa [Digits] using h) some_digit
  | cons c text =>
    cases digits with
    | nil => exact absurd rfl some_digit
    | cons d digits =>
      have digit := (digits_cons_iff.mp h).1
      rintro x hx
      obtain rfl : c = x := by simpa using hx
      constructor <;> rintro rfl <;> cases digit

theorem readSign_append {negative : Bool} {sign rest : Text} (h : Sign negative sign)
    (unsigned : NoSign rest) : readSign (sign ++ rest) = (negative, rest) := by
  cases h with
  | none =>
    rw [List.nil_append, readSign.eq_def]
    split
    · exact absurd rfl (unsigned '-' rfl).1
    · exact absurd rfl (unsigned '+' rfl).2
    · rfl
  | plus | minus => rfl

theorem exists_of_readSign {negative : Bool} {text rest : Text} (h : readSign text = (negative, rest)) :
    ∃ sign, text = sign ++ rest ∧ Sign negative sign := by
  rw [readSign.eq_def] at h
  split at h <;> cases h
  · exact ⟨['-'], rfl, .minus⟩
  · exact ⟨['+'], rfl, .plus⟩
  · exact ⟨[], rfl, .none⟩

/-- An exponent is read exactly from the texts that the rule derives. -/
theorem readExponent?_eq_some_iff {text : Text} {exponent : Option (Bool × List Nat)} :
    readExponent? text = some exponent ↔ Exponent exponent text := by
  constructor
  · intro h
    rw [readExponent?.eq_def] at h
    split at h
    · cases h
      exact .none
    · rename_i mark text
      split at h
      · rename_i marked
        cases signed : readSign text with
        | mk negative unsigned =>
          rw [signed] at h
          dsimp only at h
          split at h
          · rename_i d ds read
            cases h
            obtain ⟨sign, rfl, sign_rule⟩ := exists_of_readSign signed
            obtain ⟨front, rfl, digits⟩ := exists_of_readDigits read
            rw [List.append_nil]
            exact .some (by simpa using marked) sign_rule (List.cons_ne_nil d ds) digits
          · cases h
      · cases h
  · rintro (_ | @⟨mark, negative, sign, digits, text, marked, signed, some_digit, h⟩)
    · rfl
    · have unsigned : readSign (sign ++ text) = (negative, text) :=
        readSign_append signed (by simpa using h.noSign some_digit [])
      have read : readDigits text = (digits, []) := by
        simpa using readDigits_append h noDigit_nil
      obtain ⟨d, ds, rfl⟩ := List.exists_cons_of_ne_nil some_digit
      simp [readExponent?, marked, unsigned, read]

theorem Exponent.head {text : Text} {exponent : Option (Bool × List Nat)} (h : Exponent exponent text) :
    ∀ c ∈ text.head?, c = 'e' ∨ c = 'E' := by
  cases h with
  | none => simp
  | some marked => simpa using marked

theorem Exponent.noDigit {text : Text} {exponent : Option (Bool × List Nat)}
    (h : Exponent exponent text) : NoDigit text := by
  intro c hc
  rcases h.head c hc with rfl | rfl <;> decide

/-! ### Numerals -/

theorem mantissa_of_point {whole fraction : List Nat} {front behind : Text}
    (some_digit : whole = [] → fraction ≠ []) (digits : Digits whole front)
    (digits' : Digits fraction behind) : Mantissa whole (some fraction) (front ++ '.' :: behind) := by
  by_cases h : whole = []
  · subst h
    rw [digits_nil_iff.mp digits]
    exact .fraction (some_digit rfl) digits'
  · exact .point h digits digits'

theorem Mantissa.noSign {whole : List Nat} {fraction : Option (List Nat)} {text : Text}
    (h : Mantissa whole fraction text) (rest : Text) : NoSign (text ++ rest) := by
  cases h with
  | whole some_digit digits => exact digits.noSign some_digit rest
  | point some_digit digits =>
    rw [List.append_assoc]
    exact digits.noSign some_digit _
  | fraction => simp [NoSign]

/-- What is read is written. -/
theorem written_of_ofText? {text : Text} {n : Numeral} (h : ofText? text = some n) : n.Written text := by
  rw [ofText?] at h
  cases signed : readSign text with
  | mk negative unsigned =>
    cases read : readDigits unsigned with
    | mk whole behind =>
      obtain ⟨sign, rfl, sign_rule⟩ := exists_of_readSign signed
      obtain ⟨front, rfl, digits⟩ := exists_of_readDigits read
      rw [signed] at h
      dsimp only at h
      rw [read] at h
      dsimp only at h
      split at h
      · rename_i behind
        cases read' : readDigits behind with
        | mk fraction rest =>
          obtain ⟨front', rfl, digits'⟩ := exists_of_readDigits read'
          rw [read'] at h
          split at h
          · cases h
          · rename_i some_digit
            obtain ⟨exponent, found, rfl⟩ := Option.map_eq_some_iff.mp h
            have mantissa : Mantissa whole (some fraction) (front ++ '.' :: front') := by
              refine mantissa_of_point ?_ digits digits'
              simpa using some_digit
            have written := Written.intro sign_rule mantissa (readExponent?_eq_some_iff.mp found)
            simpa using written
      · split at h
        · cases h
        · rename_i some_digit
          obtain ⟨exponent, found, rfl⟩ := Option.map_eq_some_iff.mp h
          rw [← List.append_assoc]
          refine .intro sign_rule (.whole (by simpa using some_digit) digits) ?_
          exact readExponent?_eq_some_iff.mp found

section reading
variable {negative : Bool} {whole fraction : List Nat} {text unsigned behind rest : Text}

theorem ofText?_of_point (signed : readSign text = (negative, unsigned))
    (read : readDigits unsigned = (whole, '.' :: behind)) (read' : readDigits behind = (fraction, rest))
    (some_digit : whole = [] → fraction ≠ []) : ofText? text
      = (readExponent? rest).map fun exponent => ⟨negative, whole, some fraction, exponent⟩ := by
  have digit_there : ((whole.isEmpty && fraction.isEmpty) = true) = False := by simpa using some_digit
  rw [ofText?, signed]
  simp only [read, read', digit_there, if_false]

theorem ofText?_of_whole (signed : readSign text = (negative, unsigned))
    (read : readDigits unsigned = (whole, rest)) (no_point : ∀ later, rest ≠ '.' :: later)
    (some_digit : whole ≠ []) : ofText? text
      = (readExponent? rest).map fun exponent => ⟨negative, whole, none, exponent⟩ := by
  rw [ofText?, signed]
  dsimp only
  rw [read]
  dsimp only
  split
  · exact absurd rfl (no_point _)
  · rw [if_neg (by simpa using some_digit)]

end reading

/-- What is written is read. -/
theorem Written.ofText? {text : Text} {n : Numeral} (h : n.Written text) :
    Numeral.ofText? text = some n := by
  obtain @⟨negative, whole, fraction, exponent, sign, mantissa, rest, signed, mantissa_rule, rule⟩ := h
  have unsigned : readSign (sign ++ mantissa ++ rest) = (negative, mantissa ++ rest) := by
    rw [List.append_assoc]
    exact readSign_append signed (mantissa_rule.noSign rest)
  have point (text : Text) : NoDigit ('.' :: text) := by
    rintro c hc
    cases hc
    decide
  have found := readExponent?_eq_some_iff.mpr rule
  cases mantissa_rule with
  | whole some_digit digits =>
    have no_point : ∀ later, rest ≠ '.' :: later := by
      rintro later rfl
      exact absurd (rule.head '.' rfl) (by decide)
    rw [ofText?_of_whole unsigned (readDigits_append digits rule.noDigit) no_point some_digit, found]
    rfl
  | @point _ fraction front behind some_digit digits digits' =>
    have read : readDigits (front ++ '.' :: behind ++ rest) = (whole, '.' :: (behind ++ rest)) := by
      simpa using readDigits_append digits (point (behind ++ rest))
    rw [ofText?_of_point unsigned read (readDigits_append digits' rule.noDigit)
      (fun empty => absurd empty some_digit), found]
    rfl
  | @fraction fraction behind some_digit digits =>
    have read : readDigits ('.' :: behind ++ rest) = ([], '.' :: (behind ++ rest)) :=
      readDigits_append (digits_nil_iff.mpr rfl) (point (behind ++ rest))
    rw [ofText?_of_point unsigned read (readDigits_append digits rule.noDigit)
      (fun _ => some_digit), found]
    rfl

/-- A text is read as a numeral exactly if it writes this numeral. -/
theorem ofText?_eq_some_iff {text : Text} {n : Numeral} : ofText? text = some n ↔ n.Written text :=
  ⟨written_of_ofText?, Written.ofText?⟩

end Numeral
end Stencil
