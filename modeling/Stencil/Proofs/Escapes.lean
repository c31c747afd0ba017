import Stencil.Json.Reader
import Stencil.Json.Writer

/-! # Strings in JSON

A string is written character by character, so it is read back if every character is.  Most characters stand
for themselves or have a letter behind a backslash.  The others are written by their code in four hexadecimal
digits, and those beyond the first plane as two such units, which the reader puts together again.

* `unitEscape_eq` and `unitOf?_unitDigits`: the digits of a unit, and that they are read back.
* `Escapes`: what is read as one character behind a backslash.  `writeChar_cases`: every character stands for
  itself or is written as such an escape.
* `readString_written`: a whole string is read back, up to its closing quote. -/

namespace Stencil.Json

open Text

/-! ### Units -/

/-- The hexadecimal digits of a number, with zeros in front up to a width. -/
def hexDigits (width n : Nat) : Text :=
  List.replicate (width - (Nat.toDigits 16 n).length) '0' ++ Nat.toDigits 16 n

theorem hexDigits_succ {width : Nat} (h : 0 < width) (n : Nat) :
    hexDigits (width + 1) n = hexDigits width (n / 16) ++ [(n % 16).digitChar] := by
  rw [hexDigits, hexDigits]
  by_cases small : n < 16
  · rw [Nat.toDigits_of_lt_base small, Nat.div_eq_of_lt small, Nat.toDigits_zero, Nat.mod_eq_of_lt small]
    obtain ⟨k, rfl⟩ : ∃ k, width = k + 1 := ⟨width - 1, by omega⟩
    simp [List.replicate_succ']
  · rw [Nat.toDigits_of_base_le (by omega) (by omega), List.length_append, List.length_singleton,
      Nat.add_sub_add_right, List.append_assoc]

/-- The four digits of a unit. -/
def unitDigits (unit : Nat) : Text :=
  [(unit / 16 / 16 / 16).digitChar, (unit / 16 / 16 % 16).digitChar, (unit / 16 % 16).digitChar,
    (unit % 16).digitChar]

section unit
variable {unit : Nat}

theorem unitEscape_eq (h : unit < 0x10000) : unitEscape unit = '\\' :: 'u' :: unitDigits unit := by
  have digits : hexDigits 4 unit = unitDigits unit := by
    rw [hexDigits_succ (by omega), hexDigits_succ (by omega), hexDigits_succ (by omega), hexDigits,
      Nat.toDigits_of_lt_base (by omega)]
    rfl
  exact congrArg ('\\' :: 'u' :: ·) digits

theorem hexValue?_digitChar {d : Nat} (h : d < 16) : hexValue? d.digitChar = some d := by
  have all : ∀ d, d < 16 → hexValue? d.digitChar = some d := by decide
  exact all d h

theorem unitOf?_unitDigits (h : unit < 0x10000) :
    unitOf? (unit / 16 / 16 / 16).digitChar (unit / 16 / 16 % 16).digitChar
      (unit / 16 % 16).digitChar (unit % 16).digitChar = some unit := by
  have value : ((unit / 16 / 16 / 16 * 16 + unit / 16 / 16 % 16) * 16 + unit / 16 % 16) * 16 + unit % 16
      = unit := by omega
  rw [unitOf?, hexValue?_digitChar (by omega), hexValue?_digitChar (by omega),
    hexValue?_digitChar (by omega), hexValue?_digitChar (by omega)]
  exact congrArg some value

end unit

/-! ### Characters by their codes -/

section codes
variable {c : Char}

theorem toNat_cases (c : Char) : c.toNat < 0xD800 ∨ 0xDFFF < c.toNat ∧ c.toNat < 0x110000 := c.valid

theorem charOfUnit_toNat (c : Char) : charOfUnit c.toNat = c := by
  rw [charOfUnit, if_pos (show c.toNat.isValidChar from c.valid), Char.ofNat_toNat]

/-- The unit of a character is read, up to the character behind it. -/
theorem readUnit_unit (h : c.toNat < 0x10000) (next : Char) (text : Text) :
    readUnit (unitDigits c.toNat ++ next :: text) = .ok (c, next :: text) := by
  have single : ¬ (0xD800 ≤ c.toNat && decide (c.toNat < 0xDC00)) = true := by
    have := toNat_cases c
    simp only [Bool.and_eq_true, decide_eq_true_eq]
    omega
  simp only [unitDigits, List.cons_append, List.nil_append, readUnit, unitOf?_unitDigits h,
    if_neg single, charOfUnit_toNat]

/-- The two units of a character beyond the first plane are read as this character. -/
theorem readUnit_pair (h : 0x10000 ≤ c.toNat) (next : Char) (text : Text) :
    readUnit (unitDigits (0xD800 + (c.toNat - 0x10000) / 0x400)
        ++ '\\' :: 'u' :: (unitDigits (0xDC00 + (c.toNat - 0x10000) % 0x400) ++ next :: text))
      = .ok (c, next :: text) := by
  obtain ⟨high, hh⟩ : ∃ high, high = 0xD800 + (c.toNat - 0x10000) / 0x400 := ⟨_, rfl⟩
  obtain ⟨low, hl⟩ : ∃ low, low = 0xDC00 + (c.toNat - 0x10000) % 0x400 := ⟨_, rfl⟩
  rw [← hh, ← hl]
  have := toNat_cases c
  have upper : (0xD800 ≤ high && decide (high < 0xDC00)) = true := by
    simp only [Bool.and_eq_true, decide_eq_true_eq]
    omega
  have lower : (0xDC00 ≤ low && decide (low < 0xE000)) = true := by
    simp only [Bool.and_eq_true, decide_eq_true_eq]
    omega
  have joined : charOfPair high low = c := by
    have value : 0x10000 + (high - 0xD800) * 0x400 + (low - 0xDC00) = c.toNat := by omega
    rw [charOfPair, value, Char.ofNat_toNat]
  have fits : high < 0x10000 := by omega
  have fits' : low < 0x10000 := by omega
  simp only [unitDigits, List.cons_append, List.nil_append, readUnit, unitOf?_unitDigits fits,
    unitOf?_unitDigits fits', if_pos upper, if_pos lower, joined]

end codes

/-! ### Characters -/

/-- A text that is read as a character behind a backslash, whatever stands behind it. -/
def Escapes (body : Text) (c : Char) : Prop :=
  ∀ opened next text, readEscape opened (body ++ next :: text) = .ok (c, next :: text)

theorem escapes_letter {letter c : Char} (h : escaped? letter = some c) : Escapes [letter] c := by
  intro opened next text
  have other : letter ≠ 'u' := by
    rintro rfl
    cases h
  rw [List.singleton_append, readEscape, if_neg other, h]

/-- A character is written by its code as an escape. -/
theorem exists_codeEscape (c : Char) : ∃ body, codeEscape c = '\\' :: body ∧ Escapes body c := by
  have := toNat_cases c
  rw [codeEscape]
  split
  · rename_i plane
    exact ⟨_, unitEscape_eq plane, fun opened next text => readUnit_unit plane next text⟩
  · rename_i beyond
    rw [unitEscape_eq (by omega), unitEscape_eq (by omega)]
    refine ⟨_, rfl, fun opened next text => ?_⟩
    simpa [readEscape] using readUnit_pair (Nat.le_of_not_lt beyond) next text

/-- Every character stands for itself or is written as an escape. -/
theorem writeChar_cases (c : Char) :
    (writeChar c = [c] ∧ c ≠ '"' ∧ c ≠ '\\' ∧ 0x20 ≤ c.toNat)
      ∨ ∃ body, writeChar c = '\\' :: body ∧ Escapes body c := by
  have letter (l : Char) (h : escaped? l = some c) : ∃ body, ['\\', l] = '\\' :: body ∧ Escapes body c :=
    ⟨[l], rfl, escapes_letter h⟩
  rw [writeChar]
  split
  · exact .inr (letter '"' (by subst c; rfl))
  split
  · exact .inr (letter '\\' (by subst c; rfl))
  split
  · exact .inr (letter 'n' (by subst c; rfl))
  split
  · exact .inr (letter 'r' (by subst c; rfl))
  split
  · exact .inr (letter 't' (by subst c; rfl))
  split
  · exact .inr (letter 'b' (by subst c; rfl))
  split
  · exact .inr (letter 'f' (by subst c; rfl))
  split
  · rename_i quote backslash _ _ _ _ _ printable
    simp only [Bool.and_eq_true, decide_eq_true_eq] at printable
    exact .inl ⟨rfl, quote, backslash, printable.1⟩
  · exact .inr (exists_codeEscape c)

/-! ### Strings -/

variable {opened : Nat} {c next : Char} {s text rest : Text}

theorem readString_escape (h : readEscape opened text = .ok (c, rest)) :
    readString opened ('\\' :: text) = (readString opened rest).map (·.map (c :: ·) id) := by
  rw [readString.eq_def]
  simp only [Char.reduceEq, if_false, if_true]
  split
  · rename_i failed
    cases h.symm.trans failed
  · rename_i read
    cases h.symm.trans read
    rfl

/-- A character that is written is read back in front of another one. -/
theorem readString_writeChar :
    readString opened (writeChar c ++ next :: text)
      = (readString opened (next :: text)).map (·.map (c :: ·) id) := by
  rcases writeChar_cases c with ⟨written, quote, backslash, visible⟩ | ⟨body, written, escape⟩
  · rw [written, List.singleton_append, readString.eq_def]
    simp only [quote, backslash, if_false, Nat.not_lt.mpr visible]
  · rw [written, List.cons_append]
    exact readString_escape (escape opened next text)

/-- A string that is written is read back up to its closing quote. -/
theorem readString_written :
    readString opened (s.flatMap writeChar ++ '"' :: rest) = .ok (s, rest) := by
  induction s with
  | nil => simp [readString]
  | cons c s ih =>
    obtain ⟨next, text, e⟩ : ∃ next text, s.flatMap writeChar ++ '"' :: rest = next :: text :=
      List.exists_cons_of_ne_nil (by simp)
    rw [List.flatMap_cons, List.append_assoc, e, readString_writeChar, ← e, ih]
    rfl

end Stencil.Json
