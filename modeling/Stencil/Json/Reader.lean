import Stencil.Value.Literal
import Stencil.Number.Integer

/-! # Reading JSON

The reader goes through a text once and holds the containers that are open on a stack.  Besides JSON
it takes `NaN`, `Infinity` and `-Infinity`; of a repeated key the last value counts, in the place of
the first.  Half of a surrogate pair, which is no character, is read as the replacement character.

An error says how much of the text is left at the place it is about, so no part of the reader needs
to know where it is; `ReadError.message` turns that into line, column and position. -/

namespace Stencil

open Text

namespace Json

/-! ### Errors -/

/-- What makes a text no JSON. -/
inductive Malformed where
  | byteOrderMark
  | noValue
  | noName
  | noColon
  | noComma
  | extraData
  | unterminatedString
  | controlCharacter
  | unknownEscape
  | incompleteUnit
deriving DecidableEq, Repr

/-- Why a text could not be read. -/
inductive ReadError where
  /-- The text is malformed at the place where this many characters are left. -/
  | malformed (what : Malformed) (left : Nat)
  | fault (fault : Fault)
deriving DecidableEq, Repr

/-- The wording of what is wrong. -/
def Malformed.message : Malformed → Text
  | byteOrderMark => "Unexpected UTF-8 BOM (decode using utf-8-sig)".toList
  | noValue => "Expecting value".toList
  | noName => "Expecting property name enclosed in double quotes".toList
  | noColon => "Expecting ':' delimiter".toList
  | noComma => "Expecting ',' delimiter".toList
  | extraData => "Extra data".toList
  | unterminatedString => "Unterminated string starting at".toList
  | controlCharacter => "Invalid control character at".toList
  | unknownEscape => "Invalid \\escape".toList
  | incompleteUnit => "Invalid \\uXXXX escape".toList

/-- A position as line, column and count of characters. -/
def placeText (text : Text) (position : Nat) : Text :=
  let before := text.take position
  let column := (before.reverse.takeWhile (· != '\n')).length + 1
  "line ".toList ++ Nat.toDigits 10 (before.count '\n' + 1) ++ " column ".toList
    ++ Nat.toDigits 10 column ++ " (char ".toList ++ Nat.toDigits 10 position ++ [')']

/-- The wording of an error in a text. -/
def ReadError.message (text : Text) : ReadError → Text
  | malformed what left => what.message ++ [':', ' '] ++ placeText text (text.length - left)
  | fault f => f.message

/-! ### Strings -/

/-- The value of a hexadecimal digit. -/
def hexValue? (c : Char) : Option Nat :=
  if c.isDigit then some (c.toNat - 48)
  else if 'a' ≤ c && c ≤ 'f' then some (c.toNat - 87)
  else if 'A' ≤ c && c ≤ 'F' then some (c.toNat - 55)
  else none

/-- The 16-bit unit that four hexadecimal digits write. -/
def unitOf? (a b c d : Char) : Option Nat := do
  let a ← hexValue? a
  let b ← hexValue? b
  let c ← hexValue? c
  let d ← hexValue? d
  return ((a * 16 + b) * 16 + c) * 16 + d

/-- The character of a unit that stands alone. -/
def charOfUnit (unit : Nat) : Char :=
  if unit.isValidChar then Char.ofNat unit else '\uFFFD'

/-- The character of a surrogate pair. -/
def charOfPair (high low : Nat) : Char :=
  Char.ofNat (0x10000 + (high - 0xD800) * 0x400 + (low - 0xDC00))

/-- Reads what follows the `u` of an escape.  The digits must be followed by another character. -/
def readUnit (text : Text) : Except ReadError (Char × Text) :=
  match text with
  | a :: b :: c :: d :: e :: rest =>
    match unitOf? a b c d with
    | none => .error (.malformed .incompleteUnit (text.length + 1))
    | some unit =>
      if 0xD800 ≤ unit && unit < 0xDC00 then
        match e :: rest with
        | '\\' :: 'u' :: f :: g :: h :: i :: j :: rest' =>
          match unitOf? f g h i with
          | none => .error (.malformed .incompleteUnit (rest'.length + 6))
          | some low =>
            if 0xDC00 ≤ low && low < 0xE000 then .ok (charOfPair unit low, j :: rest')
            else .ok (charOfUnit unit, e :: rest)
        | _ => .ok (charOfUnit unit, e :: rest)
      else .ok (charOfUnit unit, e :: rest)
  | _ => .error (.malformed .incompleteUnit (text.length + 1))

/-- The character that a letter stands for behind a backslash. -/
def escaped? (c : Char) : Option Char :=
  if c = '"' || c = '\\' || c = '/' then some c
  else if c = 'b' then some '\x08'
  else if c = 'f' then some '\x0c'
  else if c = 'n' then some '\n'
  else if c = 'r' then some '\r'
  else if c = 't' then some '\t'
  else none

/-- Reads what follows a backslash in a string that begins where `opened` characters are left. -/
def readEscape (opened : Nat) : Text → Except ReadError (Char × Text)
  | [] => .error (.malformed .unterminatedString opened)
  | c :: rest =>
    if c = 'u' then readUnit rest
    else
      match escaped? c with
      | some x => .ok (x, rest)
      | none => .error (.malformed .unknownEscape (rest.length + 2))

theorem length_of_readUnit {text rest : Text} {c : Char} (h : readUnit text = .ok (c, rest)) :
    rest.length < text.length := by
  unfold readUnit at h
  split at h
  · split at h
    · simp at h
    · split at h
      · split at h
        · rename_i hm
          split at h
          · simp at h
          · have hl := congrArg List.length hm
            split at h
            · simp only [Except.ok.injEq, Prod.mk.injEq] at h
              simp only [← h.2, List.length_cons] at *
              omega
            · simp only [Except.ok.injEq, Prod.mk.injEq] at h
              simp [← h.2]
        · simp only [Except.ok.injEq, Prod.mk.injEq] at h
          simp [← h.2]
      · simp only [Except.ok.injEq, Prod.mk.injEq] at h
        simp [← h.2]
  · simp at h

theorem length_of_readEscape {opened : Nat} {text rest : Text} {c : Char}
    (h : readEscape opened text = .ok (c, rest)) : rest.length < text.length := by
  unfold readEscape at h
  split at h
  · simp at h
  · split at h
    · have := length_of_readUnit h
      simp only [List.length_cons]
      omega
    · split at h
      · simp only [Except.ok.injEq, Prod.mk.injEq] at h
        simp [← h.2]
      · simp at h

/-- Reads the rest of a string that begins where `opened` characters are left. -/
def readString (opened : Nat) : Text → Except ReadError (Text × Text)
  | [] => .error (.malformed .unterminatedString opened)
  | c :: text =>
    if c = '"' then .ok ([], text)
    else if c = '\\' then
      match _ : readEscape opened text with
      | .error e => .error e
      | .ok (x, rest) => (readString opened rest).map (·.map (x :: ·) id)
    else if c.toNat < 0x20 then .error (.malformed .controlCharacter (text.length + 1))
    else (readString opened text).map (·.map (c :: ·) id)
termination_by text => text.length
decreasing_by
  · have := length_of_readEscape ‹readEscape opened text = .ok (x, rest)›
    simp only [List.length_cons]
    omega
  · simp

theorem eq_ok_of_map {ε α β : Type} {f : α → β} {e : Except ε α} {y : β}
    (h : e.map f = .ok y) : ∃ x, e = .ok x ∧ f x = y := by
  cases e with
  | error e => simp [Except.map] at h
  | ok x => exact ⟨x, rfl, Except.ok.inj h⟩

theorem length_of_readString {opened : Nat} {text s rest : Text}
    (h : readString opened text = .ok (s, rest)) : rest.length < text.length := by
  fun_induction readString opened text generalizing s rest with
  | case1 => simp at h
  | case2 text =>
    simp only [Except.ok.injEq, Prod.mk.injEq] at h
    simp [← h.2]
  | case3 => simp at h
  | case4 text x rest' escape _ ih =>
    obtain ⟨⟨t, r⟩, hr, hp⟩ := eq_ok_of_map h
    obtain ⟨-, rfl⟩ := Prod.mk.injEq .. ▸ hp
    have h1 := ih hr
    have h2 := length_of_readEscape escape
    simp only [id, List.length_cons]
    omega
  | case5 => simp at h
  | case6 c text _ _ _ ih =>
    obtain ⟨⟨t, r⟩, hr, hp⟩ := eq_ok_of_map h
    obtain ⟨-, rfl⟩ := Prod.mk.injEq .. ▸ hp
    have h1 := ih hr
    simp only [id, List.length_cons]
    omega

/-! ### Numbers and words -/

/-- The ASCII digits that a text starts with, by their values, and what follows them. -/
def readDigits (text : Text) : List Nat × Text :=
  ((text.takeWhile Char.isDigit).map (·.toNat - 48), text.dropWhile Char.isDigit)

/-- The digits of an integer and what follows them.  A zero stands alone. -/
def readWhole (text : Text) : List Nat × Text :=
  match text with
  | '0' :: rest => ([0], rest)
  | _ => readDigits text

/-- The fraction that a text starts with, if a digit follows a point. -/
def readFraction (text : Text) : Option (List Nat) × Text :=
  match text with
  | '.' :: rest =>
    match readDigits rest with
    | ([], _) => (none, text)
    | (digits, rest) => (some digits, rest)
  | _ => (none, text)

/-- The exponent that a text starts with, if it has a digit. -/
def readExponent (text : Text) : Option (Bool × List Nat) × Text :=
  match text with
  | mark :: rest =>
    if mark = 'e' || mark = 'E' then
      let sign := Numeral.readSign rest
      match readDigits sign.2 with
      | ([], _) => (none, text)
      | (digits, rest) => (some (sign.1, digits), rest)
    else (none, text)
  | [] => (none, [])

/-- Reads a number. -/
def readNumber (text : Text) : Except ReadError (Value × Text) :=
  let (negative, unsigned) := match text with
    | '-' :: rest => (true, rest)
    | _ => (false, text)
  match readWhole unsigned with
  | ([], _) => .error (.malformed .noValue text.length)
  | (whole, rest) =>
    let fraction := readFraction rest
    let exponent := readExponent fraction.2
    match Value.ofNumeral ⟨negative, whole, fraction.1, exponent.1⟩ with
    | .ok v => .ok (v, exponent.2)
    | .error f => .error (.fault f)

/-- The words that stand for values. -/
def words : List (Text × Value) :=
  [(['n', 'u', 'l', 'l'], .null), (['t', 'r', 'u', 'e'], .bool true),
    (['f', 'a', 'l', 's', 'e'], .bool false), (['N', 'a', 'N'], .float .nan),
    (['I', 'n', 'f', 'i', 'n', 'i', 't', 'y'], .float (.infinite false)),
    (['-', 'I', 'n', 'f', 'i', 'n', 'i', 't', 'y'], .float (.infinite true))]

/-- The word that a text starts with, and what follows it. -/
def readWord? (text : Text) : Option (Value × Text) :=
  words.findSome? fun word => (after? word.1 text).map fun rest => (word.2, rest)

/-! ### Values -/

/-- A character that may stand between the parts of a JSON text. -/
def isSpace (c : Char) : Bool := c == ' ' || c == '\t' || c == '\n' || c == '\r'

def skipSpace (text : Text) : Text := text.dropWhile isSpace

/-- What a value starts with: all of it, or the bracket of a container. -/
inductive Opening where
  | scalar (v : Value)
  | array
  | object
deriving Repr

/-- Reads a scalar or the bracket that opens a container. -/
def readOpening (text : Text) : Except ReadError (Opening × Text) :=
  match text with
  | '"' :: rest => (readString text.length rest).map (·.map (.scalar ∘ .str) id)
  | '\x7b' :: rest => .ok (.object, rest)
  | '[' :: rest => .ok (.array, rest)
  | _ =>
    match readWord? text with
    | some found => .ok (.scalar found.1, found.2)
    | none => (readNumber text).map (·.map .scalar id)

/-- Reads a name with the colon behind it. -/
def readName (text : Text) : Except ReadError (Text × Text) :=
  match text with
  | '"' :: rest =>
    match readString text.length rest with
    | .error e => .error e
    | .ok (name, rest) =>
      match skipSpace rest with
      | ':' :: rest => .ok (name, skipSpace rest)
      | rest => .error (.malformed .noColon rest.length)
  | _ => .error (.malformed .noName text.length)

/-! ### Reading shortens the text -/

theorem length_skipSpace_le (text : Text) : (skipSpace text).length ≤ text.length :=
  (List.dropWhile_sublist isSpace).length_le

theorem length_readDigits (text : Text) :
    text.length = (readDigits text).1.length + (readDigits text).2.length := by
  rw [readDigits, List.length_map, ← List.length_append, List.takeWhile_append_dropWhile]

theorem length_readWhole_le (text : Text) :
    (readWhole text).1.length + (readWhole text).2.length ≤ text.length := by
  unfold readWhole
  split
  · simp only [List.length_cons, List.length_nil]
    omega
  · exact Nat.le_of_eq (length_readDigits text).symm

theorem length_readFraction_le (text : Text) : (readFraction text).2.length ≤ text.length := by
  unfold readFraction
  split
  · rename_i rest
    have h := length_readDigits rest
    split
    · exact Nat.le_refl _
    · rename_i hd
      rw [hd] at h
      dsimp only [List.length_cons] at h ⊢
      omega
  · exact Nat.le_refl _

theorem length_readSign_le (text : Text) : (Numeral.readSign text).2.length ≤ text.length := by
  unfold Numeral.readSign
  split <;> simp

theorem length_readExponent_le (text : Text) : (readExponent text).2.length ≤ text.length := by
  unfold readExponent
  split
  · rename_i mark rest
    split
    · have h := length_readDigits (Numeral.readSign rest).2
      have hs := length_readSign_le rest
      dsimp only
      split
      · exact Nat.le_refl _
      · rename_i hd
        rw [hd] at h
        dsimp only [List.length_cons] at h ⊢
        omega
    · exact Nat.le_refl _
  · exact Nat.le_refl _

theorem length_of_readNumber {text rest : Text} {v : Value}
    (h : readNumber text = .ok (v, rest)) : rest.length < text.length := by
  unfold readNumber at h
  split at h
  rename_i negative unsigned hu
  have hl : unsigned.length ≤ text.length := by
    split at hu
    · simp only [Prod.mk.injEq] at hu
      simp [← hu.2]
    · simp only [Prod.mk.injEq] at hu
      simp [← hu.2]
  have hw := length_readWhole_le unsigned
  split at h
  · simp at h
  · rename_i whole rest' hne hrest
    rw [hrest] at hw
    have hpos : 0 < whole.length := List.length_pos_iff.mpr fun he => hne he
    have hf := length_readFraction_le rest'
    have he := length_readExponent_le (readFraction rest').2
    dsimp only at h
    split at h
    · simp only [Except.ok.injEq, Prod.mk.injEq] at h
      dsimp only at hw
      rw [← h.2]
      omega
    · simp at h

theorem length_of_readWord? {text : Text} {found : Value × Text}
    (h : readWord? text = some found) : found.2.length < text.length := by
  obtain ⟨word, hw, h⟩ := List.exists_of_findSome?_eq_some h
  obtain ⟨rest, hr, rfl⟩ := Option.map_eq_some_iff.mp h
  have hl := length_of_after? hr
  have hpos : 0 < word.1.length := by
    simp only [words, List.mem_cons, List.not_mem_nil, or_false] at hw
    rcases hw with rfl | rfl | rfl | rfl | rfl | rfl <;> decide
  dsimp only
  omega

theorem length_of_readOpening {text rest : Text} {o : Opening}
    (h : readOpening text = .ok (o, rest)) : rest.length < text.length := by
  unfold readOpening at h
  split at h
  · obtain ⟨⟨s, r⟩, hr, hp⟩ := eq_ok_of_map h
    obtain ⟨-, rfl⟩ := Prod.mk.injEq .. ▸ hp
    have := length_of_readString hr
    simp only [id, List.length_cons]
    omega
  · simp only [Except.ok.injEq, Prod.mk.injEq] at h
    simp [← h.2]
  · simp only [Except.ok.injEq, Prod.mk.injEq] at h
    simp [← h.2]
  · split at h
    · rename_i found hf
      simp only [Except.ok.injEq, Prod.mk.injEq] at h
      rw [← h.2]
      exact length_of_readWord? hf
    · obtain ⟨⟨v, r⟩, hr, hp⟩ := eq_ok_of_map h
      obtain ⟨-, rfl⟩ := Prod.mk.injEq .. ▸ hp
      exact length_of_readNumber hr

theorem length_of_readName {text name rest : Text} (h : readName text = .ok (name, rest)) :
    rest.length < text.length := by
  unfold readName at h
  split at h
  · split at h
    · simp at h
    · rename_i s rest' hs
      have h1 := length_of_readString hs
      have h2 := length_skipSpace_le rest'
      split at h
      · rename_i rest'' hc
        rw [hc] at h2
        simp only [Except.ok.injEq, Prod.mk.injEq] at h
        have h3 := length_skipSpace_le rest''
        simp only [← h.2, List.length_cons] at *
        omega
      · simp at h
  · simp at h

theorem length_inside {text inner : Text} {o : Opening} (h : readOpening text = .ok (o, inner)) :
    (skipSpace inner).length < text.length :=
  Nat.lt_of_le_of_lt (length_skipSpace_le inner) (length_of_readOpening h)

theorem length_behind {text inner rest close : Text} {o : Opening}
    (h : readOpening text = .ok (o, inner)) (closed : after? close (skipSpace inner) = some rest) :
    rest.length < text.length := by
  have := length_inside h
  have := length_of_after? closed
  omega

theorem length_of_skipSpace {c : Char} {text rest : Text} (h : skipSpace text = c :: rest) :
    rest.length < text.length := by
  have hl := length_skipSpace_le text
  rw [h] at hl
  exact hl

theorem length_skipSpace_of_skipSpace {c : Char} {text rest : Text}
    (h : skipSpace text = c :: rest) : (skipSpace rest).length < text.length :=
  Nat.lt_of_le_of_lt (length_skipSpace_le rest) (length_of_skipSpace h)

/-! ### The reader -/

/-- A container that is open: its elements so far, the last one first, or its fields so far and the
name that waits for a value. -/
inductive Frame where
  | items (done : List Value)
  | fields (done : List (Text × Value)) (name : Text)
deriving Repr

mutual

/-- Reads a value inside the open containers, and what completes them. -/
def readValue (stack : List Frame) (text : Text) : Except ReadError (Value × Text) :=
  match _ : readOpening text with
  | .error e => .error e
  | .ok (.scalar v, rest) => deliver stack v rest
  | .ok (.array, inner) =>
    match _ : after? [']'] (skipSpace inner) with
    | some rest => deliver stack (.list []) rest
    | none => readValue (.items [] :: stack) (skipSpace inner)
  | .ok (.object, inner) =>
    match _ : after? ['\x7d'] (skipSpace inner) with
    | some rest => deliver stack (.mapping []) rest
    | none => readField stack [] (skipSpace inner)
termination_by text.length
decreasing_by
  · exact length_of_readOpening ‹readOpening text = .ok (.scalar v, rest)›
  · exact length_behind ‹readOpening text = _› ‹after? _ (skipSpace inner) = some rest›
  · exact length_inside ‹readOpening text = _›
  · exact length_behind ‹readOpening text = _› ‹after? _ (skipSpace inner) = some rest›
  · exact length_inside ‹readOpening text = _›

/-- Reads a name and its value inside an object with these fields. -/
def readField (stack : List Frame) (done : List (Text × Value)) (text : Text) :
    Except ReadError (Value × Text) :=
  match _ : readName text with
  | .error e => .error e
  | .ok (name, rest) => readValue (.fields done name :: stack) rest
termination_by text.length
decreasing_by exact length_of_readName ‹readName text = .ok (name, rest)›

/-- Puts a value into the innermost open container and reads on; without one it is the result. -/
def deliver (stack : List Frame) (v : Value) (text : Text) : Except ReadError (Value × Text) :=
  match stack with
  | [] => .ok (v, text)
  | .items done :: stack =>
    match _ : skipSpace text with
    | ']' :: rest => deliver stack (.list (v :: done).reverse) rest
    | ',' :: rest => readValue (.items (v :: done) :: stack) (skipSpace rest)
    | rest => .error (.malformed .noComma rest.length)
  | .fields done name :: stack =>
    match _ : skipSpace text with
    | '\x7d' :: rest => deliver stack (.mapping (Value.setField name v done)) rest
    | ',' :: rest => readField stack (Value.setField name v done) (skipSpace rest)
    | rest => .error (.malformed .noComma rest.length)
termination_by text.length
decreasing_by
  · exact length_of_skipSpace ‹skipSpace text = _›
  · exact length_skipSpace_of_skipSpace ‹skipSpace text = _›
  · exact length_of_skipSpace ‹skipSpace text = _›
  · exact length_skipSpace_of_skipSpace ‹skipSpace text = _›

end

/-- Reads a text as JSON. -/
def read (text : Text) : Except ReadError Value :=
  if text.head? = some '\uFEFF' then .error (.malformed .byteOrderMark text.length)
  else
    match readValue [] (skipSpace text) with
    | .error e => .error e
    | .ok (v, rest) =>
      match skipSpace rest with
      | [] => .ok v
      | rest => .error (.malformed .extraData rest.length)

end Json
end Stencil
