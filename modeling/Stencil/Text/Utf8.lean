import Stencil.Text.Search

/-! # UTF-8

`decode` reads bytes as UTF-8 and refuses them at the first place where no character can be read.
The refusal names the bytes that were taken together: a byte that starts no character, a start whose
continuation breaks off at a wrong byte, or a start that the end of the bytes cuts short. -/

namespace Stencil.Utf8

/-- Why bytes are no UTF-8. -/
inductive Reason where
  | invalidStart
  | invalidContinuation
  | unexpectedEnd
deriving DecidableEq, Repr

/-- Bytes that could not be read: their position, how many they are and the first of them. -/
structure Flaw where
  position : Nat
  width : Nat
  first : UInt8
  reason : Reason
deriving DecidableEq, Repr

/-- A byte inside the range that continues a character. -/
def continues (b : UInt8) : Bool := 0x80 ≤ b && b ≤ 0xBF

/-- How many bytes a character has that starts with a byte, if any does. -/
def widthOf? (b : UInt8) : Option Nat :=
  if b < 0x80 then some 1
  else if b < 0xC2 then none
  else if b < 0xE0 then some 2
  else if b < 0xF0 then some 3
  else if b < 0xF5 then some 4
  else none

/-- Whether a second byte may follow the first: overlong forms, surrogates and what lies beyond the
last plane are refused here. -/
def secondFits (first second : UInt8) : Bool :=
  continues second
    && !(first == 0xE0 && second < 0xA0) && !(first == 0xED && 0xA0 ≤ second)
    && !(first == 0xF0 && second < 0x90) && !(first == 0xF4 && 0x90 ≤ second)

/-- The payload of a start byte. -/
def startBits (width : Nat) (first : UInt8) : Nat :=
  match width with
  | 1 => first.toNat
  | 2 => first.toNat % 0x20
  | 3 => first.toNat % 0x10
  | _ => first.toNat % 0x08

/-- Reads the bytes that a character still needs.  `taken` of them were read before. -/
def readRest (fits : UInt8 → Bool) :
    (needed taken code : Nat) → List UInt8 → Except (Nat × Reason) (Char × List UInt8)
  | 0, _, code, bytes => .ok (Char.ofNat code, bytes)
  | _ + 1, taken, _, [] => .error (taken, .unexpectedEnd)
  | needed + 1, taken, code, b :: bytes =>
    if fits b then readRest continues needed (taken + 1) (code * 64 + b.toNat % 64) bytes
    else .error (taken, .invalidContinuation)

/-- Reads one character that starts with a byte. -/
def readChar (first : UInt8) (bytes : List UInt8) : Except (Nat × Reason) (Char × List UInt8) :=
  match widthOf? first with
  | none => .error (1, .invalidStart)
  | some width => readRest (secondFits first) (width - 1) 1 (startBits width first) bytes

theorem length_of_readRest {fits : UInt8 → Bool} {needed taken code : Nat} {bytes rest : List UInt8}
    {c : Char} (h : readRest fits needed taken code bytes = .ok (c, rest)) :
    rest.length ≤ bytes.length := by
  induction needed generalizing fits taken code bytes with
  | zero =>
    simp only [readRest, Except.ok.injEq, Prod.mk.injEq] at h
    simp [h.2]
  | succ needed ih =>
    cases bytes with
    | nil => simp [readRest] at h
    | cons b bytes =>
      simp only [readRest] at h
      split at h
      · have := ih h
        simp only [List.length_cons]
        omega
      · simp at h

theorem length_of_readChar {first : UInt8} {bytes rest : List UInt8} {c : Char}
    (h : readChar first bytes = .ok (c, rest)) : rest.length ≤ bytes.length := by
  unfold readChar at h
  split at h
  · simp at h
  · exact length_of_readRest h

/-- Reads bytes from a position on. -/
def decodeFrom (position : Nat) (bytes : List UInt8) : Except Flaw Text :=
  match bytes with
  | [] => .ok []
  | first :: bytes =>
    match _ : readChar first bytes with
    | .error (width, reason) => .error ⟨position, width, first, reason⟩
    | .ok (c, rest) =>
      (decodeFrom (position + 1 + (bytes.length - rest.length)) rest).map (c :: ·)
termination_by bytes.length
decreasing_by
  have := length_of_readChar ‹readChar first bytes = .ok (c, rest)›
  simp only [List.length_cons]
  omega

/-- Reads bytes as UTF-8. -/
def decode (bytes : List UInt8) : Except Flaw Text := decodeFrom 0 bytes

/-- The bytes of a text. -/
def encode (text : Text) : List UInt8 := text.flatMap String.utf8EncodeChar

/-- The wording of a reason. -/
def Reason.message : Reason → Text
  | invalidStart => "invalid start byte".toList
  | invalidContinuation => "invalid continuation byte".toList
  | unexpectedEnd => "unexpected end of data".toList

/-- The wording of a flaw. -/
def Flaw.message (f : Flaw) : Text :=
  let subject :=
    if f.width = 1 then
      "byte 0x".toList ++ Nat.toDigits 16 f.first.toNat ++ " in position ".toList
        ++ Nat.toDigits 10 f.position
    else
      "bytes in position ".toList ++ Nat.toDigits 10 f.position ++ ['-']
        ++ Nat.toDigits 10 (f.position + f.width - 1)
  "'utf-8' codec can't decode ".toList ++ subject ++ [':', ' '] ++ f.reason.message

end Stencil.Utf8
