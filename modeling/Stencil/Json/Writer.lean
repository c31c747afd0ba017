import Stencil.Value.Basic
import Stencil.Number.Shortest
import Stencil.Number.Integer

/-! # Writing JSON

Values are written on one line, with a blank after each comma and colon.  Characters outside the
printable part of ASCII are escaped, those beyond the first plane as two units; lists and tuples are
arrays, and what is not there is the string `UNDEFINED`.  Integers are written with all their digits;
how many of them a value may have is up to those who write it (`Value.shown`). -/

namespace Stencil

/-- Doubles are written with the fewest digits that read back: positionally from 0.0001 up to and
not including 10^16, and otherwise with an exponent of at least two digits. -/
def doubleLayout : Layout := ⟨-4, 16, 2⟩

namespace Json

/-- The escape of one 16-bit unit. -/
def unitEscape (unit : Nat) : Text :=
  let digits := Nat.toDigits 16 unit
  '\\' :: 'u' :: List.replicate (4 - digits.length) '0' ++ digits

/-- The escape of a character by its code, in two units beyond the first plane. -/
def codeEscape (c : Char) : Text :=
  if c.toNat < 0x10000 then unitEscape c.toNat
  else
    unitEscape (0xD800 + (c.toNat - 0x10000) / 0x400)
      ++ unitEscape (0xDC00 + (c.toNat - 0x10000) % 0x400)

/-- One character of a string. -/
def writeChar (c : Char) : Text :=
  if c = '"' then ['\\', '"']
  else if c = '\\' then ['\\', '\\']
  else if c = '\n' then ['\\', 'n']
  else if c = '\r' then ['\\', 'r']
  else if c = '\t' then ['\\', 't']
  else if c = '\x08' then ['\\', 'b']
  else if c = '\x0c' then ['\\', 'f']
  else if 0x20 ≤ c.toNat && c.toNat ≤ 0x7E then [c]
  else codeEscape c

/-- A string in quotes. -/
def writeString (s : Text) : Text := '"' :: s.flatMap writeChar ++ ['"']

/-- A double, whether JSON has a number for it or not. -/
def writeDouble : Double → Text
  | .nan => ['N', 'a', 'N']
  | .infinite negative =>
    (if negative then ['-'] else []) ++ ['I', 'n', 'f', 'i', 'n', 'i', 't', 'y']
  | x => doubleLayout.text x

mutual

/-- A value as JSON. -/
def write : Value → Text
  | .undefined => writeString ['U', 'N', 'D', 'E', 'F', 'I', 'N', 'E', 'D']
  | .null => ['n', 'u', 'l', 'l']
  | .bool true => ['t', 'r', 'u', 'e']
  | .bool false => ['f', 'a', 'l', 's', 'e']
  | .int n => integerText n
  | .float x => writeDouble x
  | .str s | .bareword s => writeString s
  | .list items | .tuple items => '[' :: writeItems items ++ [']']
  | .mapping fields => '{' :: writeFields fields ++ ['}']

/-- The elements of an array. -/
def writeItems : List Value → Text
  | [] => []
  | [item] => write item
  | item :: items => write item ++ ',' :: ' ' :: writeItems items

/-- The fields of an object. -/
def writeFields : List (Text × Value) → Text
  | [] => []
  | [(key, value)] => writeString key ++ ':' :: ' ' :: write value
  | (key, value) :: fields =>
    writeString key ++ ':' :: ' ' :: write value ++ ',' :: ' ' :: writeFields fields

end

end Json
end Stencil
