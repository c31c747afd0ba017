import Stencil.Text.Search
import Stencil.Text.Printable

/-! # Quoted texts

The quoted form shows a text on one line.  It stands between single quotes, or between double quotes
when the text holds a single quote and no double quote.  The quote in use and the backslash are
escaped, tab, line feed and carriage return are written by letter, and every other character that is
not printable by its code in hexadecimal. -/

namespace Stencil.Text

/-- `width` lower-case hexadecimal digits of a number, the low ones. -/
def hex (width n : Nat) : Text :=
  let digits := Nat.toDigits 16 n
  List.replicate (width - digits.length) '0' ++ digits

/-- The escape that shows a character by its code. -/
def codeEscape (c : Char) : Text :=
  if c.toNat < 0x100 then '\\' :: 'x' :: hex 2 c.toNat
  else if c.toNat < 0x10000 then '\\' :: 'u' :: hex 4 c.toNat
  else '\\' :: 'U' :: hex 8 c.toNat

/-- One character of a quoted text. -/
def quotedChar (quote c : Char) : Text :=
  if c = quote || c = '\\' then ['\\', c]
  else if c = '\t' then ['\\', 't']
  else if c = '\n' then ['\\', 'n']
  else if c = '\r' then ['\\', 'r']
  else if isPrintable c then [c]
  else codeEscape c

/-- The quote that stands around a text. -/
def quoteOf (text : Text) : Char :=
  if text.contains '\'' && !text.contains '"' then '"' else '\''

/-- The quoted form of a text. -/
def quoted (text : Text) : Text :=
  let quote := quoteOf text
  quote :: text.flatMap (quotedChar quote) ++ [quote]

example : quoted ['a', '\''] = ['"', 'a', '\'', '"'] := by decide
example : quoted ['\x01', '\\'] = ['\'', '\\', 'x', '0', '1', '\\', '\\', '\''] := by decide +kernel

end Stencil.Text
