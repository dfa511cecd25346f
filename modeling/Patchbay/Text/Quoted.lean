import Patchbay.Text.Printable

/-!
# Quoted texts

`quoted` shows a text between quotation marks, the way messages cite it: in single quotes, or in
double quotes when it holds a single quote and no double one. A backslash escapes the mark, the
backslash and whatever is not printable.
-/

namespace Patchbay.Text

/-- The lower-case hexadecimal digits of `n`, with leading zeros up to `width`. -/
def hexText (width n : Nat) : List Char :=
  let digits := Nat.toDigits 16 n
  List.replicate (width - digits.length) '0' ++ digits

/-- The escape of a character without a picture, as short as its code point allows. -/
def escapeHidden (c : Char) : List Char :=
  let n := c.toNat
  if n ≤ 0xFF then '\\' :: 'x' :: hexText 2 n
  else if n ≤ 0xFFFF then '\\' :: 'u' :: hexText 4 n
  else '\\' :: 'U' :: hexText 8 n

/-- One character of a quoted text; `mark` is the quotation mark around it. -/
def quoteChar (mark c : Char) : List Char :=
  if c == mark || c == '\\' then ['\\', c]
  else if c == '\n' then ['\\', 'n']
  else if c == '\r' then ['\\', 'r']
  else if c == '\t' then ['\\', 't']
  else if isPrintable c then [c]
  else escapeHidden c

/-- A text as messages cite it. -/
def quotedChars (cs : List Char) : List Char :=
  let mark := if cs.contains '\'' && !cs.contains '"' then '"' else '\''
  mark :: (cs.flatMap (quoteChar mark) ++ [mark])

/-- A text as messages cite it. -/
def quoted (s : String) : String := String.ofList (quotedChars s.toList)

end Patchbay.Text
