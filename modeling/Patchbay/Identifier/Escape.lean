import Patchbay.Fault

/-!
# Escaped names

A name that is no identifier travels in an alphabet of letters, digits and underscores: ASCII
letters and digits stand for themselves, and every other character, the underscore included, is an
underscore with its code point in two, four or eight upper-case hexadecimal digits.

* `escape` — the escaped form of a name
* `unescape` — the name that an escaped form stands for

## Design decisions

* The width of an escape is announced: `_XX`, `_uXXXX` or `_UXXXXXXXX`. As an escaped form never
  holds a bare underscore, it can be read from left to right without looking ahead.
* `unescape` is one pass over the text with a small state (`Reading`). It stops at the first
  escape that is malformed or no character.
-/

namespace Patchbay.Identifier

/-- The upper-case hexadecimal digit of a number below sixteen. -/
def hexDigit (n : Nat) : Char := if n < 10 then Char.ofNat (48 + n) else Char.ofNat (55 + n)

/-- The last `width` hexadecimal digits of `n`. -/
def hexDigits : (width : Nat) → Nat → List Char
  | 0, _ => []
  | width + 1, n => hexDigits width (n / 16) ++ [hexDigit (n % 16)]

/-- The value of an upper-case hexadecimal digit. -/
def hexValue? (c : Char) : Option Nat :=
  let n := c.toNat
  if 48 ≤ n && n ≤ 57 then some (n - 48)
  else if 65 ≤ n && n ≤ 70 then some (n - 55)
  else none

/-- ASCII letters and digits. -/
def isAlphanumeric (c : Char) : Bool :=
  let n := c.toNat
  (48 ≤ n && n ≤ 57) || (65 ≤ n && n ≤ 90) || (97 ≤ n && n ≤ 122)

/-- The escaped form of one character. -/
def escapeChar (c : Char) : List Char :=
  let n := c.toNat
  if isAlphanumeric c then [c]
  else if n < 0x100 then '_' :: hexDigits 2 n
  else if n ≤ 0xFFFF then '_' :: 'u' :: hexDigits 4 n
  else '_' :: 'U' :: hexDigits 8 n

/-- The escaped form of a name. -/
def escape (name : List Char) : List Char := name.flatMap escapeChar

@[simp] theorem escape_nil : escape [] = [] := rfl

@[simp] theorem escape_cons (c : Char) (name : List Char) :
    escape (c :: name) = escapeChar c ++ escape name := rfl

/-- The character with a code point. Code points up to 31 bits without a character are acceptable
numbers but no characters; larger numbers are out of range. -/
def charOf (n : Nat) : Except Fault Char :=
  if n.isValidChar then .ok (Char.ofNat n)
  else if n ≤ 0x7FFFFFFF then .error .unreadable
  else .error .outOfRange

/-- Where the reader of an escaped form stands. -/
inductive Reading
  /-- Between escapes. -/
  | plain
  /-- After an underscore. -/
  | mark
  /-- Within an escape, with `left + 1` digits to come. -/
  | digits (left : Nat) (value : Nat)
deriving Repr, DecidableEq

/-- Reads an escaped form; whatever is outside escapes stands for itself. -/
def unescapeFrom : Reading → List Char → Except Fault (List Char)
  | .plain, [] => .ok []
  | .mark, [] => .error .unreadable
  | .digits _ _, [] => .error .unreadable
  | .plain, c :: rest =>
    if c = '_' then unescapeFrom .mark rest else (unescapeFrom .plain rest).map (c :: ·)
  | .mark, c :: rest =>
    if c = 'u' then unescapeFrom (.digits 3 0) rest
    else if c = 'U' then unescapeFrom (.digits 7 0) rest
    else
      match hexValue? c with
      | some d => unescapeFrom (.digits 0 d) rest
      | none => .error .unreadable
  | .digits left value, c :: rest =>
    match hexValue? c with
    | none => .error .unreadable
    | some d =>
      match left with
      | left + 1 => unescapeFrom (.digits left (16 * value + d)) rest
      | 0 =>
        match charOf (16 * value + d) with
        | .ok decoded => (unescapeFrom .plain rest).map (decoded :: ·)
        | .error fault => .error fault

/-- The name that an escaped form stands for. -/
def unescape (cs : List Char) : Except Fault (List Char) := unescapeFrom .plain cs

end Patchbay.Identifier
