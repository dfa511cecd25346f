import Patchbay.Text.Blank
import Patchbay.Decimal.Shortest

/-!
# Reading numbers

* `Numeral` — sign, digits, fraction and exponent of a written number
* `Numeral.parse?` — reads a numeral that fills the whole text
* `Numeral.toFloat` — the nearest double
* `readFloat?` — the liberal reading of a double: blanks around it, words for the infinities and
  the undefined value, underscores between digits
* `readInt?`, `readHex?` — the liberal reading of an integer

Digits of every script are read. A written integer has at most `integerDigitLimit` digits.
-/

namespace Patchbay

/-- A written number: `± digits · 10^(exponent - fraction)`. -/
structure Numeral where
  negative : Bool
  digits : List Char
  /-- How many of the digits stand after the point. -/
  fraction : Nat
  exponent : Int
deriving Repr, DecidableEq

namespace Numeral

/-- An optional sign, and what follows it. -/
def sign : List Char → Bool × List Char
  | '-' :: rest => (true, rest)
  | '+' :: rest => (false, rest)
  | rest => (false, rest)

/-- The run of digits at the beginning, and what follows it. -/
def digitRun (cs : List Char) : List Char × List Char := cs.span Text.isDigit

/-- The exponent part of a numeral, which must reach the end of the text; a numeral without one has
exponent zero. -/
def exponentPart? : List Char → Option Int
  | [] => some 0
  | c :: rest =>
    if c == 'e' || c == 'E' then
      let (negative, rest) := sign rest
      if !rest.isEmpty && rest.all Text.isDigit then
        let value : Int := Text.natOfDigits rest
        some (if negative then -value else value)
      else none
    else none

/-- Reads a numeral that fills the whole text: a sign, digits with at most one point among them and
at least one digit, and an exponent. -/
def parse? (cs : List Char) : Option Numeral :=
  let (negative, rest) := sign cs
  let (whole, rest) := digitRun rest
  let (fraction, rest) :=
    match rest with
    | '.' :: rest => digitRun rest
    | rest => ([], rest)
  if whole.isEmpty && fraction.isEmpty then none
  else (exponentPart? rest).map fun e => ⟨negative, whole ++ fraction, fraction.length, e⟩

/-- The double nearest to a numeral. -/
def toFloat (n : Numeral) : Float :=
  Double.ofDecimal n.negative (Text.natOfDigits n.digits) (n.exponent - n.fraction)

end Numeral

/-- Takes single underscores between digits away; any other underscore makes the text unreadable.
`before` is the character before the rest of the text. -/
def dropUnderscores? (digit : Char → Bool) (before : Option Char) :
    List Char → Option (List Char)
  | [] => some []
  | '_' :: rest =>
    match before, rest with
    | some b, next :: _ =>
      if digit b && digit next then dropUnderscores? digit (some '_') rest else none
    | _, _ => none
  | c :: rest => (dropUnderscores? digit (some c) rest).map (c :: ·)

/-- `cs` is the ASCII word `word`, in any case. -/
def isWord (word : String) (cs : List Char) : Bool :=
  cs.map Char.toLower == word.toList

/-- The words for the doubles that have no digits. -/
def readSpecial? (cs : List Char) : Option Float :=
  let (negative, rest) := Numeral.sign cs
  if isWord "inf" rest || isWord "infinity" rest then
    some (Double.ofMagnitude negative Double.infinityBits)
  else if isWord "nan" rest then some (0.0 / 0.0)
  else none

/-- The liberal reading of a double. -/
def readFloat? (cs : List Char) : Option Float := do
  let body ← dropUnderscores? Text.isDigit none (Text.trimBy Text.isNumberBlank cs)
  match readSpecial? body with
  | some x => return x
  | none => return (← Numeral.parse? body).toFloat

/-- The most digits a written integer may have. -/
def integerDigitLimit : Nat := 4300

/-- The liberal reading of an integer of at most `limit` digits. -/
def readIntUpTo? (limit : Nat) (cs : List Char) : Option Int := do
  let body ← dropUnderscores? Text.isDigit none (Text.trimBy Text.isNumberBlank cs)
  let (negative, digits) := Numeral.sign body
  if digits.isEmpty || !digits.all Text.isDigit || limit < digits.length then none
  else
    let value : Int := Text.natOfDigits digits
    return if negative then -value else value

/-- The liberal reading of an integer. -/
def readInt? (cs : List Char) : Option Int := readIntUpTo? integerDigitLimit cs

/-- A digit of a hexadecimal number. -/
def isHexDigit (c : Char) : Bool := (Text.hexValue? c).isSome

/-- The liberal reading of a hexadecimal number, which may begin with `0x`. -/
def readHex? (cs : List Char) : Option Int := do
  let (negative, body) := Numeral.sign (Text.trimBy Text.isNumberBlank cs)
  -- The mark `0x` counts as a digit before an underscore, so `0x_1f` reads as `0x1f`.
  let digits ←
    match body with
    | z :: x :: rest =>
      if Text.digitValue? z == some 0 && (x == 'x' || x == 'X') then
        dropUnderscores? isHexDigit (some z) rest
      else dropUnderscores? isHexDigit none body
    | _ => dropUnderscores? isHexDigit none body
  if digits.isEmpty || !digits.all isHexDigit then none
  else
    let value : Int := digits.foldl (fun v c => 16 * v + ((Text.hexValue? c).getD 0 : Nat)) 0
    return if negative then -value else value

end Patchbay
