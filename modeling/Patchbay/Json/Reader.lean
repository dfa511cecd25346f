import Patchbay.Text.Split
import Patchbay.Value.Basic

/-!
# Reading JSON

`Json.parse` reads the JSON text of one value. Whole numbers become integers of any size, other
numbers the nearest double; the words for the infinities and the undefined number are read too. Of
a key that occurs twice the first place and the last value count.

* `Json.Stop` — why reading stopped; a place is given by the number of characters left there
* `Json.scanString`, `Json.scanNumber` — the two tokens with an inner structure
* `Json.readValue` — a value at the beginning of a text
* `Json.parse` — a value that fills the text up to blanks around it

The readers of nested values carry a budget of steps. Of two steps at least one takes a character,
so twice the length of the text is enough and the budget never decides an answer. They also count how
many more arrays and objects may be opened inside of each other; a text that opens more is refused.
-/

namespace Patchbay.Json

/-- Why reading stopped. -/
inductive Stop
  /-- A problem, and how many characters were left where it was found. -/
  | problem (p : JsonProblem) (left : Nat)
  /-- An integer with more digits than are read. -/
  | longInteger
  /-- More arrays and objects inside of each other than are read. -/
  | deepNesting
deriving Repr, DecidableEq

/-- How many arrays and objects may be opened inside of each other. -/
def maxDepth : Nat := 988

/-- The white space of JSON. -/
def isSpace (c : Char) : Bool := c == ' ' || c == '\t' || c == '\n' || c == '\r'

/-- What is left after white space. -/
def skipSpace (cs : List Char) : List Char := cs.dropWhile isSpace

/-! ### Strings -/

/-- The value of an ASCII hexadecimal digit. -/
def hexDigit? (c : Char) : Option Nat :=
  if c.toNat < 128 then Text.hexValue? c else none

/-- The value of four hexadecimal digits. -/
def hexWord? (a b c d : Char) : Option Nat := do
  return ((← hexDigit? a) * 16 + (← hexDigit? b)) * 256 + (← hexDigit? c) * 16 + (← hexDigit? d)

/-- The character of a simple escape. -/
def simpleEscape? : Char → Option Char
  | '"' => some '"'
  | '\\' => some '\\'
  | '/' => some '/'
  | 'b' => some '\x08'
  | 'f' => some '\x0c'
  | 'n' => some '\n'
  | 'r' => some '\r'
  | 't' => some '\t'
  | _ => none

/-- The character with a code point; code points that are no characters give the replacement
character. -/
def charOf (n : Nat) : Char := if n.isValidChar then Char.ofNat n else '\ufffd'

/-- Reads the second half of a pair of escapes for one character beyond the basic plane. Gives the
joined code point and what follows, or nothing if no such half follows. -/
def lowHalf? (high : Nat) : List Char → Except Stop (Option (Nat × List Char))
  | '\\' :: 'u' :: a :: b :: c :: d :: next :: rest =>
    match hexWord? a b c d with
    | none => .error (.problem .badUnicodeEscape (rest.length + 6))
    | some low =>
      if 0xDC00 ≤ low && low ≤ 0xDFFF then
        .ok (some (0x10000 + (high - 0xD800) * 0x400 + (low - 0xDC00), next :: rest))
      else .ok none
  | _ => .ok none

/-- Reads an escape after its backslash and letter `u`. A string does not end within it, so a
character must follow the four digits. -/
def unicodeEscape : List Char → Except Stop (Char × List Char)
  | a :: b :: c :: d :: next :: rest =>
    match hexWord? a b c d with
    | none => .error (.problem .badUnicodeEscape (rest.length + 6))
    | some n =>
      if 0xD800 ≤ n && n ≤ 0xDBFF then do
        match ← lowHalf? n (next :: rest) with
        | some (joined, rest) => return (charOf joined, rest)
        | none => return (charOf n, next :: rest)
      else .ok (charOf n, next :: rest)
  | rest => .error (.problem .badUnicodeEscape (rest.length + 1))

/-- Reads the characters of a string after its opening quote, where the text `inside` was left.
Gives them in reverse, and what follows the closing quote. -/
def scanString (inside : List Char) : (budget : Nat) → (read : List Char) → List Char →
    Except Stop (List Char × List Char)
  | 0, _, _ => .error (.problem .openString (inside.length + 1))
  | budget + 1, read, cs =>
    match cs with
    | [] => .error (.problem .openString (inside.length + 1))
    | '"' :: rest => .ok (read, rest)
    | ['\\'] => .error (.problem .openString (inside.length + 1))
    | '\\' :: 'u' :: rest => do
      let (c, rest) ← unicodeEscape rest
      scanString inside budget (c :: read) rest
    | '\\' :: e :: rest =>
      match simpleEscape? e with
      | some c => scanString inside budget (c :: read) rest
      | none => .error (.problem .badEscape (rest.length + 2))
    | c :: rest =>
      if c.toNat ≤ 0x1F then .error (.problem .controlCharacter (rest.length + 1))
      else scanString inside budget (c :: read) rest

/-- Reads a string after its opening quote. -/
def readString (budget : Nat) (cs : List Char) : Except Stop (String × List Char) := do
  let (read, rest) ← scanString cs budget [] cs
  return (String.ofList read.reverse, rest)

/-! ### Numbers -/

/-- The whole part of a number: a zero, or digits that do not begin with one. -/
def wholePart? : List Char → Option (List Char × List Char)
  | '0' :: rest => some (['0'], rest)
  | cs =>
    let (digits, rest) := cs.span Text.isAsciiDigit
    if digits.isEmpty then none else some (digits, rest)

/-- The digits after a point, if there are any. -/
def fractionPart : List Char → List Char × List Char
  | '.' :: rest =>
    let (digits, after) := rest.span Text.isAsciiDigit
    if digits.isEmpty then ([], '.' :: rest) else (digits, after)
  | rest => ([], rest)

/-- The exponent, if there is one with digits. -/
def exponentPart (cs : List Char) : Option Int × List Char :=
  match cs with
  | e :: rest =>
    if e == 'e' || e == 'E' then
      let (negative, unsigned) := Numeral.sign rest
      let (digits, after) := unsigned.span Text.isAsciiDigit
      if digits.isEmpty then (none, cs)
      else
        let value : Int := Text.natOfDigits digits
        (some (if negative then -value else value), after)
    else (none, cs)
  | [] => (none, [])

/-- Reads a number at the beginning of a text. -/
def scanNumber (cs : List Char) : Except Stop (Value × List Char) :=
  let (negative, unsigned) :=
    match cs with
    | '-' :: rest => (true, rest)
    | rest => (false, rest)
  match wholePart? unsigned with
  | none => .error (.problem .value cs.length)
  | some (whole, rest) =>
    let (fraction, rest) := fractionPart rest
    let (exponent, rest) := exponentPart rest
    if fraction.isEmpty && exponent.isNone then
      if integerDigitLimit < whole.length then .error .longInteger
      else
        let value : Int := Text.natOfDigits whole
        .ok (.int (if negative then -value else value), rest)
    else
      let digits := Text.natOfDigits (whole ++ fraction)
      .ok (.float (Double.ofDecimal negative digits (exponent.getD 0 - fraction.length)), rest)

/-! ### Values -/

/-- The words that stand for values. -/
def words : List (String × Value) :=
  [("null", .null), ("true", .bool true), ("false", .bool false),
    ("NaN", .float (0.0 / 0.0)), ("Infinity", .float (1.0 / 0.0)),
    ("-Infinity", .float (-1.0 / 0.0))]

/-- The word at the beginning of a text, and what follows it. -/
def readWord? (cs : List Char) : Option (Value × List Char) :=
  words.findSome? fun (word, value) => (Text.afterText? word.toList cs).map fun rest => (value, rest)

mutual

/-- Reads a value at the beginning of a text; `depth` more arrays and objects may be opened. -/
def readValue : (budget depth : Nat) → List Char → Except Stop (Value × List Char)
  | 0, _, cs => .error (.problem .value cs.length)
  | budget + 1, depth, cs =>
    match cs, depth with
    | [], _ => .error (.problem .value 0)
    | '"' :: rest, _ => do
      let (s, rest) ← readString budget rest
      return (.str s, rest)
    | '[' :: _, 0 | '\x7b' :: _, 0 => .error .deepNesting
    | '[' :: rest, depth + 1 =>
      match skipSpace rest with
      | ']' :: after => .ok (.list [], after)
      | inside => do
        let (items, rest) ← readItems budget depth inside
        return (.list items, rest)
    | '\x7b' :: rest, depth + 1 =>
      match skipSpace rest with
      | '\x7d' :: after => .ok (.object [], after)
      | inside => do
        let (pairs, rest) ← readMembers budget depth inside
        return (.object (Keyed.ofList pairs), rest)
    | cs, _ =>
      match readWord? cs with
      | some found => .ok found
      | none => scanNumber cs

/-- Reads the items of an array up to its end. -/
def readItems : (budget depth : Nat) → List Char → Except Stop (List Value × List Char)
  | 0, _, cs => .error (.problem .value cs.length)
  | budget + 1, depth, cs => do
    let (v, rest) ← readValue budget depth cs
    match skipSpace rest with
    | ']' :: after => return ([v], after)
    | ',' :: more =>
      let (items, rest) ← readItems budget depth (skipSpace more)
      return (v :: items, rest)
    | other => throw (.problem .comma other.length)

/-- Reads the members of an object up to its end. -/
def readMembers : (budget depth : Nat) → List Char →
    Except Stop (List (String × Value) × List Char)
  | 0, _, cs => .error (.problem .propertyName cs.length)
  | budget + 1, depth, cs =>
    match cs with
    | '"' :: inside => do
      let (key, rest) ← readString budget inside
      match skipSpace rest with
      | ':' :: rest =>
        let (v, rest) ← readValue budget depth (skipSpace rest)
        match skipSpace rest with
        | '\x7d' :: after => return ([(key, v)], after)
        | ',' :: more =>
          let (members, rest) ← readMembers budget depth (skipSpace more)
          return ((key, v) :: members, rest)
        | other => throw (.problem .comma other.length)
      | other => throw (.problem .colon other.length)
    | other => .error (.problem .propertyName other.length)

end

/-- Why a text is not read. -/
inductive Refusal
  | notJson (fault : JsonFault)
  | longInteger
  | deepNesting
deriving Repr, DecidableEq

/-- A stop with its place in the whole text. -/
def Stop.refusal (text : List Char) : Stop → Refusal
  | problem p left => .notJson (JsonFault.at p text (text.length - left))
  | longInteger => .longInteger
  | deepNesting => .deepNesting

/-- Reads one value that fills a text. -/
def read (cs : List Char) : Except Stop Value :=
  match cs with
  | '\ufeff' :: _ => .error (.problem .byteOrderMark cs.length)
  | _ => do
    let (v, rest) ← readValue (2 * cs.length + 1) maxDepth (skipSpace cs)
    match skipSpace rest with
    | [] => return v
    | extra => throw (.problem .extraData extra.length)

/-- Reads the JSON text of one value. -/
def parse (text : String) : Except Refusal Value :=
  let cs := text.toList
  match read cs with
  | .ok v => .ok v
  | .error stop => .error (stop.refusal cs)

end Patchbay.Json
