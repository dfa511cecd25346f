import Patchbay.Text.Quoted
import Patchbay.Value.Text

/-!
# Conversions of message arguments

How an argument of a message is written: by a conversion, which is a letter, and a format.

* `FieldFormat` — sign, width, number of digits, and the side to fill
* `FieldFormat.convert` — an argument under a conversion

| Letters | Argument |
| --- | --- |
| `s` `r` `a` | any value: its text, as messages cite it, the same in ASCII |
| `d` `i` `u` | a number, rounded toward zero |
| `o` `x` `X` | an integer, in base eight or sixteen |
| `e` `f` `g` `E` `F` `G` | a number: with an exponent, with fixed places, whichever suits |
| `c` | a character or its code point |

## Design decisions

* A conversion makes a sign, a mark of the base and a body. The format alone decides how they fill
  the width.
* Zeros fill numbers only, between the mark and the body.
-/

namespace Patchbay

open scoped Powers

/-- How an argument is laid out. -/
structure FieldFormat where
  /-- Whether blanks are filled in on the right. -/
  left : Bool
  /-- Whether a number that is not negative shows a plus sign. -/
  plus : Bool
  /-- Whether it shows a blank instead. -/
  blank : Bool
  /-- Whether the base is marked, and the point kept. -/
  marked : Bool
  /-- Whether numbers are filled up with zeros. -/
  zeros : Bool
  width : Nat
  /-- The number of digits, places or characters. -/
  precision : Option Nat
deriving Repr, DecidableEq

/-- A converted argument. -/
structure Converted where
  sign : List Char
  mark : List Char
  body : List Char
  numeric : Bool
deriving Repr, DecidableEq

namespace FieldFormat

/-- The longest width that is filled. -/
def maxLength : Nat := 2 ^ (40 : Nat)

/-- No choices. -/
def plain : FieldFormat := ⟨false, false, false, false, false, 0, none⟩

/-- Fills a converted argument up to the width. -/
def fill (f : FieldFormat) (t : Converted) : List Char :=
  let lead := t.sign ++ t.mark
  let room := f.width - (lead.length + t.body.length)
  if f.left then lead ++ t.body ++ List.replicate room ' '
  else if f.zeros && t.numeric then lead ++ List.replicate room '0' ++ t.body
  else List.replicate room ' ' ++ lead ++ t.body

/-- The sign of a number. -/
def sign (f : FieldFormat) (negative : Bool) : List Char :=
  if negative then ['-'] else if f.plus then ['+'] else if f.blank then [' '] else []

/-! ### Texts -/

/-- A text, cut to the precision. -/
def words (f : FieldFormat) (s : String) : Converted :=
  let cs := s.toList
  ⟨[], [], match f.precision with | some n => cs.take n | none => cs, false⟩

/-- A text in ASCII: all other characters are escaped. -/
def ascii (s : String) : String :=
  String.ofList (s.toList.flatMap fun c => if c.toNat < 128 then [c] else Text.escapeHidden c)

/-- The character that a value is or has as its code point. -/
def character (v : Value) : Except Fault Char :=
  match v with
  | .int i => if 0 ≤ i && i < 0x110000 then .ok (Char.ofNat i.toNat) else .error .outOfRange
  | .bool b => .ok (Char.ofNat b.toNat)
  | .str s =>
    match s.toList with
    | [c] => .ok c
    | _ => .error .wrongKind
  | _ => .error .wrongKind

/-! ### Integers -/

/-- The integer that a value is. -/
def integer : Value → Except Fault Int
  | .int i => .ok i
  | .bool b => .ok b.toNat
  | _ => .error .wrongKind

/-- The integer next to a fraction, toward zero. -/
def truncated (negative : Bool) (num den : Nat) : Int :=
  let magnitude : Int := (num / den : Nat)
  if negative then -magnitude else magnitude

/-- The integer next to a number, toward zero. -/
def wholeNumber : Value → Except Fault Int
  | .float x =>
    if x.isNaN then .error .unreadable
    else if !Double.isFinite x then .error .outOfRange
    else
      let p := Double.parts x
      .ok (truncated p.negative p.ratio.1 p.ratio.2)
  | .decimal (.finite negative c e) =>
    .ok (truncated negative (Double.decimalRatio c e).1 (Double.decimalRatio c e).2)
  | .decimal (.infinite _) => .error .outOfRange
  | .decimal (.nan ..) => .error .unreadable
  | v => integer v

/-- An integer, unless so many digits are asked for that they cannot be counted. -/
def counted (f : FieldFormat) (i : Int) : Except Fault Int :=
  if 2 ^ (31 : Nat) - 4 < f.precision.getD 0 then .error .outOfRange else .ok i

/-- An integer that is written in base ten, which is not done for very long ones. -/
def countedTen (f : FieldFormat) (i : Int) : Except Fault Int := do
  let i ← f.counted i
  if 10 ^ integerDigitLimit ≤ i.natAbs then throw .unreadable
  return i

/-- The digits of a number, at least as many as the precision. -/
def digits (f : FieldFormat) (base n : Nat) : List Char :=
  let digits := Nat.toDigits base n
  List.replicate (f.precision.getD 0 - digits.length) '0' ++ digits

/-- An integer in a base. -/
def inBase (f : FieldFormat) (base : Nat) (mark : List Char) (i : Int) : Converted :=
  ⟨f.sign (i < 0), if f.marked then mark else [], f.digits base i.natAbs, true⟩

/-! ### Doubles -/

/-- The double that a number stands for; texts are no numbers. -/
def realNumber : Value → Except Fault Float
  | .str _ => .error .wrongKind
  | v => v.toFloat

/-- A whole part and a fraction with the point between them, if there is a fraction or the point
is kept. -/
def pointed (f : FieldFormat) (whole fraction : List Char) : List Char :=
  if fraction.isEmpty && !f.marked then whole else whole ++ '.' :: fraction

/-- `num / den` with a number of places after the point. -/
def fixed (f : FieldFormat) (places num den : Nat) : List Char :=
  let digits := Text.digitsOfNat (Double.roundHalfEven (num * 10 ^ places) den)
  let padded := List.replicate (places + 1 - digits.length) '0' ++ digits
  f.pointed (padded.take (padded.length - places)) (padded.drop (padded.length - places))

/-- A number of digits of `num / den`, correctly rounded, and the exponent of the first. -/
def leadingDigits (places num den : Nat) : List Char × Int :=
  if num = 0 then (List.replicate places '0', 0)
  else
    let d := Double.rounded num den places
    let digits := Text.digitsOfNat d.digits
    (digits.take places, d.scale + digits.length - 1)

/-- Digits with an exponent. -/
def withExponent (f : FieldFormat) (digits : List Char) (top : Int) : List Char :=
  f.pointed (digits.take 1) (digits.drop 1) ++ 'e' :: Double.exponentText top

/-- `num / den` with a number of digits, without an exponent where that is short. -/
def general (f : FieldFormat) (places num den : Nat) : List Char :=
  let (digits, top) := leadingDigits places num den
  let digits := if f.marked then digits else (digits.reverse.dropWhile (· == '0')).reverse
  if top < -4 || places ≤ top then
    f.withExponent digits top
  else if top < 0 then f.pointed ['0'] (List.replicate (-top - 1).toNat '0' ++ digits)
  else
    let whole := top.toNat + 1
    f.pointed (digits.take whole ++ List.replicate (whole - digits.length) '0') (digits.drop whole)

/-- The magnitude of a double under one of the letters `e`, `f` and `g`. -/
def magnitude (f : FieldFormat) (letter : Char) (x : Float) : List Char :=
  if x.isNaN then "nan".toList
  else if !Double.isFinite x then "inf".toList
  else
    let (num, den) := (Double.parts x).ratio
    let places := f.precision.getD 6
    match letter with
    | 'f' => f.fixed places num den
    | 'e' =>
      let (digits, top) := leadingDigits (places + 1) num den
      f.withExponent digits top
    | _ => f.general (max places 1) num den

/-- A double under one of the letters `e`, `f` and `g`, or a capital of these. -/
def double (f : FieldFormat) (letter : Char) (x : Float) : Converted :=
  let body := f.magnitude letter.toLower x
  let negative := !x.isNaN && (Double.parts x).negative
  ⟨f.sign negative, [], if letter.isUpper then body.map Char.toUpper else body, true⟩

/-! ### Conversions -/

/-- An argument under a conversion. -/
def convert (f : FieldFormat) (letter : Char) (v : Value) : Except Fault Converted :=
  match letter with
  | 's' => .ok (f.words v.text)
  | 'r' => .ok (f.words v.shown)
  | 'a' => .ok (f.words (ascii v.shown))
  | 'c' => (character v).map fun c => ⟨[], [], [c], false⟩
  | 'd' | 'i' | 'u' => do return f.inBase 10 [] (← f.countedTen (← wholeNumber v))
  | 'o' => do return f.inBase 8 ['0', 'o'] (← f.counted (← integer v))
  | 'x' => do return f.inBase 16 ['0', 'x'] (← f.counted (← integer v))
  | 'X' => do
    let t := f.inBase 16 ['0', 'X'] (← f.counted (← integer v))
    return { t with body := t.body.map Char.toUpper }
  | 'e' | 'f' | 'g' | 'E' | 'F' | 'G' => (realNumber v).map (f.double letter)
  | _ => .error .unreadable

end FieldFormat

end Patchbay
