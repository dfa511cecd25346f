import Patchbay.Decimal.Numeral

/-!
# Decimals

Exact decimal numbers, as sliders store them: a sign, a coefficient and a power of ten. Two numbers
of equal value with different exponents, such as `1.50` and `1.5`, are different decimals.

* `Decimal` — finite decimals, infinities and undefined values
* `Decimal.parse?`, `Decimal.toText` — the written form, which keeps every digit
* `Decimal.plainText` — the written form without an exponent
* `Decimal.compare?` — the order of the finite values
* `Decimal.quantize?` — rounding to a number of places
* `Decimal.normalize?` — rounding to the working precision, without zeros at the end
* `Decimal.toFloat?` — the nearest double

## Design decisions

* Rounded results have at most `precision` digits, and a half goes to the even neighbour.
* Orders and roundings never spell out a power of ten for a far exponent; they compare the
  exponents of the leading digits first.
-/

namespace Patchbay

open scoped Powers

/-- An exact decimal number. -/
inductive Decimal
  /-- `± coefficient · 10^exponent` -/
  | finite (negative : Bool) (coefficient : Nat) (exponent : Int)
  | infinite (negative : Bool)
  /-- An undefined value; the payload is a number attached to it, zero for none. -/
  | nan (negative signaling : Bool) (payload : Nat)
deriving Repr, DecidableEq, Inhabited

namespace Decimal

/-- The number of digits a rounded result may have. -/
def precision : Nat := 28

/-- The largest exponent of a leading digit in a rounded result. -/
def maxExponent : Int := 999999

/-- The smallest exponent of a last digit in a rounded result. -/
def minScale : Int := -maxExponent - precision + 1

/-- The largest exponent of a leading digit in a number that is read. -/
def maxReadExponent : Int := 999999999999999999

/-- The smallest exponent of a last digit in a number that is read. -/
def minReadScale : Int := -1999999999999999997

def ofInt (i : Int) : Decimal := finite (i < 0) i.natAbs 0

def isFinite : Decimal → Bool
  | finite .. => true
  | _ => false

/-- Whether the number is a finite zero. -/
def isZero : Decimal → Bool
  | finite _ c _ => c == 0
  | _ => false

/-- The exponent of the leading digit of `c · 10^e`. -/
def leading (c : Nat) (e : Int) : Int := e + Text.digitCount c - 1

/-! ### Written form -/

/-- The words for the values without digits. -/
def readSpecial? (cs : List Char) : Option Decimal :=
  let (negative, rest) := Numeral.sign cs
  if isWord "inf" rest || isWord "infinity" rest then some (infinite negative)
  else
    let lowered := rest.map Char.toLower
    let (signaling, rest) :=
      match lowered with
      | 's' :: more => (true, more)
      | other => (false, other)
    match rest with
    | 'n' :: 'a' :: 'n' :: payload =>
      if payload.all Text.isDigit then some (nan negative signaling (Text.natOfDigits payload))
      else none
    | _ => none

/-- Reads a decimal that fills the text up to blanks around it. Underscores are passed over. -/
def parse? (cs : List Char) : Option Decimal :=
  let body := (Text.trimChars cs).filter (· != '_')
  match readSpecial? body with
  | some d => some d
  | none =>
    match Numeral.parse? body with
    | none => none
    | some n =>
      let c := Text.natOfDigits n.digits
      let e := n.exponent - n.fraction
      if minReadScale ≤ e && (leading c e ≤ maxReadExponent) then some (finite n.negative c e)
      else none

/-- The sign of a written number. -/
def signText (negative : Bool) : List Char := if negative then ['-'] else []

/-- The digits of a coefficient with a point after the first `whole` of them; zeros are put in
front where the point would stand before the first digit. -/
def pointed (digits : List Char) (whole : Int) : List Char :=
  if whole ≤ 0 then '0' :: '.' :: (List.replicate (-whole).toNat '0' ++ digits)
  else if (digits.length : Int) ≤ whole then
    digits ++ List.replicate (whole.toNat - digits.length) '0'
  else digits.take whole.toNat ++ '.' :: digits.drop whole.toNat

/-- The words for the values without digits. -/
def specialText : Decimal → List Char
  | finite .. => []
  | infinite negative => signText negative ++ "Infinity".toList
  | nan negative signaling payload =>
    signText negative ++ (if signaling then "sNaN".toList else "NaN".toList)
      ++ (if payload = 0 then [] else Text.digitsOfNat payload)

/-- The exact written form. It has an exponent when the last digit stands before the units or the
leading digit more than six places after the point. -/
def toText : Decimal → String
  | finite negative c e =>
    let digits := Text.digitsOfNat c
    let top := leading c e
    let body :=
      if e ≤ 0 && -6 ≤ top then pointed digits (top + 1)
      else
        let shift := (if 0 ≤ top then '+' else '-') :: Text.digitsOfNat top.natAbs
        pointed digits 1 ++ 'E' :: shift
    String.ofList (signText negative ++ body)
  | other => String.ofList other.specialText

/-- The written form without an exponent; a zero has no digits before its units. -/
def plainText : Decimal → String
  | finite negative c e =>
    let e := if c = 0 then min e 0 else e
    String.ofList (signText negative ++ pointed (Text.digitsOfNat c) (leading c e + 1))
  | other => String.ofList other.specialText

/-! ### Order -/

/-- The order of two positive numbers. -/
def compareMagnitude (c₁ : Nat) (e₁ : Int) (c₂ : Nat) (e₂ : Int) : Ordering :=
  match compare (leading c₁ e₁) (leading c₂ e₂) with
  | .eq =>
    let low := min e₁ e₂
    compare (c₁ * 10 ^ (e₁ - low).toNat) (c₂ * 10 ^ (e₂ - low).toNat)
  | other => other

/-- The order of two finite decimals by value; values that are not finite have none here. -/
def compare? : Decimal → Decimal → Option Ordering
  | finite n₁ c₁ e₁, finite n₂ c₂ e₂ =>
    some <|
      if c₁ = 0 then
        if c₂ = 0 then .eq else if n₂ then .gt else .lt
      else if c₂ = 0 then (if n₁ then .lt else .gt)
      else
        match n₁, n₂ with
        | false, true => .gt
        | true, false => .lt
        | false, false => compareMagnitude c₁ e₁ c₂ e₂
        | true, true => compareMagnitude c₂ e₂ c₁ e₁
  | _, _ => none

/-- `a` is smaller than `b`. -/
def lt (a b : Decimal) : Bool := compare? a b == some .lt

/-- The larger of two decimals; the left one when they are equal. -/
def larger (a b : Decimal) : Decimal := if lt a b then b else a

/-- The smaller of two decimals; the left one when they are equal. -/
def smaller (a b : Decimal) : Decimal := if lt b a then b else a

/-! ### Rounding -/

/-- `c · 10^e` in units of `10^scale`, a half going to the even neighbour. -/
def rescale (c : Nat) (e scale : Int) : Nat :=
  if scale ≤ e then c * 10 ^ (e - scale).toNat
  else if leading c e < scale - 1 then 0
  else Double.roundHalfEven c (10 ^ (scale - e).toNat)

/-- The number with its last digit at `10^scale`; nothing for an infinity, a signaling undefined
value, and a result with too many digits. -/
def quantizeTo? (scale : Int) : Decimal → Option Decimal
  | finite negative c e =>
    if c = 0 then some (finite negative 0 scale)
    else if maxExponent < leading c e || (precision : Int) < leading c e - scale + 1 then none
    else
      let rounded := rescale c e scale
      if precision < Text.digitCount rounded || maxExponent < leading rounded scale then none
      else some (finite negative rounded scale)
  | infinite _ => none
  | nan negative signaling payload =>
    if signaling then none else some (nan negative signaling payload)

/-- Exponents that a quantum may be given with. -/
def maxShift : Nat := 2 * (999999 + 28)

/-- The number with `places` digits after the point. The inner result is nothing when the number
cannot be written so, the outer one when no number can. -/
def quantize? (places : Nat) (d : Decimal) : Option (Option Decimal) :=
  if maxShift < places then none
  else some (quantizeTo? (max (-(places : Int)) minScale) d)

/-- Takes zeros from the end of a coefficient, at most `fuel` of them. -/
def stripZeros (fuel : Nat) (c : Nat) (e : Int) : Nat × Int :=
  match fuel with
  | 0 => (c, e)
  | fuel + 1 => if c % 10 = 0 then stripZeros fuel (c / 10) (e + 1) else (c, e)

/-- The number rounded to the working precision, without zeros at its end; nothing for a result
beyond the largest exponent and for a signaling undefined value. -/
def normalize? : Decimal → Option Decimal
  | finite negative c e =>
    if c = 0 then some (finite negative 0 0)
    else
      let scale := max (max e (leading c e - precision + 1)) minScale
      let rounded := rescale c e scale
      if maxExponent < leading rounded scale then none
      else if rounded = 0 then some (finite negative 0 0)
      else
        let (c, e) := stripZeros (Text.digitCount rounded) rounded scale
        some (finite negative c e)
  | infinite negative => some (infinite negative)
  | nan negative signaling payload =>
    if signaling then none else some (nan negative signaling payload)

/-! ### Doubles -/

/-- The nearest double; nothing for a signaling undefined value. -/
def toFloat? : Decimal → Option Float
  | finite negative c e => some (Double.ofDecimal negative c e)
  | infinite negative => some (Double.ofMagnitude negative Double.infinityBits)
  | nan _ signaling _ => if signaling then none else some (0.0 / 0.0)

end Decimal

end Patchbay
