import Patchbay.Decimal.Double

/-!
# Decimal digits of a double

Two ways to choose the digits that stand for a finite double, and one layout for both.

* `Double.shortest` — the fewest digits that read back as the same double
* `Double.significant` — a fixed number of digits, correctly rounded
* `Double.Style` — the choices of a written form: where the exponent notation begins, whether a
  whole number keeps its point, how zero, infinity and the undefined value look
* `Double.text` — the text of a double in a style

## Design decisions

* The search for the fewest digits tries grids of 1, 2, … 17 digits. On each grid only the two
  neighbours of the value can read back as it, so testing these two is enough.
* A candidate is tested by reading it back with `Double.decimalBits`. That the result reads back
  is therefore how it is found, not a property of an estimate.
-/

namespace Patchbay.Double

open scoped Powers

/-- Digits `d` of the number `d · 10^scale`. -/
structure Digits where
  digits : Nat
  scale : Int
deriving Repr, DecidableEq

/-- The exponent of the leading decimal digit of `num / den`. The factor, a power of ten, keeps the
quotient of every finite double above zero. -/
def leadingExponent (num den : Nat) : Int :=
  (Text.digitCount (100 ^ (200 : Nat) * num / den) : Int) - 401

/-- `num / den` in units of `10^scale`. -/
def onGrid (num den : Nat) (scale : Int) : Nat × Nat :=
  if 0 ≤ scale then (num, den * 10 ^ scale.toNat) else (num * 10 ^ (-scale).toNat, den)

/-- The neighbour of `num / den` on the grid of `10^scale` that reads back as `bits`; of two the
nearer, and of two equally near the even one. -/
def neighbour? (num den bits : Nat) (scale : Int) : Option Digits :=
  let (a, b) := onGrid num den scale
  let low := a / b
  let lowFits := decimalBits low scale == bits
  let highFits := decimalBits (low + 1) scale == bits
  if lowFits && highFits then
    let twice := 2 * (a % b)
    if twice < b then some ⟨low, scale⟩
    else if b < twice then some ⟨low + 1, scale⟩
    else some ⟨low + low % 2, scale⟩
  else if lowFits then some ⟨low, scale⟩
  else if highFits then some ⟨low + 1, scale⟩
  else none

/-- `num / den` with a fixed number of digits, correctly rounded. -/
def rounded (num den : Nat) (places : Nat) : Digits :=
  let scale := leadingExponent num den - places + 1
  let (a, b) := onGrid num den scale
  ⟨roundHalfEven a b, scale⟩

/-- The fewest digits that read back as the double whose magnitude is `num / den` with the given
bits. Seventeen digits always do. -/
def shortestOf (num den bits : Nat) : Digits :=
  let top := leadingExponent num den
  match (List.range 17).findSome? fun k : Nat => neighbour? num den bits (top - k) with
  | some found => found
  | none => rounded num den 17

/-- The fewest digits that read back as the magnitude of a finite double. -/
def shortest (x : Float) : Digits :=
  let (num, den) := (parts x).ratio
  shortestOf num den (x.toBits.toNat % 2 ^ (63 : Nat))

/-- The magnitude of a finite double with a fixed number of digits. -/
def significant (places : Nat) (x : Float) : Digits :=
  let (num, den) := (parts x).ratio
  rounded num den places

/-! ### Layout -/

/-- How a double is written. -/
structure Style where
  /-- The digits to show; nothing stands for the fewest that read back. -/
  places : Option Nat
  /-- Leading exponents from here on … -/
  positionalFrom : Int
  /-- … and below this one are written without an exponent. -/
  positionalBelow : Int
  /-- Whether a whole number without exponent ends in `.0`. -/
  keepsPoint : Bool
  /-- Whether negative zero shows its sign. -/
  signsZero : Bool
  nan : String
  infinity : String
deriving Repr

/-- The full text of a double: as many digits as it takes, always recognisable as no integer. -/
def full : Style := ⟨none, -4, 16, true, true, "nan", "inf"⟩

/-- The text of a double in a document. -/
def inJson : Style := ⟨none, -4, 16, true, true, "NaN", "Infinity"⟩

/-- The display text of a double: six digits at most. -/
def display : Style := ⟨some 6, -4, 6, false, true, "nan", "inf"⟩

/-- The text of a double in a token: whole numbers look like integers, and zero has no sign. -/
def inToken : Style := ⟨none, -4, 16, false, false, "nan", "inf"⟩

/-- A decimal exponent: a sign and at least two digits. -/
def exponentText (e : Int) : List Char :=
  let digits := Text.digitsOfNat e.natAbs
  (if e < 0 then '-' else '+') :: (if digits.length < 2 then '0' :: digits else digits)

/-- Lays out the digits of a positive number whose leading digit has exponent `top`. -/
def layOut (style : Style) (digits : List Char) (top : Int) : List Char :=
  if style.positionalFrom ≤ top && top < style.positionalBelow then
    if top < 0 then
      '0' :: '.' :: (List.replicate (-top - 1).toNat '0' ++ digits)
    else
      let whole := top.toNat + 1
      if digits.length ≤ whole then
        digits ++ List.replicate (whole - digits.length) '0'
          ++ (if style.keepsPoint then ['.', '0'] else [])
      else digits.take whole ++ '.' :: digits.drop whole
  else
    match digits with
    | [] => []
    | [d] => d :: 'e' :: exponentText top
    | d :: more => d :: '.' :: (more ++ 'e' :: exponentText top)

/-- The digits of a number without the zeros at their end, and the exponent of the first. -/
def Digits.significand (d : Digits) : List Char × Int :=
  let all := Text.digitsOfNat d.digits
  ((all.reverse.dropWhile (· == '0')).reverse, d.scale + all.length - 1)

/-- The text of a double in a style. -/
def text (style : Style) (x : Float) : String :=
  if x.isNaN then style.nan
  else
    let p := parts x
    if !isFinite x then
      if p.negative then "-" ++ style.infinity else style.infinity
    else if p.mantissa = 0 then
      let zero := if style.keepsPoint then "0.0" else "0"
      if p.negative && style.signsZero then "-" ++ zero else zero
    else
      let chosen :=
        match style.places with
        | none => shortest x
        | some places => significant places x
      let (digits, top) := chosen.significand
      let body := layOut style digits top
      String.ofList (if p.negative then '-' :: body else body)

end Patchbay.Double
