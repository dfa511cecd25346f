import Patchbay.Text.Digit

/-!
# Doubles and exact fractions

A finite double is a fraction of natural numbers, and every fraction has a nearest double. Both
directions are exact arithmetic on natural numbers, so that what is written and what is read can
be compared without a rounding in between.

* `Double.Parts`, `Double.parts` — sign, mantissa and binary exponent of a finite double
* `Double.magnitudeBits` — the bits of the double nearest to a fraction, half-way cases to the
  even neighbour
* `Double.ofDecimal` — the double nearest to `m · 10^e`
* `Double.ofInt?` — the double nearest to an integer, if there is a finite one
-/

namespace Patchbay.Double

open scoped Powers

/-- A finite double is `± mantissa · 2^exponent`. -/
structure Parts where
  negative : Bool
  mantissa : Nat
  exponent : Int
deriving Repr, DecidableEq

/-- Sign, mantissa and exponent of a finite double, as its bits give them. -/
def parts (x : Float) : Parts :=
  let bits := x.toBits.toNat
  let biased : Nat := bits / 2 ^ (52 : Nat) % 2 ^ (11 : Nat)
  let fraction : Nat := bits % 2 ^ (52 : Nat)
  let negative := bits / 2 ^ (63 : Nat) == 1
  if biased = 0 then ⟨negative, fraction, -1074⟩
  else ⟨negative, fraction + 2 ^ (52 : Nat), Int.ofNat biased - 1075⟩

/-- The magnitude of a finite double as numerator and denominator. -/
def Parts.ratio (p : Parts) : Nat × Nat :=
  if 0 ≤ p.exponent then (p.mantissa * 2 ^ p.exponent.toNat, 1)
  else (p.mantissa, 2 ^ (-p.exponent).toNat)

/-- `num / den` rounded to a natural number, half-way cases to the even one. -/
def roundHalfEven (num den : Nat) : Nat :=
  let quotient := num / den
  let twice := 2 * (num % den)
  if twice < den then quotient
  else if den < twice then quotient + 1
  else quotient + quotient % 2

/-- `m · 10^e` as numerator and denominator. -/
def decimalRatio (m : Nat) (e : Int) : Nat × Nat :=
  if 0 ≤ e then (m * 10 ^ e.toNat, 1) else (m, 10 ^ (-e).toNat)

/-- The bits of positive infinity. -/
def infinityBits : Nat := 0x7FF * 2 ^ (52 : Nat)

/-- The bits of the double nearest to `num / den`, half-way cases to the even mantissa; fractions
beyond the finite doubles give the bits of infinity. -/
def magnitudeBits (num den : Nat) : Nat :=
  if num = 0 then 0
  else
    let guess : Int := (num.log2 : Int) - den.log2
    let reaches :=
      if 0 ≤ guess then den * 2 ^ guess.toNat ≤ num else den ≤ num * 2 ^ (-guess).toNat
    let top := if reaches then guess else guess - 1
    let exponent := max (top - 52) (-1074)
    let mantissa :=
      if 0 ≤ exponent then roundHalfEven num (den * 2 ^ exponent.toNat)
      else roundHalfEven (num * 2 ^ (-exponent).toNat) den
    let bits :=
      if mantissa < 2 ^ (52 : Nat) then mantissa
      else (exponent + 1075).toNat * 2 ^ (52 : Nat) + (mantissa - 2 ^ (52 : Nat))
    min bits infinityBits

/-- The double with the given sign and the bits of its magnitude. -/
def ofMagnitude (negative : Bool) (bits : Nat) : Float :=
  Float.ofBits (UInt64.ofNat (if negative then bits + 2 ^ (63 : Nat) else bits))

/-- The bits of the magnitude nearest to `m · 10^e`. Exponents far outside the doubles are decided
by the number of digits alone. -/
def decimalBits (m : Nat) (e : Int) : Nat :=
  if m = 0 then 0
  else
    let digits : Int := Text.digitCount m
    if 310 < digits + e then infinityBits
    else if digits + e < -330 then 0
    else
      let (num, den) := decimalRatio m e
      magnitudeBits num den

/-- The double nearest to `± m · 10^e`. -/
def ofDecimal (negative : Bool) (m : Nat) (e : Int) : Float :=
  ofMagnitude negative (decimalBits m e)

/-- The double nearest to an integer; nothing when it lies beyond the finite doubles. -/
def ofInt? (i : Int) : Option Float :=
  let bits := magnitudeBits i.natAbs 1
  if bits = infinityBits then none else some (ofMagnitude (i < 0) bits)

/-- The double nearest to a natural number. -/
def ofNat (n : Nat) : Float := ofMagnitude false (magnitudeBits n 1)

/-- Whether a double is neither infinite nor undefined. -/
def isFinite (x : Float) : Bool := x.toBits.toNat / 2 ^ (52 : Nat) % 2 ^ (11 : Nat) != 0x7FF

@[simp] theorem magnitudeBits_zero (den : Nat) : magnitudeBits 0 den = 0 := rfl

end Patchbay.Double
