import Patchbay.Decimal.Basic

/-!
# Sums of decimals

* `Decimal.fitted?` — a number rounded to the working precision
* `Decimal.add?` — the sum of two decimals

## Design decisions

* A sum is exact where it fits into the working precision, and keeps the zeros at its end.
* A summand far below the last digit that counts only decides how a half is rounded, so a single
  digit stands in for it.
-/

namespace Patchbay.Decimal

open scoped Powers

/-- `± c · 10^e` rounded to the working precision, a half going to the even neighbour; nothing
beyond the largest exponent. -/
def fitted? (negative : Bool) (c : Nat) (e : Int) : Option Decimal :=
  let scale := max (max e (leading c e - precision + 1)) minScale
  let rounded := rescale c e scale
  let (rounded, scale) :=
    if precision < Text.digitCount rounded then (rounded / 10, scale + 1) else (rounded, scale)
  if rounded ≠ 0 && maxExponent < leading rounded scale then none
  else some (finite negative rounded (min scale maxExponent))

/-- A coefficient with its sign. -/
def signed (negative : Bool) (c : Nat) : Int := if negative then -(c : Int) else c

/-- A digit that stands in for a number far below the last digit of `c · 10^e` that counts; any
other number stays as it is. -/
def standIn (c : Nat) (e : Int) (small : Nat) (scale : Int) : Nat × Int :=
  let cut := e + min (-1) ((Text.digitCount c : Int) - precision - 2)
  if leading small scale < cut then (1, cut) else (small, scale)

/-- The sum of two numbers that are not zero; the exponent of the first is not the smaller one. -/
def addAligned? (n₁ : Bool) (c₁ : Nat) (e₁ : Int) (n₂ : Bool) (c₂ : Nat) (e₂ : Int) :
    Option Decimal :=
  let (c₂, e₂) := standIn c₁ e₁ c₂ e₂
  let low := min e₁ e₂
  let total := signed n₁ (c₁ * 10 ^ (e₁ - low).toNat) + signed n₂ (c₂ * 10 ^ (e₂ - low).toNat)
  fitted? (total < 0) total.natAbs low

/-- The sum of a zero with an exponent and another number. -/
def addZero? (e : Int) (negative : Bool) (c : Nat) (scale : Int) : Option Decimal :=
  let low := max (min e scale) (scale - precision - 1)
  fitted? negative (c * 10 ^ (scale - low).toNat) low

/-- The sum of two decimals. Nothing for a signaling undefined value and for infinities that cancel;
the inner result is nothing beyond the largest exponent. -/
def add? : Decimal → Decimal → Option (Option Decimal)
  | nan _ true _, _ | _, nan _ true _ => none
  | nan negative _ payload, _ => some (some (nan negative false payload))
  | _, nan negative _ payload => some (some (nan negative false payload))
  | infinite n, infinite m => if n == m then some (some (infinite n)) else none
  | infinite n, _ | _, infinite n => some (some (infinite n))
  | finite n₁ c₁ e₁, finite n₂ c₂ e₂ =>
    some <|
      if c₁ = 0 then
        if c₂ = 0 then fitted? (n₁ && n₂) 0 (min e₁ e₂) else addZero? e₁ n₂ c₂ e₂
      else if c₂ = 0 then addZero? e₂ n₁ c₁ e₁
      else if e₁ < e₂ then addAligned? n₂ c₂ e₂ n₁ c₁ e₁
      else addAligned? n₁ c₁ e₁ n₂ c₂ e₂

end Patchbay.Decimal
