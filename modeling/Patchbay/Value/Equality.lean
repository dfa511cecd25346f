import Patchbay.Value.Basic

/-!
# Equality of values

Equality as expressions have it. It looks at what values stand for, not at how they are held.

* `Value.number?` — the number that a value stands for, without rounding
* `Value.sameAs` — whether two values are equal

## Design decisions

* Numbers of different kinds are equal if they are the same number; truth values are numbers. An
  undefined number equals nothing.
* Lists are equal item by item. Objects are equal if they have the same keys with equal values,
  whatever their order.
* Spots and rectangles of the canvas are equal up to rounding: what is smaller than a part in 10¹²
  makes no difference.
* Values known by name only equal nothing.
-/

namespace Patchbay

open scoped Powers

/-- A double as a decimal, without rounding. -/
def Decimal.ofDouble (x : Float) : Decimal :=
  if x.isNaN then .nan false false 0
  else if !Double.isFinite x then .infinite (x < 0)
  else
    let p := Double.parts x
    if 0 ≤ p.exponent then .finite p.negative (p.mantissa * 2 ^ p.exponent.toNat) 0
    else .finite p.negative (p.mantissa * 5 ^ (-p.exponent).toNat) p.exponent

/-- Whether two decimals are the same number. -/
def Decimal.sameAs : Decimal → Decimal → Bool
  | infinite a, infinite b => a == b
  | a, b => compare? a b == some .eq

namespace Value

/-- The number that a value stands for; texts stand for none. -/
def number? : Value → Option Decimal
  | bool b => some (.ofInt b.toNat)
  | int i => some (.ofInt i)
  | float x => some (.ofDouble x)
  | decimal d => some d
  | _ => none

/-- Whether two coordinates of the canvas are the same up to rounding. Near zero the difference
counts itself, elsewhere what part of the coordinates it is. -/
def sameCoordinate (a b : Float) : Bool :=
  let distance := (a - b).abs
  if a == 0.0 || b == 0.0 then distance ≤ 1e-12
  else distance * 1e12 ≤ a.abs && distance * 1e12 ≤ b.abs

/-- Equality of values that are no containers. -/
def sameLeaf (a b : Value) : Bool :=
  match a, b with
  | null, null => true
  | str s, str t => s == t
  | shape s, shape t => s.sameAs t
  | color c, color d => c == d
  | spot x y, spot u v => sameCoordinate x u && sameCoordinate y v
  | region x y width height, region u v w h =>
    sameCoordinate x u && sameCoordinate y v && sameCoordinate width w && sameCoordinate height h
  | path p, path q => p == q
  | item i, item j => i == j
  | access a, access b => a == b
  | mapping m, mapping n => m == n
  | rounding r, rounding s => r == s
  | a, b =>
    match a.number?, b.number? with
    | some c, some d => c.sameAs d
    | _, _ => false

mutual

/-- Whether two values are equal. -/
def sameAs : Value → Value → Bool
  | list items, b =>
    match b with
    | list others => sameItems items others
    | _ => false
  | object entries, b =>
    match b with
    | object others => entries.length == others.length && sameEntries entries others
    | tree [] => entries.isEmpty
    | _ => false
  | tree branches, b =>
    match b with
    | tree others => branches.length == others.length && sameBranches branches others
    | object [] => branches.isEmpty
    | _ => false
  | a, b => sameLeaf a b

/-- Whether two lists are equal item by item. -/
def sameItems : List Value → List Value → Bool
  | [], [] => true
  | v :: rest, w :: others => sameAs v w && sameItems rest others
  | _, _ => false

/-- Whether every entry is among others with an equal value. -/
def sameEntries : List (String × Value) → List (String × Value) → Bool
  | [], _ => true
  | (key, v) :: rest, others =>
    (match others.lookup key with
      | some w => sameAs v w
      | none => false) && sameEntries rest others

/-- Whether every branch is among others with equal items. -/
def sameBranches : List (Path × List Value) → List (Path × List Value) → Bool
  | [], _ => true
  | (p, items) :: rest, others =>
    (match others.lookup p with
      | some w => sameItems items w
      | none => false) && sameBranches rest others

end

@[simp] theorem sameAs_str (s t : String) : (str s).sameAs (str t) = (s == t) := by
  simp [sameAs, sameLeaf]

end Value

end Patchbay
