import Patchbay.Value.Basic

/-!
# Algebra of geometric records

The operations that apply to several kinds of records, chosen by the records they are given.

* `Shape.add?`, `Shape.sub?` — sums and differences of points and vectors
* `Shape.length?` — the length of a vector, a line, an arc or an interval
* `Value.closeTo` — equality of all numbers up to a tolerance
-/

namespace Patchbay

namespace Shape

/-- A point moved by a vector, or the sum of two vectors. -/
def add? : Shape → Shape → Except Fault Shape
  | point p, vector v => .ok (point (p.move v))
  | vector a, vector b => .ok (vector (a.add b))
  | _, _ => .error .wrongKind

/-- The vector between two points, or a point moved back by a vector. -/
def sub? : Shape → Shape → Except Fault Shape
  | point p, point q => .ok (vector (p.sub q))
  | point p, vector v => .ok (point (p.moveBack v))
  | _, _ => .error .wrongKind

/-- The length of a record that has one. -/
def length? : Shape → Except Fault Float
  | vector v => .ok v.length
  | line l => .ok l.length
  | arc a => .ok a.length
  | interval i => .ok i.length
  | _ => .error .noAttribute

/-- The center of a circle or an arc. -/
def center? : Shape → Except Fault Point
  | circle c => .ok c.center
  | arc a => .ok a.center
  | _ => .error .noAttribute

/-- The normal of a plane, a circle or an arc. -/
def normal? : Shape → Except Fault Vector
  | plane p => .ok p.normal
  | circle c => .ok c.normal
  | arc a => .ok a.normal
  | _ => .error .noAttribute

/-- Whether a plane or a box is valid. -/
def isValid? : Shape → Except Fault Bool
  | plane p => .ok p.isValid
  | box b => .ok b.isValid
  | _ => .error .noAttribute

end Shape

namespace Value

/-- The numbers of a value, in order: those of a record, or the number that it stands for. -/
def numbers : Value → Except Fault (List Float)
  | shape s => .ok s.coordinates
  | item i => do
    return [← toFloat (str i.name), ← toFloat (str i.expression), ← toFloat (bool i.selected)]
  | other => do return [← other.toFloat]

/-- The tolerance for equality of numbers, unless another is given. -/
def defaultTolerance : Float := Double.ofDecimal false 1 (-9)

/-- Values of the same kind whose numbers agree up to a tolerance. -/
def closeTo (tolerance : Float) (a b : Value) : Except Fault Bool :=
  if a.kind != b.kind then .ok false
  else do
    let left ← a.numbers
    let right ← b.numbers
    return left.length == right.length
      && (left.zip right).all fun (x, y) => Patchbay.closeTo tolerance x y

end Value

end Patchbay
