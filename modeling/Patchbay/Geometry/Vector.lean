import Patchbay.Fault

/-!
# Points and vectors

Locations and directions in space, with doubles as coordinates. Sums of products are taken from
left to right; nothing fails on overflow.

* `Point`, `Vector` — the two records
* `Vector.unitized` — the vector of length one in the same direction
* `Vector.perpendicular` — a fixed choice of a unit vector at a right angle
-/

namespace Patchbay

/-- A location in space. -/
structure Point where
  x : Float
  y : Float
  z : Float
deriving Repr, DecidableEq

/-- A direction and a magnitude in space. -/
structure Vector where
  x : Float
  y : Float
  z : Float
deriving Repr, DecidableEq

/-- Vectors up to this length count as zero. -/
def zeroTolerance : Float := Double.ofDecimal false 1 (-12)

namespace Vector

def xAxis : Vector := ⟨1, 0, 0⟩

def yAxis : Vector := ⟨0, 1, 0⟩

def zAxis : Vector := ⟨0, 0, 1⟩

def add (a b : Vector) : Vector := ⟨a.x + b.x, a.y + b.y, a.z + b.z⟩

def neg (a : Vector) : Vector := ⟨-a.x, -a.y, -a.z⟩

def scale (a : Vector) (factor : Float) : Vector := ⟨a.x * factor, a.y * factor, a.z * factor⟩

def dot (a b : Vector) : Float := a.x * b.x + a.y * b.y + a.z * b.z

def cross (a b : Vector) : Vector :=
  ⟨a.y * b.z - a.z * b.y, a.z * b.x - a.x * b.z, a.x * b.y - a.y * b.x⟩

def length (a : Vector) : Float := (a.dot a).sqrt

/-- Whether the vector counts as zero. An undefined length does not. -/
def isZero (a : Vector) : Bool := a.length <= zeroTolerance

/-- The vector of length one in the same direction. -/
def unitized (a : Vector) : Except Fault Vector :=
  if a.isZero then .error .zeroLength
  else
    let n := a.length
    .ok ⟨a.x / n, a.y / n, a.z / n⟩

/-- The world axis that a vector is least aligned with: the first smallest magnitude among its
coordinates, where an undefined one counts as smallest. -/
def leastAxis (a : Vector) : Vector :=
  let x := a.x.abs
  let y := a.y.abs
  let z := a.z.abs
  if x.isNaN then xAxis
  else if y.isNaN then yAxis
  else if z.isNaN then zAxis
  else if y < x then (if z < y then zAxis else yAxis)
  else if z < x then zAxis
  else xAxis

/-- A unit vector at a right angle to this one, determined by it alone. -/
def perpendicular (a : Vector) : Except Fault Vector :=
  if a.isZero then .error .noPerpendicular else (a.cross a.leastAxis).unitized

end Vector

namespace Point

def origin : Point := ⟨0, 0, 0⟩

/-- The point reached from `p` along `v`. -/
def move (p : Point) (v : Vector) : Point := ⟨p.x + v.x, p.y + v.y, p.z + v.z⟩

/-- The point from which `v` leads to `p`. -/
def moveBack (p : Point) (v : Vector) : Point := ⟨p.x - v.x, p.y - v.y, p.z - v.z⟩

/-- The vector from `q` to `p`. -/
def sub (p q : Point) : Vector := ⟨p.x - q.x, p.y - q.y, p.z - q.z⟩

def distanceTo (p q : Point) : Float := (p.sub q).length

end Point

end Patchbay
