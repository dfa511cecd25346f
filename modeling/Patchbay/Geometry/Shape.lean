import Patchbay.Geometry.Vector

/-!
# Shapes

The geometric records that travel as tokens: curves, frames, boxes and extents.

* `Plane` — an origin with two axes; `Plane.fromFrame` and `Plane.fromNormal` build orthonormal ones
* `Circle.fromCenterNormalStart`, `Arc.fromCenterNormal` — a curve from the data that its token keeps
* `Shape` — any of the records
* `Shape.text` — the display text
* `Shape.sameAs` — equality of all coordinates
-/

namespace Patchbay

/-- The number π. -/
def pi : Float := 3.141592653589793

/-- A straight segment. -/
structure Line where
  start : Point
  «end» : Point
deriving Repr, DecidableEq

/-- An oriented frame: an origin with two axes in the plane. -/
structure Plane where
  origin : Point
  xAxis : Vector
  yAxis : Vector
deriving Repr, DecidableEq

/-- A circle around the origin of its plane. -/
structure Circle where
  plane : Plane
  radius : Float
deriving Repr, DecidableEq

/-- An arc around the origin of its plane, between two angles in radians. -/
structure Arc where
  plane : Plane
  radius : Float
  startAngle : Float
  endAngle : Float
deriving Repr, DecidableEq

/-- A rectangle with one corner at the origin of its plane. -/
structure Rectangle where
  plane : Plane
  width : Float
  height : Float
deriving Repr, DecidableEq

/-- A box along the world axes, between two corners. -/
structure Box where
  min : Point
  max : Point
deriving Repr, DecidableEq

/-- A range of numbers, which may run backwards. -/
structure Interval where
  t0 : Float
  t1 : Float
deriving Repr, DecidableEq

/-- A width and a height. -/
structure Size where
  width : Float
  height : Float
deriving Repr, DecidableEq

namespace Line

def length (l : Line) : Float := l.start.distanceTo l.end

def direction (l : Line) : Vector := l.end.sub l.start

end Line

namespace Plane

def worldXY : Plane := ⟨.origin, .xAxis, .yAxis⟩

/-- The orthonormal plane along `xDir`, on the side of `yDir`. -/
def fromFrame (origin : Point) (xDir yDir : Vector) : Except Fault Plane := do
  let x ← xDir.unitized
  let normal := x.cross yDir
  if normal.isZero then throw .parallelAxes
  let normal ← normal.unitized
  return ⟨origin, x, normal.cross x⟩

/-- The plane through `origin` across `normal`; its first axis is determined by the normal. -/
def fromNormal (origin : Point) (normal : Vector) : Except Fault Plane := do
  let n ← normal.unitized
  let x ← n.perpendicular
  return ⟨origin, x, n.cross x⟩

/-- The unit normal, or the zero vector when the axes are parallel. -/
def normal (p : Plane) : Vector :=
  let n := p.xAxis.cross p.yAxis
  match n.unitized with
  | .ok unit => unit
  | .error _ => n

def isValid (p : Plane) : Bool := !p.xAxis.isZero && !p.yAxis.isZero && !p.normal.isZero

/-- The point at the coordinates `u` and `v` of the plane. -/
def pointAt (p : Plane) (u v : Float) : Point := (p.origin.move (p.xAxis.scale u)).move (p.yAxis.scale v)

end Plane

namespace Circle

/-- The circle whose parameter zero is at `start`. -/
def fromCenterNormalStart (center : Point) (normal : Vector) (radius : Float) (start : Point) :
    Except Fault Circle := do
  let x ← (start.sub center).unitized
  let n ← normal.unitized
  return ⟨← Plane.fromFrame center x (n.cross x), radius⟩

def center (c : Circle) : Point := c.plane.origin

def normal (c : Circle) : Vector := c.plane.normal

def circumference (c : Circle) : Float := 2.0 * pi * c.radius

/-- The point at angle zero, where the cosine is one and the sine is zero. -/
def startPoint (c : Circle) : Point := c.plane.pointAt (c.radius * 1.0) (c.radius * 0.0)

end Circle

namespace Arc

/-- The arc in the plane that its center and normal determine. -/
def fromCenterNormal (center : Point) (normal : Vector) (radius startAngle endAngle : Float) :
    Except Fault Arc := do
  return ⟨← Plane.fromNormal center normal, radius, startAngle, endAngle⟩

def center (a : Arc) : Point := a.plane.origin

def normal (a : Arc) : Vector := a.plane.normal

def angle (a : Arc) : Float := a.endAngle - a.startAngle

def length (a : Arc) : Float := a.angle.abs * a.radius

end Arc

namespace Rectangle

def area (r : Rectangle) : Float := (r.width * r.height).abs

/-- The corners in order around the rectangle; the index counts round and round. -/
def corner (r : Rectangle) (index : Int) : Point :=
  match index % 4 with
  | 0 => r.plane.pointAt 0 0
  | 1 => r.plane.pointAt r.width 0
  | 2 => r.plane.pointAt r.width r.height
  | _ => r.plane.pointAt 0 r.height

end Rectangle

namespace Box

def isValid (b : Box) : Bool := b.min.x <= b.max.x && b.min.y <= b.max.y && b.min.z <= b.max.z

def diagonal (b : Box) : Vector := b.max.sub b.min

end Box

namespace Interval

def length (i : Interval) : Float := i.t1 - i.t0

def isIncreasing (i : Interval) : Bool := i.t0 < i.t1

end Interval

/-! ### All shapes -/

/-- Any geometric record. -/
inductive Shape
  | point (p : Point)
  | vector (v : Vector)
  | line (l : Line)
  | plane (p : Plane)
  | circle (c : Circle)
  | arc (a : Arc)
  | rectangle (r : Rectangle)
  | box (b : Box)
  | interval (i : Interval)
  | size (s : Size)
deriving Repr, DecidableEq

/-- The kinds of geometric records. -/
inductive ShapeKind
  | point | vector | line | plane | circle | arc | rectangle | box | interval | size
deriving Repr, DecidableEq

namespace Point

/-- The coordinates in display form. -/
def text (p : Point) : String :=
  let f := Double.text Double.display
  f p.x ++ "," ++ f p.y ++ "," ++ f p.z

end Point

namespace Vector

/-- The coordinates in display form. -/
def text (v : Vector) : String := Point.text ⟨v.x, v.y, v.z⟩

end Vector

namespace Shape

/-- The kind of a record. -/
def kind : Shape → ShapeKind
  | point _ => .point
  | vector _ => .vector
  | line _ => .line
  | plane _ => .plane
  | circle _ => .circle
  | arc _ => .arc
  | rectangle _ => .rectangle
  | box _ => .box
  | interval _ => .interval
  | size _ => .size

/-- The display text of a record. -/
def text (shape : Shape) : String :=
  let f := Double.text Double.display
  match shape with
  | point p => p.text
  | vector v => v.text
  | line l => "Line (L:" ++ f l.length ++ ")"
  | plane p => "O(" ++ p.origin.text ++ ") Z(" ++ p.normal.text ++ ")"
  | circle c => "Circle (R:" ++ f c.radius ++ ")"
  | arc a => "Arc (L:" ++ f a.length ++ ")"
  | rectangle r => "Rectangle (W:" ++ f r.width ++ " H:" ++ f r.height ++ ")"
  | box b => "Box (" ++ b.min.text ++ ") to (" ++ b.max.text ++ ")"
  | interval i => f i.t0 ++ " To " ++ f i.t1
  | size s => f s.width ++ ", " ++ f s.height

def pointCoordinates (p : Point) : List Float := [p.x, p.y, p.z]

def vectorCoordinates (v : Vector) : List Float := [v.x, v.y, v.z]

def planeCoordinates (p : Plane) : List Float :=
  pointCoordinates p.origin ++ vectorCoordinates p.xAxis ++ vectorCoordinates p.yAxis

/-- All numbers of a record, in order. -/
def coordinates : Shape → List Float
  | point p => pointCoordinates p
  | vector v => vectorCoordinates v
  | line l => pointCoordinates l.start ++ pointCoordinates l.end
  | plane p => planeCoordinates p
  | circle c => planeCoordinates c.plane ++ [c.radius]
  | arc a => planeCoordinates a.plane ++ [a.radius, a.startAngle, a.endAngle]
  | rectangle r => planeCoordinates r.plane ++ [r.width, r.height]
  | box b => pointCoordinates b.min ++ pointCoordinates b.max
  | interval i => [i.t0, i.t1]
  | size s => [s.width, s.height]

/-- Records of the same kind with equal numbers; zero equals negative zero, and an undefined number
equals nothing. -/
def sameAs (a b : Shape) : Bool := a.kind == b.kind && a.coordinates == b.coordinates

end Shape

/-- Two numbers are equal, or the second one is finite and the first one at most `tolerance` away
from it. An infinite tolerance thus admits everything near a finite number. -/
def closeTo (tolerance a b : Float) : Bool :=
  (Double.isFinite b && (a - b).abs <= tolerance) || a == b

end Patchbay
