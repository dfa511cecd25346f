import Patchbay.Token.Codec
import Patchbay.Token.Number

/-!
# The built-in codecs

| type name | tag | payload |
|---|---|---|
| Number, Integer, Boolean, Text | `number`, `integer`, `boolean`, `text` | the value |
| Point3d, Vector3d | `pointXYZ`, `vectorXYZ` | `x,y,z` |
| Line, BoundingBox | `line2p`, `box2p` | two points |
| Plane | `planeOXY` | origin and two axes |
| Circle | `circleCNRS` | center, normal, radius, start point |
| Arc | `arcCNRAB` | center, normal, radius, two angles |
| Rectangle | `rectangleOXY` | plane, width and height |
| Domain | `domain` | `t0<t1` |
| Bounds | `bounds` | `w,h` |
| Color | `argb` | `a,r,g,b` |

A circle and an arc keep less than their plane; reading builds a plane from what is there.
`Registry.builtin` holds all of them.
-/

namespace Patchbay

namespace Token

/-- A plane as origin and axes. -/
def writePlane (p : Plane) : Except Fault String := do
  return (← writePoint p.origin) ++ ";" ++ (← writeVector p.xAxis) ++ ";" ++ (← writeVector p.yAxis)

def readPlane (cs : List Char) : Except Fault Plane :=
  match readGroups cs with
  | [o, x, y] => do return ⟨← readPoint o, ← readVector x, ← readVector y⟩
  | _ => .error .unreadable

/-- Two points. -/
def writePoints (p q : Point) : Except Fault String := do
  return (← writePoint p) ++ ";" ++ (← writePoint q)

def readPoints (cs : List Char) : Except Fault (Point × Point) :=
  match readGroups cs with
  | [p, q] => do return (← readPoint p, ← readPoint q)
  | _ => .error .unreadable

/-- Reads a radius, which must be positive. -/
def readRadius (cs : List Char) : Except Fault Float := do
  let r ← readNumber cs
  if r <= 0 then throw .unreadable
  return r

def writeCircle (c : Circle) : Except Fault String := do
  return (← writePoint c.center) ++ ";" ++ (← writeVector c.normal) ++ ";"
    ++ (← writeNumber c.radius) ++ ";" ++ (← writePoint c.startPoint)

def readCircle (cs : List Char) : Except Fault Circle :=
  match readGroups cs with
  | [center, normal, radius, start] => do
    let r ← readRadius radius
    Circle.fromCenterNormalStart (← readPoint center) (← readVector normal) r (← readPoint start)
  | _ => .error .unreadable

def writeArc (a : Arc) : Except Fault String := do
  return (← writePoint a.center) ++ ";" ++ (← writeVector a.normal) ++ ";"
    ++ (← writeNumber a.radius) ++ ";" ++ (← writeNumber a.startAngle) ++ ";"
    ++ (← writeNumber a.endAngle)

def readArc (cs : List Char) : Except Fault Arc :=
  match readGroups cs with
  | [center, normal, radius, a0, a1] => do
    let r ← readRadius radius
    Arc.fromCenterNormal (← readPoint center) (← readVector normal) r (← readNumber a0)
      (← readNumber a1)
  | _ => .error .unreadable

def writeRectangle (r : Rectangle) : Except Fault String := do
  return (← writePlane r.plane) ++ ";" ++ (← writeNumber r.width) ++ "," ++ (← writeNumber r.height)

def readRectangle (cs : List Char) : Except Fault Rectangle :=
  match readGroups cs with
  | [o, x, y, extent] => do
    let (w, h) ← readPair ',' extent
    return ⟨⟨← readPoint o, ← (← readVector x).unitized, ← (← readVector y).unitized⟩, w, h⟩
  | _ => .error .unreadable

/-- Reads a truth value in any case, with blanks around it. -/
def readBool (cs : List Char) : Except Fault Bool :=
  let word := Text.lowerChars (Text.trimChars cs)
  if word == "true".toList then .ok true
  else if word == "false".toList then .ok false
  else .error .unreadable

def writeColor (c : Color) : String :=
  Text.joinWith "," ([c.alpha, c.red, c.green, c.blue].map fun n => String.ofList (Text.digitsOfNat n))

/-- Reads a colour channel, which lies between 0 and 255. -/
def readChannel (cs : List Char) : Except Fault Nat := do
  let i ← readInteger cs
  if 0 ≤ i ∧ i ≤ 255 then return i.toNat else throw .unreadable

def readColor (cs : List Char) : Except Fault Color := do
  match ← (Text.splitOn ',' cs).mapM readChannel with
  | [a, r, g, b] => return ⟨r, g, b, a⟩
  | _ => throw .unreadable

end Token

namespace Codec

open Token

/-- Values for which a codec has no payload are refused before writing; this is what writing would
say of them. -/
private def refuse : Except Fault String := .error .wrongKind

def number : Codec where
  typeName := "Number"
  tag := "number"
  kinds := [.float]
  write | .float x => writeNumber x | _ => refuse
  read s := (readNumber s.toList).map .float
  hint := "number:x"
  valid | .float x => Double.isFinite x | _ => true

def integer : Codec where
  typeName := "Integer"
  tag := "integer"
  kinds := [.int]
  write | .int i => writeInteger i | _ => refuse
  read s := (readInteger s.toList).map .int
  hint := "integer:n"
  valid _ := true

def boolean : Codec where
  typeName := "Boolean"
  tag := "boolean"
  kinds := [.bool]
  write | .bool b => .ok (if b then "true" else "false") | _ => refuse
  read s := (readBool s.toList).map .bool
  hint := "boolean:true|false"
  valid _ := true

def text : Codec where
  typeName := "Text"
  tag := "text"
  kinds := [.str]
  write | .str s => .ok s | _ => refuse
  read s := .ok (.str s)
  hint := "text:<any>"
  valid _ := true

def point : Codec where
  typeName := "Point3d"
  tag := "pointXYZ"
  kinds := [.shape .point]
  write | .shape (.point p) => writePoint p | _ => refuse
  read s := (readPoint s.toList).map fun p => .shape (.point p)
  hint := "pointXYZ:x,y,z"
  valid _ := true

def vector : Codec where
  typeName := "Vector3d"
  tag := "vectorXYZ"
  kinds := [.shape .vector]
  write | .shape (.vector v) => writeVector v | _ => refuse
  read s := (readVector s.toList).map fun v => .shape (.vector v)
  hint := "vectorXYZ:x,y,z"
  valid _ := true

def line : Codec where
  typeName := "Line"
  tag := "line2p"
  kinds := [.shape .line]
  write | .shape (.line l) => writePoints l.start l.end | _ => refuse
  read s := (readPoints s.toList).map fun (p, q) => .shape (.line ⟨p, q⟩)
  hint := "line2p:x1,y1,z1;x2,y2,z2"
  valid _ := true

def plane : Codec where
  typeName := "Plane"
  tag := "planeOXY"
  kinds := [.shape .plane]
  write | .shape (.plane p) => writePlane p | _ => refuse
  read s := (readPlane s.toList).map fun p => .shape (.plane p)
  hint := "planeOXY:ox,oy,oz;xx,xy,xz;yx,yy,yz"
  valid | .shape (.plane p) => p.isValid | _ => true

def circle : Codec where
  typeName := "Circle"
  tag := "circleCNRS"
  kinds := [.shape .circle]
  write | .shape (.circle c) => writeCircle c | _ => refuse
  read s := (readCircle s.toList).map fun c => .shape (.circle c)
  hint := "circleCNRS:cx,cy,cz;nx,ny,nz;r;sx,sy,sz"
  valid | .shape (.circle c) => c.radius > 0 && c.plane.isValid | _ => true

def arc : Codec where
  typeName := "Arc"
  tag := "arcCNRAB"
  kinds := [.shape .arc]
  write | .shape (.arc a) => writeArc a | _ => refuse
  read s := (readArc s.toList).map fun a => .shape (.arc a)
  hint := "arcCNRAB:cx,cy,cz;nx,ny,nz;r;a0;a1"
  valid | .shape (.arc a) => a.radius > 0 && a.plane.isValid | _ => true

def rectangle : Codec where
  typeName := "Rectangle"
  tag := "rectangleOXY"
  kinds := [.shape .rectangle]
  write | .shape (.rectangle r) => writeRectangle r | _ => refuse
  read s := (readRectangle s.toList).map fun r => .shape (.rectangle r)
  hint := "rectangleOXY:ox,oy,oz;xx,xy,xz;yx,yy,yz;w,h"
  valid | .shape (.rectangle r) => r.plane.isValid | _ => true

def box : Codec where
  typeName := "BoundingBox"
  tag := "box2p"
  kinds := [.shape .box]
  write | .shape (.box b) => writePoints b.min b.max | _ => refuse
  read s := (readPoints s.toList).map fun (p, q) => .shape (.box ⟨p, q⟩)
  hint := "box2p:x1,y1,z1;x2,y2,z2"
  valid _ := true

def domain : Codec where
  typeName := "Domain"
  tag := "domain"
  kinds := [.shape .interval]
  write
    | .shape (.interval i) => do return (← writeNumber i.t0) ++ "<" ++ (← writeNumber i.t1)
    | _ => refuse
  read s := (readPair '<' s.toList).map fun (a, b) => .shape (.interval ⟨a, b⟩)
  hint := "domain:t0<t1"
  valid _ := true

def bounds : Codec where
  typeName := "Bounds"
  tag := "bounds"
  kinds := [.shape .size]
  write
    | .shape (.size s) => do return (← writeNumber s.width) ++ "," ++ (← writeNumber s.height)
    | _ => refuse
  read s := (readPair ',' s.toList).map fun (w, h) => .shape (.size ⟨w, h⟩)
  hint := "bounds:w,h"
  valid _ := true

def color : Codec where
  typeName := "Color"
  tag := "argb"
  kinds := [.color]
  write | .color (some c) => .ok (writeColor c) | _ => refuse
  read s := (readColor s.toList).map fun c => .color (some c)
  hint := "argb:a,r,g,b"
  valid | .color c => c.isSome | _ => true

/-- The built-in codecs with their further names. -/
def builtins : List (Codec × List String) :=
  [(number, ["Double"]), (integer, ["Int32"]), (boolean, ["Bool"]), (text, ["String"]),
    (point, ["Point"]), (vector, ["Vector"]), (line, []), (plane, []), (circle, []), (arc, []),
    (rectangle, ["Rectangle3d"]), (box, ["Box"]), (domain, ["Interval"]), (bounds, ["Size"]),
    (color, ["Colour"])]

end Codec

namespace Registry

/-- Registers codecs one after the other; one whose name or tag is taken is left out. -/
def registerAll (r : Registry) (codecs : List (Codec × List String)) : Registry :=
  codecs.foldl (fun r (c, aliases) => (r.register c aliases).toOption.getD r) r

/-- The registry with the built-in codecs. -/
def builtin : Registry := empty.registerAll Codec.builtins

end Registry

end Patchbay
