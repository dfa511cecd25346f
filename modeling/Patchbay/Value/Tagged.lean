import Patchbay.Value.Text

/-!
# Tagged values

A JSON form that keeps the kind of every value. Null, truth values and texts stand for themselves;
every other value is an object with its kind under `t` and its parts under `v`:

    {"t": "int", "v": "12"}        {"t": "Point3d", "v": ["1.0", "2.0", "-0.0"]}

* `Value.tagged` — the tagged form of a value
* `Value.ofTagged` — the value of a tagged form

## Design decisions

* Numbers are written as texts, so that no reader of JSON rounds them.
* Parts are read before the whole, and what cannot be read counts as zero, empty or unset.
* Rectangles and paths are written without their parts. A data tree is written as an object with
  paths for keys, and read from a form of its own that tells the paths.
-/

namespace Patchbay

namespace Tagged

/-- An object with a kind and its parts. -/
def mark (kind : String) (parts : Value) : Value := .object [("t", .str kind), ("v", parts)]

/-- A double as a text. -/
def number (x : Float) : Value := .str (Double.text Double.full x)

/-- Doubles as texts. -/
def numbers (xs : List Float) : Value := .list (xs.map number)

def point (p : Point) : Value := mark "Point3d" (numbers [p.x, p.y, p.z])

def vector (v : Vector) : Value := mark "Vector3d" (numbers [v.x, v.y, v.z])

def plane (p : Plane) : Value :=
  mark "Plane" (.list [point p.origin, vector p.xAxis, vector p.yAxis])

/-- The tagged form of a geometric record. -/
def shape : Shape → Value
  | .point p => point p
  | .vector v => vector v
  | .line l => mark "Line" (.list [point l.start, point l.end])
  | .plane p => plane p
  | .circle c => mark "Circle" (.list [plane c.plane, number c.radius])
  | .arc a =>
    mark "Arc" (.list [plane a.plane, number a.radius, number a.startAngle, number a.endAngle])
  | .rectangle r => mark "Rectangle3d" (.list [plane r.plane, number r.width, number r.height])
  | .box b => mark "BoundingBox" (.list [point b.min, point b.max])
  | .interval i => mark "Interval" (numbers [i.t0, i.t1])
  | .size s => mark "Size" (numbers [s.width, s.height])

/-- The tagged form of a value without parts. -/
def leaf : Value → Value
  | .int i => mark "int" (.str (Text.integerText i))
  | .float x => mark "float" (number x)
  | .decimal d => mark "Decimal" (.str d.toText)
  | .shape s => shape s
  | .color none => mark "QColor" .null
  | .color (some c) => mark "QColor" (.list ([c.red, c.green, c.blue, c.alpha].map fun (n : Nat) => .int n))
  | .spot x y => mark "QPointF" (numbers [x, y])
  | .region .. => .object [("t", .str "QRectF")]
  | .path _ => .object [("t", .str "tuple")]
  | .item i => mark "ValueListItem" (.list [.str i.name, .str i.expression, .bool i.selected])
  | .access a => mark "ParamAccess" (.str a.code)
  | .mapping m => mark "DataMapping" (.str m.code)
  | .rounding r => mark "SliderRounding" (.str r.code)
  | .foreign typeName _ => .object [("t", .str typeName)]
  | other => other

end Tagged

namespace Value

mutual

/-- The tagged form of a value. -/
def tagged : Value → Value
  | list items => Tagged.mark "list" (.list (taggedAll items))
  | object entries => Tagged.mark "dict" (.list (taggedEntries entries))
  | tree branches => Tagged.mark "dict" (.list (taggedBranches branches))
  | other => Tagged.leaf other

/-- The tagged forms of items. -/
def taggedAll : List Value → List Value
  | [] => []
  | v :: rest => tagged v :: taggedAll rest

/-- The tagged forms of entries, each as a pair. -/
def taggedEntries : List (String × Value) → List Value
  | [] => []
  | (key, v) :: rest => .list [.str key, tagged v] :: taggedEntries rest

/-- The tagged forms of branches, each as a pair. -/
def taggedBranches : List (Path × List Value) → List Value
  | [] => []
  | (p, items) :: rest =>
    .list [Tagged.leaf (.path p), Tagged.mark "list" (.list (taggedAll items))]
      :: taggedBranches rest

end

end Value

namespace Tagged

/-- The items of a list; nothing else has any. -/
def itemsOf : Value → List Value
  | .list items => items
  | _ => []

/-- The text of a value that is one. -/
def textOf : Value → String
  | .str s => s
  | _ => ""

/-- The integer of a value that is one. -/
def intOf : Value → Int
  | .int i => i
  | _ => 0

/-- The integer that a text writes, with as many digits as it has. -/
def wholeOf (s : String) : Int := (readIntUpTo? s.length s.toList).getD 0

/-- The double that a text or a number writes. -/
def numberOf (v : Value) : Float := v.toFloat.toOption.getD 0

def pointOf : Value → Point
  | .shape (.point p) => p
  | _ => .origin

def vectorOf : Value → Vector
  | .shape (.vector v) => v
  | _ => ⟨0, 0, 0⟩

def planeOf : Value → Plane
  | .shape (.plane p) => p
  | _ => .worldXY

/-- The geometric record of a kind with its parts. -/
def shapeOf? (kind : String) (parts : List Value) : Option Shape :=
  let n := fun i => numberOf (parts.getD i .null)
  let point := fun i => pointOf (parts.getD i .null)
  let vector := fun i => vectorOf (parts.getD i .null)
  let plane := planeOf (parts.getD 0 .null)
  match kind with
  | "Point3d" => some (.point ⟨n 0, n 1, n 2⟩)
  | "Vector3d" => some (.vector ⟨n 0, n 1, n 2⟩)
  | "Line" => some (.line ⟨point 0, point 1⟩)
  | "Plane" => some (.plane ⟨point 0, vector 1, vector 2⟩)
  | "Circle" => some (.circle ⟨plane, n 1⟩)
  | "Arc" => some (.arc ⟨plane, n 1, n 2, n 3⟩)
  | "Rectangle3d" => some (.rectangle ⟨plane, n 1, n 2⟩)
  | "BoundingBox" => some (.box ⟨point 0, point 1⟩)
  | "Interval" => some (.interval ⟨n 0, n 1⟩)
  | "Size" => some (.size ⟨n 0, n 1⟩)
  | _ => none

/-- The colour with four channels. With a channel that is out of range it was never set. -/
def colorOf (parts : List Value) : Option Color :=
  match parts.map intOf with
  | [red, green, blue, alpha] =>
    if [red, green, blue, alpha].all fun c => 0 ≤ c && c ≤ 255 then
      some ⟨red.toNat, green.toNat, blue.toNat, alpha.toNat⟩
    else none
  | _ => none

/-- The entry that a pair of a key and a value stands for. -/
def entryOf (pair : Value) : String × Value :=
  match itemsOf pair with
  | [key, v] => (key.text, v)
  | _ => ("", .null)

/-- The branch that a pair of a path and items stands for. -/
def branchOf (pair : Value) : Path × List Value :=
  match itemsOf pair with
  | [path, items] => ((itemsOf path).map intOf, itemsOf items)
  | _ => ([], [])

/-- The value of a kind with its parts. -/
def build (kind : String) (body : Value) : Value :=
  let parts := itemsOf body
  let n := fun i => numberOf (parts.getD i .null)
  match kind with
  | "int" => .int (wholeOf (textOf body))
  | "float" => .float (numberOf body)
  | "Decimal" => .decimal ((Decimal.parse? (textOf body).toList).getD (.ofInt 0))
  | "QColor" => .color (colorOf parts)
  | "QPointF" => .spot (n 0) (n 1)
  | "QRectF" => .region (n 0) (n 1) (n 2) (n 3)
  | "list" => .list parts
  | "dict" => .object (Keyed.ofList (parts.map entryOf))
  | "tree" => .tree (Keyed.ofList (parts.map branchOf))
  | "ValueListItem" =>
    .item ⟨textOf (parts.getD 0 .null), textOf (parts.getD 1 .null), (parts.getD 2 .null).truthy⟩
  | "ParamAccess" => .access ((Access.ofCode? (textOf body)).getD .item)
  | "DataMapping" => .mapping ((Mapping.ofCode? (textOf body)).getD .none)
  | "SliderRounding" => .rounding ((Rounding.ofCode? (textOf body)).getD .float)
  | _ =>
    match shapeOf? kind parts with
    | some s => .shape s
    | none => .foreign kind "<opaque>"

end Tagged

namespace Value

mutual

/-- The value of a tagged form. What carries no tag stands for itself. -/
def ofTagged : Value → Value
  | list items => list (ofTaggedAll items)
  | object entries =>
    let entries := ofTaggedEntries entries
    match field entries "t" with
    | str kind => Tagged.build kind (field entries "v")
    | _ => object entries
  | other => other

/-- The values of tagged forms. -/
def ofTaggedAll : List Value → List Value
  | [] => []
  | v :: rest => ofTagged v :: ofTaggedAll rest

/-- Entries with the values of their tagged forms. -/
def ofTaggedEntries : List (String × Value) → List (String × Value)
  | [] => []
  | (key, v) :: rest => (key, ofTagged v) :: ofTaggedEntries rest

end

end Value

end Patchbay
