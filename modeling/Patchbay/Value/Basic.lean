import Patchbay.Decimal.Basic
import Patchbay.Keyed
import Patchbay.Geometry.Shape
import Patchbay.Value.Mode

/-!
# Values

The values that attributes of nodes hold, that tokens encode and that documents are made of. They
are dynamic: an attribute may hold a value of any kind, and every reader says what it does with
each.

* `Value` — all values
* `Value.kind`, `Kind` — the kind of a value, by which codecs choose
* `Value.truthy` — whether a value counts as present
* `Value.get?`, `Entries.put` — objects as lists of entries, each key once, in order of arrival
* `Value.IsJson` — the values that JSON texts write

## Design decisions

* One type serves documents and attributes, because properties carry values from one to the
  other unchanged. `IsJson` singles out what a JSON text can hold.
* An object keeps its entries in order; putting a key again replaces its value in place.
* A data tree is a value of its own, since its branches are keyed by paths and not by texts.
-/

namespace Patchbay

/-- A colour with four channels from 0 to 255. -/
structure Color where
  red : Nat
  green : Nat
  blue : Nat
  alpha : Nat
deriving Repr, DecidableEq, Inhabited

/-- A line of a value list: its name, the expression it stands for, and whether it is chosen. -/
structure ListItem where
  name : String
  expression : String
  selected : Bool
deriving Repr, DecidableEq, Inhabited

/-- The path of a branch in a data tree. -/
abbrev Path := List Int

/-- Values of attributes, tokens and documents. -/
inductive Value
  | null
  | bool (b : Bool)
  | int (i : Int)
  | float (x : Float)
  | str (s : String)
  | decimal (d : Decimal)
  | shape (s : Shape)
  /-- A colour, or the colour that was never set. -/
  | color (c : Option Color)
  /-- A spot of the canvas. -/
  | spot (x y : Float)
  /-- A rectangle of the canvas. -/
  | region (x y width height : Float)
  | list (items : List Value)
  | object (entries : List (String × Value))
  /-- A data tree: branches keyed by paths. -/
  | tree (branches : List (Path × List Value))
  | path (p : Path)
  | item (i : ListItem)
  | access (a : Access)
  | mapping (m : Mapping)
  | rounding (r : Rounding)
  /-- A value of a kind that is known by name only. -/
  | foreign (typeName text : String)
deriving Repr

instance : Inhabited Value := ⟨.null⟩

/-- The kinds of values that a codec can be registered for. -/
inductive Kind
  | null | bool | int | float | str | decimal | shape (k : ShapeKind) | color | spot | region
  | list | object | path | item | access | mapping | rounding | foreign (typeName : String)
deriving Repr, DecidableEq

namespace Value

/-- The kind of a value. A data tree is a kind of object. -/
def kind : Value → Kind
  | null => .null
  | bool _ => .bool
  | int _ => .int
  | float _ => .float
  | str _ => .str
  | decimal _ => .decimal
  | shape s => .shape s.kind
  | color _ => .color
  | spot .. => .spot
  | region .. => .region
  | list _ => .list
  | object _ | tree _ => .object
  | path _ => .path
  | item _ => .item
  | access _ => .access
  | mapping _ => .mapping
  | rounding _ => .rounding
  | foreign typeName _ => .foreign typeName

end Value

/-- The kinds that a value of this kind belongs to, the most specific first: truth values are
integers too. -/
def Kind.lineage : Kind → List Kind
  | .bool => [.bool, .int]
  | k => [k]

/-- The name of a kind of geometric record in messages. -/
def ShapeKind.typeName : ShapeKind → String
  | point => "Point3d"
  | vector => "Vector3d"
  | line => "Line"
  | plane => "Plane"
  | circle => "Circle"
  | arc => "Arc"
  | rectangle => "Rectangle3d"
  | box => "BoundingBox"
  | interval => "Interval"
  | size => "Size"

/-- The name of a kind in messages. -/
def Kind.typeName : Kind → String
  | null => "NoneType"
  | bool => "bool"
  | int => "int"
  | float => "float"
  | str => "str"
  | decimal => "Decimal"
  | shape k => k.typeName
  | color => "QColor"
  | spot => "QPointF"
  | region => "QRectF"
  | list => "list"
  | object => "dict"
  | path => "tuple"
  | item => "ValueListItem"
  | access => "ParamAccess"
  | mapping => "DataMapping"
  | rounding => "SliderRounding"
  | foreign typeName => typeName

/-- All kinds of geometric records. -/
def ShapeKind.all : List ShapeKind :=
  [point, vector, line, plane, circle, arc, rectangle, box, interval, size]

/-- The kinds that have names of their own. -/
def Kind.known : List Kind :=
  [null, bool, int, float, str, decimal] ++ ShapeKind.all.map shape
    ++ [color, spot, region, list, object, path, item, access, mapping, rounding]

/-- The kind of a name. -/
def Kind.ofTypeName (name : String) : Kind :=
  (known.find? fun k => k.typeName == name).getD (.foreign name)

/-- An object's entries. -/
abbrev Entries := List (String × Value)

namespace Entries

/-- The value under a key. -/
def get? (entries : Entries) (key : String) : Option Value := entries.lookup key

/-- Puts a value under a key: in place if the key is there, else at the end. -/
abbrev put (entries : Entries) (key : String) (value : Value) : Entries := Keyed.put entries key value

@[simp] theorem get?_nil (key : String) : get? [] key = none := rfl

theorem get?_put_self (entries : Entries) (key : String) (value : Value) :
    (entries.put key value).get? key = some value := Keyed.lookup_put_self entries key value

theorem get?_put_of_ne (entries : Entries) {key other : String} (value : Value)
    (h : other ≠ key) : (entries.put key value).get? other = entries.get? other :=
  Keyed.lookup_put_of_ne entries value h

end Entries

namespace Value

/-- The value under a key of an object. -/
def get? (v : Value) (key : String) : Option Value :=
  match v with
  | object entries => Entries.get? entries key
  | _ => none

/-- The value under a key of an object, where a key that is not there counts as null. -/
def field (entries : Entries) (key : String) : Value := (Entries.get? entries key).getD null

/-- Whether a value is null. -/
def isNull : Value → Bool
  | null => true
  | _ => false

/-- Whether a value counts as present: null, false, zero and everything empty do not. -/
def truthy : Value → Bool
  | null => false
  | bool b => b
  | int i => i != 0
  | float x => !(x == 0.0)
  | str s => !s.isEmpty
  | decimal d => !d.isZero
  | list items => !items.isEmpty
  | object entries => !entries.isEmpty
  | tree branches => !branches.isEmpty
  | path p => !p.isEmpty
  | spot x y => !(x == 0.0 && y == 0.0)
  | region _ _ width height => !(width == 0.0 && height == 0.0)
  | _ => true

/-- Whether tables can be searched for a value. They cannot for values whose parts may change, nor
for a decimal that signals. -/
def isKey : Value → Bool
  | list _ | object _ | tree _ | item _ | color _ | spot .. | region .. => false
  | decimal (.nan _ signaling _) => !signaling
  | _ => true

/-- The first of two values that counts as present; the second if neither does. -/
def orElse (a b : Value) : Value := if a.truthy then a else b

/-- Whether a value is the given text. -/
def isText (v : Value) (s : String) : Bool :=
  match v with
  | str t => t == s
  | _ => false

/-- An optional text as a value. -/
def ofText? : Option String → Value
  | some s => str s
  | none => null

mutual

/-- The values that a JSON text can hold: null, truth values, numbers, texts, arrays, and objects
with each key once. -/
def IsJson : Value → Prop
  | null | bool _ | int _ | float _ | str _ => True
  | list items => AllJson items
  | object entries => (entries.map Prod.fst).Nodup ∧ EntriesJson entries
  | _ => False

/-- `IsJson` of every item. -/
def AllJson : List Value → Prop
  | [] => True
  | v :: rest => IsJson v ∧ AllJson rest

/-- `IsJson` of the value of every entry. -/
def EntriesJson : List (String × Value) → Prop
  | [] => True
  | (_, v) :: rest => IsJson v ∧ EntriesJson rest

end

/-- The label of a plain value in a document. -/
def jsonTypeName (v : Value) : String :=
  match v with
  | null => "Null"
  | bool _ => "Boolean"
  | int _ => "Int32"
  | float _ => "Double"
  | str _ => "String"
  | list _ => "List"
  | object _ | tree _ => "Dictionary"
  | other => other.kind.typeName

/-- The items that a walk over the value meets: the items of a list, the characters of a text, the
keys of an object, the integers of a path. -/
def elements : Value → Except Fault (List Value)
  | list items => .ok items
  | str s => .ok (s.toList.map fun c => str (String.singleton c))
  | object entries => .ok (entries.map fun (key, _) => str key)
  | tree branches => .ok (branches.map fun (p, _) => path p)
  | path p => .ok (p.map int)
  | _ => .error .wrongKind

/-- The double that a value stands for. -/
def toFloat : Value → Except Fault Float
  | float x => .ok x
  | bool b => .ok (if b then 1.0 else 0.0)
  | int i =>
    match Double.ofInt? i with
    | some x => .ok x
    | none => .error .outOfRange
  | str s =>
    match readFloat? s.toList with
    | some x => .ok x
    | none => .error .unreadable
  | decimal d =>
    match d.toFloat? with
    | some x => .ok x
    | none => .error .unreadable
  | _ => .error .wrongKind

end Value

end Patchbay
