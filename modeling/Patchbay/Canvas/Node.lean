import Patchbay.Canvas.NodeType
import Patchbay.Document.Basic
import Patchbay.Value.Choice

/-!
# Live nodes

A live node has parameters, a place on the canvas and attributes. Which attributes there are
depends on the behaviour of the node; each of them may hold a value of any kind.

* `Attribute` — the attributes of nodes
* `Attributes` — the attributes of one node with their values
* `Parameter` — a live input or output
* `Node` — a live node; `Node.read`, `Node.write` reach everything by attribute
* `Attributes.initial` — what a new node starts with

## Design decisions

* Nodes and parameters are known by handles, so that wires can run in both directions.
* `Node.write` changes one thing or nothing: what the host assigns is refused, everything else is
  stored as it comes. So a name may be any value, and whoever needs a text takes the value's text.
-/

namespace Patchbay

/-- A handle of a node. -/
structure NodeRef where
  index : Nat
deriving Repr, DecidableEq, Inhabited

/-- A handle of a parameter. -/
structure ParamRef where
  index : Nat
deriving Repr, DecidableEq, Inhabited

/-! ### Attributes -/

/-- The attributes of nodes. -/
inductive Attribute
  -- of every node, kept in fields of their own
  | id | typeKey | name | pivot | principal | kind | language | inputs | outputs
  -- of every node
  | nickName | selected | locked | hidden | warnings | errors
  -- of some kinds of nodes
  | value | minimum | maximum | decimals | rounding
  | userText | text | listMode | listItems | color
  | scriptText | marshInputs | marshOutputs | maintenanceRuns
  | persistentData
  /-- What a node says about itself; a slider makes it up from its other attributes. -/
  | description
  /-- An attribute that a host adds. -/
  | custom (name : String)
deriving Repr, DecidableEq, Inhabited

namespace Attribute

/-- The attributes that belong to some kinds of nodes, each with its name in snapshots. -/
def ofKinds : List (Attribute × String) :=
  [(value, "value"), (minimum, "minimum"), (maximum, "maximum"), (decimals, "decimals"),
    (rounding, "rounding"), (userText, "user_text"), (listMode, "list_mode"),
    (listItems, "list_items"), (color, "color"), (text, "text"), (scriptText, "script_text"),
    (marshInputs, "marsh_inputs"), (marshOutputs, "marsh_outputs"),
    (maintenanceRuns, "maintenance_runs"), (persistentData, "persistent_data")]

/-- All attributes with their names. -/
def named : List (Attribute × String) :=
  [(id, "instance_id"), (typeKey, "type_guid"), (name, "name"), (pivot, "pivot"),
    (principal, "principal_parameter_index"), (kind, "kind"), (language, "language"),
    (inputs, "inputs"), (outputs, "outputs"), (nickName, "nick_name"), (selected, "selected"),
    (locked, "locked"), (hidden, "hidden"), (warnings, "warnings"), (errors, "errors"),
    (description, "instance_description")] ++ ofKinds

/-- The attribute of a name. -/
def ofName (s : String) : Attribute :=
  match named.find? fun (_, t) => t == s with
  | some (a, _) => a
  | none => custom s

end Attribute

/-- The attributes of a node, each once. -/
abbrev Attributes := List (Attribute × Value)

namespace Attributes

/-- The value of an attribute that is there. -/
def get? (attributes : Attributes) (a : Attribute) : Option Value := attributes.lookup a

/-- Gives an attribute a value, in place if it is there. -/
abbrev put (attributes : Attributes) (a : Attribute) (v : Value) : Attributes :=
  Keyed.put attributes a v

theorem get?_put_self (attributes : Attributes) (a : Attribute) (v : Value) :
    (attributes.put a v).get? a = some v := Keyed.lookup_put_self attributes a v

theorem get?_put_of_ne (attributes : Attributes) {a b : Attribute} (v : Value) (h : b ≠ a) :
    (attributes.put a v).get? b = attributes.get? b := Keyed.lookup_put_of_ne attributes v h

theorem get?_put (attributes : Attributes) (a : Attribute) (v : Value) (b : Attribute) :
    (attributes.put a v).get? b = if b = a then some v else attributes.get? b := by
  split
  · next h => rw [h, get?_put_self]
  · next h => rw [get?_put_of_ne attributes v h]

end Attributes

/-! ### Parameters -/

/-- What a parameter belongs to. -/
inductive Owner
  | nobody
  | node (n : NodeRef)
  /-- Something that is no node. -/
  | stranger
deriving Repr, DecidableEq, Inhabited

/-- The node that a parameter belongs to. -/
def Owner.node? : Owner → Option NodeRef
  | node n => some n
  | nobody | stranger => none

/-- A live parameter. An input's `sources` feed it, an output feeds its `recipients`. -/
structure Parameter where
  name : Value
  nickName : Value
  variableName : Value
  description : Value
  typeName : Value
  access : Value
  mapping : Value
  simplify : Value
  reverse : Value
  locked : Value
  invert : Value
  optional : Value
  expression : Value
  /-- The converter of incoming values, by which hints are inferred. -/
  converter : Value
  typeHint : Value
  persistentData : Value
  owner : Owner
  sources : List ParamRef
  recipients : List ParamRef
  /-- The number of sources before a wire from nowhere, if there is such a wire. -/
  gap : Option Nat
deriving Repr, Inhabited

namespace Parameter

/-- A new parameter of a declared form. -/
def ofSpec (spec : ParameterSpec) (owner : Owner) : Parameter where
  name := .str spec.name
  nickName := .str spec.name
  variableName := .str spec.name
  description := .str spec.description
  typeName := .str spec.typeName
  access := .access spec.access
  mapping := .mapping .none
  simplify := .bool false
  reverse := .bool false
  locked := .bool false
  invert := .bool false
  optional := .bool spec.optional
  expression := .null
  converter := .str spec.typeName
  typeHint := .null
  persistentData := .null
  owner
  sources := []
  recipients := []
  gap := none

/-- A new parameter of a script, without an owner and without a converter. -/
def ofVariable (identifier : Value) : Parameter :=
  { ofSpec (.item "" "Generic" true) .nobody with
    name := identifier, nickName := identifier, variableName := identifier, converter := .null }

/-- The variable of a script parameter, which is its name unless there is another. -/
def identifier (p : Parameter) : Value := p.variableName.orElse p.name

/-- The parameter with one more source. -/
def addSource (p : Parameter) (source : ParamRef) : Parameter :=
  { p with sources := p.sources ++ [source] }

/-- The parameter without a source. -/
def dropSource (p : Parameter) (source : ParamRef) : Parameter :=
  { p with
    sources := p.sources.erase source
    gap := p.gap.map fun n => if p.sources.idxOf source < n then n - 1 else n }

/-- Changes the field of a name. What a parameter is wired to is not changed so; a field that
parameters do not have stands for none. An owner is a node or nobody. -/
def write (p : Parameter) (field : String) (v : Value) : Except Fault Parameter :=
  match field with
  | "name" => .ok { p with name := v }
  | "nick_name" => .ok { p with nickName := v }
  | "variable_name" => .ok { p with variableName := v }
  | "description" => .ok { p with description := v }
  | "type_name" => .ok { p with typeName := v }
  | "access" => .ok { p with access := v }
  | "data_mapping" => .ok { p with mapping := v }
  | "simplify" => .ok { p with simplify := v }
  | "reverse" => .ok { p with reverse := v }
  | "locked" => .ok { p with locked := v }
  | "invert" => .ok { p with invert := v }
  | "optional" => .ok { p with optional := v }
  | "expression" => .ok { p with expression := v }
  | "converter" => .ok { p with converter := v }
  | "type_hint" => .ok { p with typeHint := v }
  | "persistent_data" => .ok { p with persistentData := v }
  | "owner" => .ok { p with owner := if v.isNull then .nobody else .stranger }
  | "sources" | "recipients" => .error .noAttribute
  | _ => .ok p

end Parameter

/-! ### Nodes -/

/-- The script that a new script node starts with. -/
def Language.template : Language → String
  | csharp => "using System;\nusing Rhino.Geometry;\n\npublic class Script_Instance : GH_ScriptInstance\n\x7b\n  private void RunScript(object x, object y, ref object a)\n  \x7b\n  \x7d\n\x7d\n"
  | python => "class MyComponent(component):\n    def RunScript(self, x, y):\n        return\n"
  | vb => "Private Sub RunScript(ByVal x As Object, ByVal y As Object, ByRef A As Object)\nEnd Sub\n"

/-- The lines that a new value list offers. -/
def ListItem.starters : List ListItem :=
  [⟨"One", "1", true⟩, ⟨"Two", "2", false⟩, ⟨"Three", "3", false⟩, ⟨"Four", "4", false⟩]

/-- The attributes that only nodes of a kind have, as they are in a new node. -/
def NodeKind.starters (language : Language) : NodeKind → Attributes
  | generic => []
  | parameter => [(.persistentData, .tree [])]
  | slider =>
    [(.value, .decimal (.finite false 250 (-3))), (.minimum, .decimal (.ofInt 0)),
      (.maximum, .decimal (.ofInt 1)), (.decimals, .int 3), (.rounding, .rounding .float)]
  | panel => [(.userText, .str "")]
  | script =>
    [(.scriptText, .str language.template), (.marshInputs, .bool true), (.marshOutputs, .bool true),
      (.maintenanceRuns, .int 0)]
  | valueList =>
    [(.listMode, .str "DropDown"), (.listItems, .list (ListItem.starters.map Value.item))]
  | toggle => [(.value, .bool false)]
  | swatch => [(.color, .color (some ⟨255, 255, 255, 255⟩))]
  | scribble => [(.text, .str "Double click to edit scribble text")]

/-- The attributes of a new node. -/
def Attributes.initial (t : NodeType) : Attributes :=
  [(.nickName, .str t.name), (.selected, .bool false), (.locked, .bool false),
    (.hidden, .bool false), (.warnings, .list []), (.errors, .list [])]
  ++ t.kind.starters (t.language.getD .csharp)

/-- A live node. -/
structure Node where
  /-- The id that the canvas assigned; empty before the node was placed. -/
  id : String
  typeKey : Value
  name : Value
  kind : NodeKind
  language : Language
  /-- Where the node is: a spot, unless something else was put there. -/
  pivot : Value
  /-- The index of the principal input, or -1. -/
  principal : Value
  inputs : List ParamRef
  outputs : List ParamRef
  attributes : Attributes
deriving Repr, Inhabited

namespace Node

/-- The parameters of a node, inputs first. -/
def params (n : Node) : List ParamRef := n.inputs ++ n.outputs

/-- A kind of nodes as a value. -/
def kindValue (k : NodeKind) : Value :=
  .foreign "NodeKind" ("NodeKind." ++ if k = .valueList then "VALUE_LIST" else upperCode k.code)

/-- A language as a value. -/
def languageValue (l : Language) : Value :=
  .foreign "ScriptLanguage" ("ScriptLanguage." ++ upperCode l.code)

/-- Parameters as a value, which tells no more than how many they are. -/
def paramsValue (ps : List ParamRef) : Value :=
  .list (ps.map fun _ => .foreign "MemoryParam" "MemoryParam")

/-- The attributes that nodes of a kind have without storing them. -/
def computed (k : NodeKind) : List Attribute :=
  [.id, .inputs, .outputs] ++ if k = .slider then [.description] else []

/-- The value of an attribute; null if the node has no such attribute. -/
def read (n : Node) : Attribute → Value
  | .id => .str n.id
  | .typeKey => n.typeKey
  | .name => n.name
  | .pivot => n.pivot
  | .inputs => paramsValue n.inputs
  | .outputs => paramsValue n.outputs
  | .principal => n.principal
  | .kind => (n.attributes.get? .kind).getD (kindValue n.kind)
  | .language =>
    (n.attributes.get? .language).getD
      (if n.kind = .script then languageValue n.language else .null)
  | a => (n.attributes.get? a).getD .null

/-- Gives an attribute a value. -/
def put (n : Node) (a : Attribute) (v : Value) : Node := { n with attributes := n.attributes.put a v }

/-- Where a node is. -/
def position (n : Node) : Except Fault (Position Float) :=
  match n.pivot with
  | .spot x y | .region x y _ _ => .ok ⟨x, y⟩
  | .shape (.point _) | .shape (.vector _) => .error .wrongKind
  | _ => .error .noAttribute

/-- The kind that a node is treated as; nothing if it was overwritten. -/
def actingKind (n : Node) : Except Fault (Option NodeKind) :=
  match n.attributes.get? .kind with
  | none => .ok (some n.kind)
  | some v => if v.isKey then .ok none else .error .wrongKind

/-- Whether a node is treated as one of a kind. -/
def actsAs (n : Node) (k : NodeKind) : Bool :=
  n.kind = k && (n.attributes.get? .kind).isNone

/-- The code of a node's kind, if there is one. -/
def kindCode (n : Node) : Except Fault String :=
  match n.attributes.get? .kind with
  | none => .ok n.kind.code
  | some v => v.code

/-- The language of a script; nothing if it was overwritten. -/
def actingLanguage (n : Node) : Except Fault (Option Language) :=
  match n.attributes.get? .language with
  | none => .ok (some n.language)
  | some v => if v.isKey then .ok none else .error .wrongKind

/-- Writes an attribute that is not computed. -/
def write (n : Node) (a : Attribute) (v : Value) : Except Fault Node :=
  if (computed n.kind).contains a then .error .noAttribute
  else
    match a with
    | .typeKey => .ok { n with typeKey := v }
    | .name => .ok { n with name := v }
    | .principal => .ok { n with principal := v }
    | .pivot => .ok { n with pivot := v }
    | a => .ok (n.put a v)

/-- The name of a kind of nodes in summaries. -/
def kindName : NodeKind → String
  | .generic => "MemoryNode"
  | .parameter => "MemoryParameterNode"
  | .slider => "MemorySliderNode"
  | .panel => "MemoryPanelNode"
  | .script => "MemoryScriptNode"
  | .valueList => "MemoryValueListNode"
  | .toggle => "MemoryToggleNode"
  | .swatch => "MemorySwatchNode"
  | .scribble => "MemoryScribbleNode"

/-- A node in one line. -/
def summary (n : Node) : String :=
  kindName n.kind ++ "(" ++ n.name.shown ++ ", id=" ++ (if n.id.isEmpty then "-" else n.id) ++ ")"

end Node

end Patchbay
