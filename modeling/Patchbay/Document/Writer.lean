import Patchbay.Document.Basic
import Patchbay.Json.Writer
import Patchbay.Token.Builtin
import Patchbay.Value.Equality

/-!
# Writing documents

* `Document.toValue` — a document as an object; what has its default is left out
* `Json.encode` — the JSON text of any value that has one
* `Document.text` — the JSON text of a document

Attributes of nodes may bring values into a document that JSON cannot hold. `Json.plainLeaf` says
what is written for them: positions and rectangles become objects, decimals numbers, colours and
geometric records tokens.
-/

namespace Patchbay

open scoped Powers

namespace Json

/-- A position as an object. -/
def positionValue (x y : Float) : Value := .object [("X", .float x), ("Y", .float y)]

/-- The plain value that is written for a value JSON cannot hold. -/
def plainLeaf (v : Value) : Except Fault Value :=
  match v with
  | .spot x y => .ok (positionValue x y)
  | .region x y width height =>
    .ok (.object [("X", .float x), ("Y", .float y), ("Width", .float width),
      ("Height", .float height)])
  | .decimal _ => v.toFloat.map .float
  | other =>
    if (Registry.builtin.forValue? other).isSome then
      match Registry.builtin.serialize other with
      | .ok token => .ok (.str token)
      | .error fault =>
        if fault.isCodecFault then
          .error (.unencodable other.kind.typeName (fault.message?.getD ""))
        else .error fault
    else .error .wrongKind

/-- The least width of an indentation that is out of range. -/
def indentLimit : Nat := 2 ^ (63 : Nat)

/-- The JSON text of a value, on one line or indented. -/
def encode (indent : Option Nat) (v : Value) : Except Fault String :=
  if indent.any (indentLimit ≤ ·) then .error .outOfRange
  else (toPlain plainLeaf v).map (render indent 0)

end Json

/-- An entry that is there only under a condition. -/
def entryIf (condition : Bool) (key : String) (value : Value) : Entries :=
  if condition then [(key, value)] else []

namespace Property

/-- A property as an object. -/
def toValue (p : Property) : Value :=
  .object ([("value", p.value), ("type", .str p.type)]
    ++ entryIf (!p.humanReadable.isNull) "humanReadable" p.humanReadable)

end Property

namespace Modifiers

/-- An entry for a flag that is recorded. -/
def flagEntry (key : String) : Option Bool → Entries
  | some b => [(key, .bool b)]
  | .none => []

/-- The recorded flags. -/
def entries (m : Modifiers) : Entries :=
  flagEntry "reverse" m.reverse ++ flagEntry "simplify" m.simplify ++ flagEntry "locked" m.locked
    ++ flagEntry "invert" m.invert

end Modifiers

namespace ParameterSettings

/-- Whether a value is there and not just the parameter's name. -/
def differs (s : ParameterSettings) (v : Value) : Bool := v.truthy && !v.sameAs s.name

/-- The mapping, if it is worth writing. -/
def mappingEntry : Option Mode → Entries
  | some (.mapping .none) | none => []
  | some m => [("dataMapping", .str m.code)]

/-- The modifiers, if any is recorded. -/
def modifiersEntry : Option Modifiers → Entries
  | some m => entryIf (!m.isEmpty) "additionalSettings" (.object m.entries)
  | none => []

/-- The access, if it is recorded. -/
def accessEntry : Option Mode → Entries
  | some a => [("access", .str a.code)]
  | none => []

/-- The settings of a parameter as entries: the name, and what differs from the defaults. -/
def entries (s : ParameterSettings) : Entries :=
  [("parameterName", s.name)]
    ++ entryIf (s.differs s.variableName) "variableName" s.variableName
    ++ entryIf s.typeHint.truthy "typeHint" s.typeHint
    ++ accessEntry s.access
    ++ entryIf s.description.truthy "description" s.description
    ++ entryIf (s.differs s.nickName) "nickName" s.nickName
    ++ entryIf s.required "required" (.bool true)
    ++ entryIf s.isPrincipal "isPrincipal" (.bool true)
    ++ mappingEntry s.mapping
    ++ entryIf s.expression.truthy "expression" s.expression
    ++ modifiersEntry s.modifiers

/-- The settings of a parameter as an object. -/
def toValue (s : ParameterSettings) : Value := .object s.entries

/-- Whether nothing but the name would be written. -/
def isDefault (s : ParameterSettings) : Bool := s.entries.length == 1

end ParameterSettings

namespace Component

/-- The pivot, if there is one. -/
def pivotEntry : Option (Position Float) → Entries
  | some p => [("pivot", Json.positionValue p.x p.y)]
  | none => []

/-- A component as an object. -/
def toValue (c : Component) : Value :=
  .object (
    [("name", c.name), ("componentGuid", c.typeKey), ("instanceGuid", .str c.id)]
      ++ pivotEntry c.pivot
      ++ [("selected", .bool c.selected),
        ("properties", .object (c.properties.map fun (name, p) => (name, p.toValue)))]
      ++ entryIf (!c.inputs.isEmpty) "inputSettings" (.list (c.inputs.map (·.toValue)))
      ++ entryIf (!c.outputs.isEmpty) "outputSettings" (.list (c.outputs.map (·.toValue)))
      ++ entryIf (!c.warnings.isEmpty) "warnings" (.list c.warnings)
      ++ entryIf (!c.errors.isEmpty) "errors" (.list c.errors))

end Component

/-- An endpoint as an object. -/
def Endpoint.toValue (e : Endpoint) : Value :=
  .object [("instanceId", .str e.id), ("name", e.name)]

/-- A connection as an object. -/
def Connection.toValue (c : Connection) : Value :=
  .object [("from", c.source.toValue), ("to", c.target.toValue)]

namespace Document

/-- A document as an object. -/
def toValue (d : Document) : Value :=
  .object [("components", .list (d.components.map Component.toValue)),
    ("connections", .list (d.connections.map Connection.toValue))]

/-- The JSON text of a document, on one line or indented. -/
def text (indent : Option Nat) (d : Document) : Except Fault String := Json.encode indent d.toValue

end Document

end Patchbay
