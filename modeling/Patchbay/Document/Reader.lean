import Patchbay.Document.Basic
import Patchbay.Json.Reader
import Patchbay.Value.Choice

/-!
# Reading documents

A document is read from a JSON value with patience: fields may be missing or null, older spellings
are accepted, and values of the wrong kind fall back to a default where there is one. What cannot
be read is a `DocumentFault` with the place of the component or connection.

Some values are beyond that patience and end the reading with a fault of another kind: settings in a
field that has no items, modifiers that are no object, a mapping that only looks like a number, a
coordinate beyond the doubles, and an integer with too many digits where a text is made of it.

* `readPivot` — a position as an object, a pair, or a text
* `Property.ofValue`, `Property.read`, `Modifiers.ofValue`, `ParameterSettings.ofValue`, `ListItem.ofValue`
* `Component.ofValue`, `Endpoint.ofValue`, `Connection.ofValue`
* `Document.ofValue`, `Document.parse`
-/

namespace Patchbay

/-- The text of a field, empty for everything that counts as absent. -/
def textField (entries : Entries) (key : String) : Except Fault String :=
  ((Value.field entries key).orElse (.str "")).text?

/-- The value under the first of several keys that is there, be it null; else null. -/
def firstField (entries : Entries) (keys : List String) : Value :=
  (keys.findSome? fun key => Entries.get? entries key).getD .null

/-! ### Pivots -/

/-- Two coordinates; nothing if one of them is no number. Numbers out of range are a fault. -/
def readPosition (x y : Value) : Except Fault (Option (Position Float)) :=
  match x.toFloat with
  | .error .outOfRange => .error .outOfRange
  | .error _ => .ok none
  | .ok x =>
    match y.toFloat with
    | .error .outOfRange => .error .outOfRange
    | .error _ => .ok none
    | .ok y => .ok (some ⟨x, y⟩)

/-- Reads a pivot: an object with `X` and `Y`, a list of two, or a text with a comma. Whatever is
none of these is no pivot. -/
def readPivot (v : Value) : Except Fault (Option (Position Float)) :=
  match v with
  | .str s =>
    match Text.splitOn ',' s.toList with
    | [x, y] => readPosition (.str (String.ofList x)) (.str (String.ofList y))
    | _ => .ok none
  | .object entries =>
    let x := firstField entries ["X", "x"]
    let y := firstField entries ["Y", "y"]
    if x.isNull || y.isNull then .ok none else readPosition x y
  | .list [x, y] => readPosition x y
  | _ => .ok none

/-! ### Properties and settings -/

/-- Reads a property. A value that is no record of one is the property's value itself. -/
def Property.ofValue (v : Value) : Property :=
  match v with
  | .object entries =>
    match Entries.get? entries "value" with
    | some value =>
      ⟨value, ((Value.field entries "type").orElse (.str value.jsonTypeName)).text,
        Value.field entries "humanReadable"⟩
    | none => ⟨v, v.jsonTypeName, .null⟩
  | _ => ⟨v, v.jsonTypeName, .null⟩

/-- The recorded label of a property. -/
def Property.label : Value → Value
  | .object entries => if (Entries.get? entries "value").isSome then Value.field entries "type" else .null
  | _ => .null

/-- Reads a property whose label can be written. -/
def Property.read (v : Value) : Except Fault Property :=
  if (label v).hasText then .ok (ofValue v) else .error .unreadable

/-- A flag that is recorded unless it is null. -/
def readFlag (entries : Entries) (key : String) : Option Bool :=
  match Value.field entries key with
  | .null => none
  | v => some v.truthy

/-- Reads modifier flags; nothing if none is recorded. -/
def Modifiers.ofValue (v : Value) : Option Modifiers :=
  match v with
  | .object entries =>
    let m : Modifiers := ⟨readFlag entries "reverse", readFlag entries "simplify",
      readFlag entries "locked", readFlag entries "invert"⟩
    if m.isEmpty then .none else some m
  | _ => .none

/-- A field of an object that may be absent; other values that count as present have no fields. -/
def nestedField (v : Value) (key : String) : Except Fault (Option Value) :=
  if !v.truthy then .ok none
  else
    match v with
    | .object entries => .ok (Entries.get? entries key)
    | _ => .error .noAttribute

/-- A mapping that is recorded unless it is null. -/
def readMapping : Value → Except Fault (Option Mode)
  | .null => .ok none
  | v => (Mapping.read v).map fun m => some (.mapping m)

/-- An access that is recorded unless it is null. -/
def readAccess : Value → Option Mode
  | .null => none
  | v => some (.access (Access.read .item v))

/-- Reads the settings of a parameter. The principal flag may stand among the modifiers. -/
def ParameterSettings.ofValue (v : Value) : Except Fault ParameterSettings :=
  match v with
  | .object entries => do
    let field := Value.field entries
    let name := ((field "parameterName").orElse (field "name")).orElse (field "variableName")
    if !name.truthy then throw (.document none .unnamedParameter)
    let name ← name.text?
    let nested ← nestedField (field "additionalSettings") "isPrincipal"
    let principal := ((Entries.get? entries "isPrincipal").or nested).getD (.bool false)
    let mapping ← readMapping (field "dataMapping")
    return {
      name := .str name
      variableName := field "variableName"
      typeHint := field "typeHint"
      access := readAccess (field "access")
      description := field "description"
      nickName := field "nickName"
      required := (field "required").truthy
      isPrincipal := principal.truthy
      mapping
      expression := field "expression"
      modifiers := Modifiers.ofValue (field "additionalSettings") }
  | _ => .error (.document none (.notAnObject .settings))

/-- Reads a line of a value list. -/
def ListItem.ofValue (v : Value) : Except Fault ListItem := do
  match v with
  | .object entries =>
    let get := fun keys (default : Value) =>
      (List.findSome? (fun key => Entries.get? entries key) keys).getD default
    let name := get ["Name", "name"] (.str "")
    let expression := get ["Expression", "expression"] name
    let selected := get ["Selected", "selected"] (.bool false)
    return ⟨← name.text?, ← expression.text?, selected.truthy⟩
  | _ => throw .noAttribute

/-- A line of a value list as an object. -/
def ListItem.toValue (i : ListItem) : Value :=
  .object [("Name", .str i.name), ("Expression", .str i.expression), ("Selected", .bool i.selected)]

/-! ### Components and connections -/

/-- Reads the settings in a field. Values without items are a fault, unless they count as
absent. -/
def readSettings (v : Value) : Except Fault (List ParameterSettings) := do
  if !v.truthy then return []
  (← v.elements).mapM ParameterSettings.ofValue

/-- The texts of the items of a list; nothing else has any. -/
def readMessages : Value → Except Fault (List Value)
  | .list items => items.mapM fun v => v.text?.map .str
  | _ => .ok []

/-- The entries of the properties field. -/
def readProperties (v : Value) : Except Fault Entries :=
  if !v.truthy then .ok []
  else
    match v with
    | .object entries => .ok entries
    | _ => .error (.document none (.notAnObject .properties))

/-- Reads a component. -/
def Component.ofValue (v : Value) : Except Fault Component :=
  match v with
  | .object entries => do
    let field := Value.field entries
    let properties ← readProperties (field "properties")
    let name ← textField entries "name"
    let typeKey ← textField entries "componentGuid"
    let id ← textField entries "instanceGuid"
    let pivot ← readPivot (field "pivot")
    let properties ← properties.mapM fun entry => (Property.read entry.2).map (Prod.mk entry.1)
    let inputs ← readSettings (field "inputSettings")
    let outputs ← readSettings (field "outputSettings")
    let warnings ← readMessages (field "warnings")
    let errors ← readMessages (field "errors")
    return {
      name := .str name
      typeKey := .str typeKey
      id
      pivot
      selected := (field "selected").truthy
      properties
      inputs
      outputs
      warnings
      errors }
  | _ => .error (.document none (.notAnObject .component))

/-- The text of a reference, empty for null. -/
def referenceText : Value → Except Fault String
  | .null => .ok ""
  | v => v.text?

/-- Reads an endpoint, under any of the spellings of its keys. -/
def Endpoint.ofValue (v : Value) : Except Fault Endpoint :=
  match v with
  | .object entries => do
    let id ← referenceText (firstField entries ["instanceId", "componentId", "id"])
    let name ← referenceText (firstField entries ["name", "paramName"])
    return ⟨id, .str name⟩
  | _ => .error (.document none (.notAnObject .endpoint))

/-- Reads a connection. -/
def Connection.ofValue (v : Value) : Except Fault Connection :=
  match v with
  | .object entries => do
    return ⟨← Endpoint.ofValue (Value.field entries "from"), ← Endpoint.ofValue (Value.field entries "to")⟩
  | _ => .error (.document none (.notAnObject .connection))

/-! ### Documents -/

/-- A fault of the document model, at a place of the document. -/
def Fault.within (part : DocumentSection) (index : Nat) : Fault → Fault
  | .document _ cause => .document (some (part, index)) cause
  | other => other

/-- Reads the items of a section from a place on. -/
def readSection {α : Type} (part : DocumentSection) (read : Value → Except Fault α) :
    (index : Nat) → List Value → Except Fault (List α)
  | _, [] => .ok []
  | index, v :: rest =>
    match read v with
    | .error fault => .error (fault.within part index)
    | .ok a => (readSection part read (index + 1) rest).map (a :: ·)

/-- The items of a section; a section that is not there has none. -/
def sectionItems (entries : Entries) (part : DocumentSection) : Except Fault (List Value) :=
  match Entries.get? entries part.key with
  | none => .ok []
  | some (.list items) => .ok items
  | some _ => .error (.document none (.notAnArray part))

/-- Reads a document. -/
def Document.ofValue (v : Value) : Except Fault Document :=
  match v with
  | .object entries => do
    let components ← sectionItems entries .components
    let connections ← sectionItems entries .connections
    return ⟨← readSection .components Component.ofValue 0 components,
      ← readSection .connections Connection.ofValue 0 connections⟩
  | _ => .error (.document none (.notAnObject .document))

/-- A text that is not read, as a fault of documents. -/
def Json.Refusal.fault : Json.Refusal → Fault
  | notJson cause => .document none (.notJson cause)
  | longInteger => .unreadable
  | deepNesting => .deepNesting

/-- Reads a document from its JSON text. -/
def Document.parse (text : String) : Except Fault Document :=
  match Json.parse text with
  | .ok v => Document.ofValue v
  | .error refusal => .error refusal.fault

end Patchbay
