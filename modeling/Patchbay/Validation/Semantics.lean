import Patchbay.Canvas.Catalog
import Patchbay.Document.Reader
import Patchbay.Validation.DataType
import Patchbay.Validation.Structure

/-!
# The meaning of documents

Checks a document against the catalog of node types: component types that are not known are errors,
parameters that do not exist and data that may not convert are warnings.

* `endpointType` — the type of data at an end of a connection, and whether the parameter exists
* `checkSemantics`
* `validate` — both passes over a payload, which may be a text or a JSON value
-/

namespace Patchbay.Validation

/-- The type of each id; of a repeated id the last component counts. -/
abbrev FoundTypes := List (String × Option NodeType)

/-- The types of the components, by key and failing that by name. -/
def foundTypes (catalog : Catalog) (d : Document) : FoundTypes :=
  Keyed.ofList (d.components.map fun c => (c.id, (catalog.findKey? c.typeKey.text).or (catalog.findName? c.name.text)))

/-- Checks that the types of components are known by their keys. -/
def checkTypes (catalog : Catalog) (index : Nat) : List Component → Report
  | [] => .none
  | c :: rest =>
    .when (catalog.findKey? c.typeKey.text).isNone (.error (itemName "components" index ++ " '"
        ++ c.name.text ++ "' has unknown componentGuid '" ++ c.typeKey.text ++ "'."))
      ++ checkTypes catalog (index + 1) rest

/-- The side of a component that a connection ends at. -/
inductive Side
  | input | output
deriving Repr, DecidableEq

namespace Side

/-- The word for a parameter of a side. -/
def label : Side → String
  | input => "input"
  | output => "output"

/-- The recorded settings of a side. -/
def settings (c : Component) : Side → List ParameterSettings
  | input => c.inputs
  | output => c.outputs

/-- The declared parameter of a side. -/
def spec? (t : NodeType) (name : String) : Side → Option ParameterSpec
  | input => t.input? name
  | output => t.output? name

end Side

/-- What is known about an end of a connection. -/
structure EndpointType where
  /-- The type of the data, if it is known. -/
  type : Option DataType
  /-- Whether there is such a parameter, as far as can be told. -/
  found : Bool
deriving Repr, DecidableEq

/-- The type at an end of a connection. A recorded hint comes first, then the declared type. Scripts
may have any parameter. -/
def endpointType (types : DataTypes) (c : Component) (t : Option NodeType) (side : Side)
    (name : String) : Except Fault EndpointType := do
  let settings := side.settings c
  match settings.find? fun s => s.name.isText name || s.nickName.isText name with
  | some s =>
    if s.typeHint.truthy then return ⟨← types.ofHintValue s.typeHint, true⟩
  | none => pure ()
  match t with
  | none => return ⟨none, true⟩
  | some t =>
    match side.spec? t name with
    | some spec => return ⟨types.get? spec.typeName, true⟩
    | none => return ⟨none, t.kind == .script || settings.any fun s => s.name.isText name⟩

/-- The finding for a parameter that does not exist. -/
def noParameter (owner : String) (c : Component) (side : Side) (name : String) : Report :=
  .warning (owner ++ ": '" ++ c.name.text ++ "' has no " ++ side.label ++ " '" ++ name ++ "'.")

/-- The finding for data that may not convert. -/
def mayNotConvert (owner : String) (source target : Component) (s t : DataType) (c : Connection) :
    Report :=
  .warning (owner ++ ": " ++ s.name ++ " output '" ++ source.name.text ++ "." ++ c.source.paramName
    ++ "' may not convert to " ++ t.name ++ " input '" ++ target.name.text ++ "." ++ c.target.paramName ++ "'.")

/-- Checks a connection between two components. -/
def checkWire (types : DataTypes) (found : FoundTypes) (owner : String) (c : Connection)
    (source target : Component) : Except Fault Report := do
  let s ← endpointType types source (found.lookup source.id).join .output c.source.paramName
  let t ← endpointType types target (found.lookup target.id).join .input c.target.paramName
  return .when (!s.found) (noParameter owner source .output c.source.paramName)
    ++ .when (!t.found) (noParameter owner target .input c.target.paramName)
    ++ (match s.type, t.type with
      | some a, some b =>
        .when (!types.compatible (some a) (some b)) (mayNotConvert owner source target a b c)
      | _, _ => .none)

/-- Checks connections from an index on; those without two components are passed over. -/
def checkWires (types : DataTypes) (found : FoundTypes) (d : Document) (index : Nat) :
    List Connection → Except Fault Report
  | [] => .ok .none
  | c :: rest => do
    let report ←
      match d.component? c.source.id, d.component? c.target.id with
      | some source, some target =>
        checkWire types found (itemName "connections" index) c source target
      | _, _ => pure .none
    return report ++ (← checkWires types found d (index + 1) rest)

/-- Checks the meaning of a document. -/
def checkSemantics (types : DataTypes) (catalog : Catalog) (d : Document) : Except Fault Report := do
  return checkTypes catalog 0 d.components
    ++ (← checkWires types (foundTypes catalog d) d 0 d.connections)

/-! ### Both passes -/

/-- The object of a payload; a text is read as JSON. -/
def readPayload (payload : Value) : Except Fault (Except Report Entries) :=
  let empty := Report.error "JSON input is null or empty."
  let noObject := Report.error "Document root is not a JSON object."
  match payload with
  | .object entries => .ok (.ok entries)
  | .null => .ok (.error empty)
  | .str s =>
    if (Text.trim s).isEmpty then .ok (.error empty)
    else
      match Json.parse s with
      | .ok (.object entries) => .ok (.ok entries)
      | .ok _ => .ok (.error noObject)
      | .error (.notJson cause) => .ok (.error (.error (DocumentFault.message (.notJson cause))))
      | .error refusal => .error refusal.fault
  | _ => .ok (.error noObject)

/-- The semantic pass, if there is a catalog. -/
def checkMeaning (types : DataTypes) (catalog : Option Catalog) (d : Document) : Attempt Report :=
  match catalog with
  | some catalog => Attempt.ofExcept (checkSemantics types catalog d)
  | none => do
    ExceptT.lift (Logged.report (record "Validator" .debug
      "No type resolver, semantic checks skipped"))
    return .none

/-- Checks the structure of an object, and its meaning if the structure is good. -/
def checkObject (types : DataTypes) (catalog : Option Catalog) (entries : Entries) :
    Attempt Report := do
  if !citesIds entries then throw .unreadable
  let shape := checkStructure entries
  if !shape.isValid then return shape
  match Document.ofValue (.object entries) with
  | .error (.document place cause) =>
    return shape ++ .error (((Fault.document place cause).message?).getD "")
  | .error fault => throw fault
  | .ok d =>
    let report := shape ++ (← checkMeaning types catalog d)
    ExceptT.lift (Logged.report (record "Validator" .debug
      ("Validation finished: " ++ Text.integerText report.errors.length ++ " errors, "
        ++ Text.integerText report.warnings.length ++ " warnings")))
    return report

/-- Checks a payload. -/
def validate (types : DataTypes) (catalog : Option Catalog) (payload : Value) : Attempt Report := do
  match ← Attempt.ofExcept (readPayload payload) with
  | .error report => return report
  | .ok entries => checkObject types catalog entries

/-- Whether a payload is valid, with a text for readers if there are findings. -/
def analyze (types : DataTypes) (catalog : Option Catalog) (payload : Value) :
    Attempt (Bool × Option String) := do
  let report ← validate types catalog payload
  return (report.isValid, Catalog.given? (some report.text))

end Patchbay.Validation
