import Patchbay.Canvas.Graph
import Patchbay.Document.Writer
import Patchbay.Property.Table
import Patchbay.Signature.Hint
import Patchbay.TypeHint

/-!
# Capture

Makes a document of live nodes. The table of properties says which properties are read; capture
adds the record of the graph: types, ids, pivots, messages, the settings of parameters, and the
connections.

* `CaptureOptions` — what goes into the document
* `Parameter.plainSettings`, `Parameter.scriptSettings` — the settings of a parameter
* `Graph.captureNode` — the component of a node
* `Graph.connectionsAmong` — the wires between some nodes
* `Graph.capture` — the document of some nodes

## Design decisions

* Wires are read at the outputs, so each of them is met once. Wires that leave the captured nodes
  are not recorded.
* What capture cannot write stops it: modes of parameters that are none, and wires to parameters of
  something that is no node.
* Parameters of scripts are always recorded, since a script cannot be rebuilt without them; others
  only if they differ from a new parameter.
-/

namespace Patchbay

/-- What goes into a document. -/
structure CaptureOptions where
  context : Context
  persistentData : Bool
  settings : Bool
  humanReadable : Bool
  messages : Bool
  pivots : Bool
  selection : Bool
deriving Repr, DecidableEq

namespace CaptureOptions

/-- Everything. -/
def full : CaptureOptions := ⟨.full, true, true, true, true, true, true⟩

/-- Lean documents for language models. -/
def lean : CaptureOptions := { full with context := .ai, humanReadable := false, selection := false }

/-- The properties that are left out. -/
def excluded (o : CaptureOptions) : List String := if o.persistentData then [] else ["PersistentData"]

end CaptureOptions

/-! ### Parameters -/

/-- A modifier flag, recorded if it is set. -/
def setFlag (v : Value) : Option Bool := if v.truthy then some true else none

namespace Parameter

/-- The modifier flags that are set. -/
def modifiers (p : Parameter) : Option Modifiers :=
  let m : Modifiers := ⟨setFlag p.reverse, setFlag p.simplify, setFlag p.locked, setFlag p.invert⟩
  if m.isEmpty then none else some m

/-- Whether a mode can be written: it is a choice or null. -/
def isMode (v : Value) : Bool := v.isNull || v.mode?.isSome

/-- Whether the mapping of a parameter can be written. -/
def hasMapping (p : Parameter) : Bool := isMode p.mapping

/-- Whether the access and the mapping of a parameter can be written. -/
def hasModes (p : Parameter) : Bool := isMode p.access && p.hasMapping

/-- The settings of a parameter. -/
def plainSettings (p : Parameter) (isPrincipal : Bool) : ParameterSettings :=
  { ParameterSettings.named p.name with
    nickName := p.nickName
    isPrincipal
    mapping := p.mapping.mode?
    expression := p.expression
    modifiers := p.modifiers }

end Parameter

/-- The display name behind a variable of any kind. In a known language only texts are read; without
one a variable is its own display name. -/
def Language.unsanitizeValue (language : Option Language) (identifier : Value) :
    Except Fault Value :=
  match language, identifier with
  | none, v | some .vb, v => .ok v
  | some l, .str s => (l.unsanitize s).map Value.str
  | some _, _ => .error .noAttribute

namespace Parameter

private def tell (text : String) : Logged Unit :=
  Logged.report (record "Extractor" .debug text)

/-- The hint that a script in a known language declares for a parameter. -/
def declaredHint (p : Parameter) (language : Option Language) (script : Value) :
    Logged (Option String) :=
  match language with
  | some l => Signature.extract l script p.identifier
  | none => pure none

/-- The hint of a script parameter: as its script declares it, else as it is inferred. -/
def hint (p : Parameter) (language : Option Language) (script : Value) : Logged Value := do
  match ← p.declaredHint language script with
  | some hint =>
    if hint.isEmpty then inferred
    else do
      tell ("Type hint for '" ++ p.name.text ++ "' read from signature: " ++ hint)
      return .str hint
  | none => inferred
where
  inferred : Logged Value := do
    let hint ← TypeHint.infer TypeHint.defaultProviders ⟨p.typeHint, p.converter⟩
    tell ("Type hint for '" ++ p.name.text ++ "' inferred: " ++ hint.text)
    return hint

/-- The settings of a script parameter. -/
def scriptSettings (p : Parameter) (language : Option Language) (script : Value)
    (isPrincipal : Bool) : Attempt ParameterSettings := do
  let typeHint ← ExceptT.lift (p.hint language script)
  let variableName ← Attempt.ofExcept (Language.unsanitizeValue language p.identifier)
  return { p.plainSettings isPrincipal with
    variableName
    typeHint
    access := p.access.mode?
    description := if p.description.truthy then p.description else .null
    required := !p.optional.truthy }

end Parameter

/-! ### Nodes -/

namespace Graph

/-- The inputs of a node, each with whether it is the principal one. -/
def markedInputs (g : Graph) (n : Node) : List (Parameter × Bool) :=
  (n.inputs.zipIdx).map fun (p, i) => (g.param p, (Value.int i).sameAs n.principal)

/-- The settings of the inputs and of the outputs of a node, as far as they are recorded. -/
def captureSettings (g : Graph) (n : Node) :
    Attempt (List ParameterSettings × List ParameterSettings) := do
  let inputs := g.markedInputs n
  let outputs := n.outputs.map g.param
  if n.actsAs .script then
    let script := (n.read .scriptText).orElse (.str "")
    let settings := fun (p : Parameter) principal => do
      p.scriptSettings (← Attempt.ofExcept n.actingLanguage) script principal
    let inputs ← inputs.mapM fun (p, principal) => settings p principal
    let outputs ← outputs.mapM fun p => settings p false
    return (inputs, outputs)
  else
    if !(inputs.all fun (p, _) => p.hasMapping) || !(outputs.all Parameter.hasMapping) then
      throw .noAttribute
    return (
      (inputs.map fun (p, principal) => p.plainSettings principal).filter fun s => !s.isDefault,
      (outputs.map fun p => p.plainSettings false).filter fun s => !s.isDefault)

/-- The runtime messages of a node. -/
def captureMessages (o : CaptureOptions) (v : Value) : Except Fault (List Value) :=
  if o.messages then v.elements else .ok []

/-- The pivot of a node, which must be a spot. -/
def capturePivot (o : CaptureOptions) (n : Node) : Except Fault (Option (Position Float)) :=
  match n.pivot with
  | .spot x y => .ok (if o.pivots then some ⟨x, y⟩ else none)
  | _ => if o.pivots then .error .wrongKind else .ok none

/-- The component of a node. -/
def captureNode (g : Graph) (o : CaptureOptions) (t : PropertyTable) (r : NodeRef) :
    Attempt Component := do
  let n := g.node r
  let properties ← t.capture o.context o.humanReadable o.excluded n
  let (inputs, outputs) ←
    if o.settings && o.context.hasSettings then g.captureSettings n else pure ([], [])
  let pivot ← Attempt.ofExcept (capturePivot o n)
  let warnings ← Attempt.ofExcept (captureMessages o (n.read .warnings))
  let errors ← Attempt.ofExcept (captureMessages o (n.read .errors))
  return {
    name := n.name
    typeKey := n.typeKey
    id := n.id
    pivot
    selected := o.selection && (n.read .selected).truthy
    properties
    inputs
    outputs
    warnings
    errors }

/-! ### Documents -/

/-- The connection that a wire is, if it ends at a node with one of the ids. -/
def connection? (g : Graph) (ids : List String) (source : Endpoint) (recipient : ParamRef) :
    Option Connection := do
  let p := g.param recipient
  let owner := g.node (← p.owner.node?)
  if ids.contains owner.id then some ⟨source, ⟨owner.id, p.name⟩⟩ else none

/-- The wires that leave a node for a node with one of the ids. -/
def connectionsOf (g : Graph) (ids : List String) (r : NodeRef) : List Connection :=
  let n := g.node r
  n.outputs.flatMap fun output =>
    let p := g.param output
    p.recipients.filterMap (g.connection? ids ⟨n.id, p.name⟩)

/-- The wires between some nodes, in the order of the nodes and of their outputs. -/
def connectionsAmong (g : Graph) (nodes : List NodeRef) : List Connection :=
  let ids := nodes.map fun n => (g.node n).id
  nodes.flatMap (g.connectionsOf ids)

/-- The nodes of a list whose id no earlier one has. -/
def distinct (g : Graph) : (seen : List String) → List NodeRef → List NodeRef
  | _, [] => []
  | seen, n :: rest =>
    let id := (g.node n).id
    if seen.contains id then distinct g seen rest else n :: distinct g (id :: seen) rest

/-- Whether the wires of a node lead to parameters of nodes, or of nobody. -/
def hasPlainWires (g : Graph) (r : NodeRef) : Bool :=
  (g.node r).outputs.all fun output =>
    (g.param output).recipients.all fun p => (g.param p).owner != .stranger

/-- Whether the settings of a script that capture records can be written. -/
def hasPlainScript (g : Graph) (r : NodeRef) : Bool :=
  !(g.node r).actsAs .script || (g.node r).params.all fun p => (g.param p).hasModes

/-- The document of some nodes, each once. -/
def capture (g : Graph) (o : CaptureOptions) (t : PropertyTable) (nodes : List NodeRef) :
    Attempt Document := do
  let nodes := g.distinct [] nodes
  let components ← nodes.mapM (g.captureNode o t)
  if !nodes.all g.hasPlainWires then throw .noAttribute
  let connections := g.connectionsAmong nodes
  ExceptT.lift (Logged.report (record "Extractor" .info
    ("Extracted " ++ Text.integerText components.length ++ " components, "
      ++ Text.integerText connections.length ++ " connections")))
  if o.settings && o.context.hasSettings && !nodes.all g.hasPlainScript then throw .noAttribute
  return ⟨components, connections⟩

end Graph

end Patchbay
