import Patchbay.Canvas.Node
import Patchbay.IdSupply

/-!
# Live graphs

All nodes and parameters ever made, with the canvas that some of the nodes are on. Handles are
places in two lists that only grow, so a handle stays good whatever happens to its node.

* `Graph` — nodes, parameters, and the canvas
* `Graph.connect`, `Graph.disconnect`, `Graph.isolate` — wires
* `Graph.make`, `Graph.place`, `Graph.remove`, `Graph.clear` — nodes
* `Graph.registerInput`, `Graph.unregisterInput`, … — parameters of scripts
* `Graph.bounds?` — the rectangle around everything on the canvas

## Design decisions

* A wire is recorded at both of its ends, as a source of the input and as a recipient of the output.
  Both lists keep the order in which wires were made.
* A node gets a new id whenever it is placed, whatever id it had.
* A handle that was never given out shows a blank node or parameter.
-/

namespace Patchbay

/-! ### Graphs -/

/-- Live nodes and parameters, and the nodes on the canvas. -/
structure Graph where
  params : List Parameter
  nodes : List Node
  /-- The nodes on the canvas, in the order in which they were placed. -/
  canvas : List NodeRef
  ids : IdSupply

namespace Graph

/-- A graph without nodes. -/
def empty (ids : IdSupply) : Graph := ⟨[], [], [], ids⟩

/-- The parameter behind a handle. -/
def param (g : Graph) (p : ParamRef) : Parameter := g.params.getD p.index default

/-- The node behind a handle. -/
def node (g : Graph) (n : NodeRef) : Node := g.nodes.getD n.index default

/-- The graph with another parameter behind a handle. -/
def setParam (g : Graph) (p : ParamRef) (v : Parameter) : Graph :=
  { g with params := g.params.set p.index v }

/-- The graph with another node behind a handle. -/
def setNode (g : Graph) (n : NodeRef) (v : Node) : Graph :=
  { g with nodes := g.nodes.set n.index v }

/-- Changes a parameter. -/
def updateParam (g : Graph) (p : ParamRef) (f : Parameter → Parameter) : Graph :=
  g.setParam p (f (g.param p))

/-- Changes a node. -/
def updateNode (g : Graph) (n : NodeRef) (f : Node → Node) : Graph := g.setNode n (f (g.node n))

@[simp] theorem node_setParam (g : Graph) (p : ParamRef) (v : Parameter) (n : NodeRef) :
    (g.setParam p v).node n = g.node n := rfl

@[simp] theorem param_setNode (g : Graph) (n : NodeRef) (v : Node) (p : ParamRef) :
    (g.setNode n v).param p = g.param p := rfl

@[simp] theorem canvas_setParam (g : Graph) (p : ParamRef) (v : Parameter) :
    (g.setParam p v).canvas = g.canvas := rfl

@[simp] theorem canvas_setNode (g : Graph) (n : NodeRef) (v : Node) :
    (g.setNode n v).canvas = g.canvas := rfl

theorem param_setParam_self (g : Graph) {p : ParamRef} (v : Parameter)
    (h : p.index < g.params.length) : (g.setParam p v).param p = v := by
  simp [param, setParam, h]

theorem param_setParam_of_ne (g : Graph) {p q : ParamRef} (v : Parameter) (h : q ≠ p) :
    (g.setParam p v).param q = g.param q := by
  have hne : p.index ≠ q.index := fun e => h (by cases p; cases q; simp_all)
  simp [param, setParam, List.getD_eq_getElem?_getD, List.getElem?_set_ne hne]

theorem node_setNode_self (g : Graph) {n : NodeRef} (v : Node) (h : n.index < g.nodes.length) :
    (g.setNode n v).node n = v := by
  simp [node, setNode, h]

theorem node_setNode_of_ne (g : Graph) {n m : NodeRef} (v : Node) (h : m ≠ n) :
    (g.setNode n v).node m = g.node m := by
  have hne : n.index ≠ m.index := fun e => h (by cases n; cases m; simp_all)
  simp [node, setNode, List.getD_eq_getElem?_getD, List.getElem?_set_ne hne]

/-- A handle for a new parameter. -/
def newParam (g : Graph) (v : Parameter) : ParamRef × Graph :=
  (⟨g.params.length⟩, { g with params := g.params ++ [v] })

/-! ### Wires -/

/-- Feeds `target` from `source`. A wire that is there already stays the only one, and a parameter
cannot feed itself. -/
def connect (g : Graph) (source target : ParamRef) : Except Fault Graph :=
  if source = target then .error (.selfWire (g.param target).name.text)
  else if source ∈ (g.param target).sources then .ok g
  else
    .ok ((g.updateParam target fun p => p.addSource source).updateParam source fun p =>
      { p with recipients := p.recipients ++ [target] })

/-- Takes the wire from `source` to `target` away, if it is there. -/
def disconnect (g : Graph) (source target : ParamRef) : Graph :=
  if source ∈ (g.param target).sources then
    (g.updateParam target fun p => p.dropSource source).updateParam source fun p =>
      { p with recipients := p.recipients.erase target }
  else g

/-- Takes all wires of a parameter away. -/
def isolate (g : Graph) (p : ParamRef) : Graph :=
  let g := (g.param p).sources.foldl (fun g source => g.disconnect source p) g
  (g.param p).recipients.foldl (fun g target => g.disconnect p target) g

/-- Takes all wires of a node away. -/
def isolateNode (g : Graph) (n : NodeRef) : Graph := (g.node n).params.foldl isolate g

/-! ### Parameters of nodes -/

/-- The handles of new parameters of declared forms, in order. -/
def newParams (g : Graph) (owner : NodeRef) : List ParameterSpec → List ParamRef × Graph
  | [] => ([], g)
  | spec :: rest =>
    let (p, g) := g.newParam (.ofSpec spec (.node owner))
    let (ps, g) := newParams g owner rest
    (p :: ps, g)

/-- Gives a script node an input, unless it has it already. -/
def registerInput (g : Graph) (n : NodeRef) (p : ParamRef) : Graph :=
  (g.updateParam p fun v => { v with owner := .node n }).updateNode n fun v =>
    if p ∈ v.inputs then v else { v with inputs := v.inputs ++ [p] }

/-- Gives a script node an output, unless it has it already. -/
def registerOutput (g : Graph) (n : NodeRef) (p : ParamRef) : Graph :=
  (g.updateParam p fun v => { v with owner := .node n }).updateNode n fun v =>
    if p ∈ v.outputs then v else { v with outputs := v.outputs ++ [p] }

/-- Takes an input and its wires from a script node. -/
def unregisterInput (g : Graph) (n : NodeRef) (p : ParamRef) : Graph :=
  if p ∈ (g.node n).inputs then
    (g.isolate p).updateNode n fun v => { v with inputs := v.inputs.erase p }
  else g

/-- Takes an output and its wires from a script node. -/
def unregisterOutput (g : Graph) (n : NodeRef) (p : ParamRef) : Graph :=
  if p ∈ (g.node n).outputs then
    (g.isolate p).updateNode n fun v => { v with outputs := v.outputs.erase p }
  else g

/-- Takes all parameters and their wires from a script node. -/
def unregisterAll (g : Graph) (n : NodeRef) : Graph :=
  let inputs := (g.node n).inputs
  let outputs := (g.node n).outputs
  let g := inputs.foldl (fun g p => g.unregisterInput n p) g
  outputs.foldl (fun g p => g.unregisterOutput n p) g

/-- Gives a script node fresh parameters of some names in place of those it has. -/
def replaceParams (g : Graph) (n : NodeRef) (inputs outputs : List Value) : Graph :=
  let fresh := fun (register : Graph → NodeRef → ParamRef → Graph) (g : Graph) name =>
    let (p, g) := g.newParam (.ofVariable name)
    register g n p
  outputs.foldl (fresh registerOutput) (inputs.foldl (fresh registerInput) (g.unregisterAll n))

/-- Gives a parameter without a nick name its name as one. -/
def nameParam (p : Parameter) : Parameter :=
  if p.nickName.truthy then p else { p with nickName := p.name }

/-- Gives every parameter of a node that has no nick name its name as one. -/
def nameParams (g : Graph) (n : NodeRef) : Graph :=
  (g.node n).params.foldl (fun g p => g.updateParam p nameParam) g

/-- The first of a node's parameters with a name; failing that, with a nick name. -/
def findParam? (g : Graph) (params : List ParamRef) (name : String) : Option ParamRef :=
  match params.find? fun p => (g.param p).name.isText name with
  | some p => some p
  | none => params.find? fun p => (g.param p).nickName.isText name

/-- The input of a name or nick name. -/
def findInput? (g : Graph) (n : NodeRef) (name : String) : Option ParamRef :=
  g.findParam? (g.node n).inputs name

/-- The output of a name or nick name. -/
def findOutput? (g : Graph) (n : NodeRef) (name : String) : Option ParamRef :=
  g.findParam? (g.node n).outputs name

/-! ### Nodes -/

/-- A new node of a type, not yet on the canvas. -/
def make (g : Graph) (t : NodeType) : NodeRef × Graph :=
  let n : NodeRef := ⟨g.nodes.length⟩
  let (inputs, g) := g.newParams n t.inputs
  let (outputs, g) := g.newParams n t.outputs
  let node : Node := {
    id := ""
    typeKey := .str t.key
    name := .str t.name
    kind := t.kind
    language := t.language.getD .csharp
    pivot := .spot 0 0
    principal := .int (-1)
    inputs
    outputs
    attributes := .initial t }
  (n, { g with nodes := g.nodes ++ [node] })

/-- Places a node on the canvas under a new id. -/
def place (g : Graph) (n : NodeRef) (p : Position Float) : Graph :=
  let (id, ids) := g.ids.next
  let g := { g with ids }.updateNode n fun v => { v with id, pivot := .spot p.x p.y }
  if n ∈ g.canvas then g else { g with canvas := g.canvas ++ [n] }

/-- Takes a node and its wires from the canvas. -/
def remove (g : Graph) (n : NodeRef) : Graph :=
  if n ∈ g.canvas then
    let g := g.isolateNode n
    { g with canvas := g.canvas.erase n }
  else g

/-- Takes all nodes from the canvas. -/
def clear (g : Graph) : Graph := g.canvas.foldl remove g

/-- The same nodes with a new canvas. -/
def newCanvas (g : Graph) : Graph := { g with canvas := [] }

/-- The node on the canvas with an id. -/
def find? (g : Graph) (id : String) : Option NodeRef := g.canvas.find? fun n => (g.node n).id == id

/-- The rectangle around all nodes of the canvas. -/
def bounds? (g : Graph) : Except Fault (Option (Frame Float)) := do
  return Frame.aroundAll (← g.canvas.mapM fun n => Frame.ofPivot <$> (g.node n).position)

end Graph

end Patchbay
