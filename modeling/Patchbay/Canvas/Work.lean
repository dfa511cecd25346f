import Patchbay.Canvas.Graph
import Patchbay.Decimal.Sum
import Patchbay.Journal
import Patchbay.Value.Equality

/-!
# Work on a live graph

* `Work α` — a computation that changes a graph, reports, and may fail
* `Work.graph`, `Work.update` — its steps
* `Work.feed`, `Work.unfeed`, `Work.isolate` — wires
* `Work.remove`, `Work.clear`, `Work.replaceParams` — nodes and their parameters
* `Work.maintain` — brings a script node in order

## Design decisions

* The steps that may fail stand beside the operations of `Graph`, which do not. Where nothing fails
  they do the same; a fault leaves what was done before it.
* A wire from an output that is not there is recorded at the input alone, as a gap among its
  sources. Whoever takes the sources away one by one fails at the gap.
-/

namespace Patchbay

/-- A computation that changes a graph, reports, and may fail. -/
abbrev Work (α : Type) := Procedure Graph α

namespace Work

open Procedure

/-- The graph as it is. -/
def graph : Work Graph := get

/-- Changes the graph. -/
def update (f : Graph → Graph) : Work Unit := modify f

/-! ### Wires -/

/-- Feeds an input from an output, each of which may be missing. -/
def feed : (source target : Option ParamRef) → Work Unit
  | some s, some t => do set (← ofResult ((← graph).connect s t))
  | none, some t => do
    update fun g => g.updateParam t fun p => { p with gap := p.gap.or (some p.sources.length) }
    throw .noAttribute
  | _, none => throw .noAttribute

/-- Takes the wire from an output to an input away; each of them may be missing. -/
def unfeed : (source target : Option ParamRef) → Work Unit
  | some s, some t => update fun g => g.disconnect s t
  | none, some t => do
    update fun g => g.updateParam t fun p => { p with gap := none }
    throw .noAttribute
  | _, none => throw .noAttribute

/-- Takes all wires of a parameter away, up to a gap among its sources. -/
def isolate (p : ParamRef) : Work Unit := do
  let v := (← graph).param p
  match v.gap with
  | none => update fun g => g.isolate p
  | some before =>
    update fun g => (v.sources.take before).foldl (fun g source => g.disconnect source p) g
    update fun g => g.updateParam p fun v => { v with gap := none }
    throw .noAttribute

/-- Takes all wires of a node away. -/
def isolateNode (n : NodeRef) : Work Unit := do ((← graph).node n).params.forM isolate

/-! ### Nodes and parameters -/

/-- Takes an input and its wires from a script node. -/
def unregisterInput (n : NodeRef) (p : ParamRef) : Work Unit := do
  if p ∈ ((← graph).node n).inputs then
    isolate p
    update fun g => g.unregisterInput n p

/-- Takes an output and its wires from a script node. -/
def unregisterOutput (n : NodeRef) (p : ParamRef) : Work Unit := do
  if p ∈ ((← graph).node n).outputs then
    isolate p
    update fun g => g.unregisterOutput n p

/-- Gives a script node fresh parameters of some names in place of those it has. -/
def replaceParams (n : NodeRef) (inputs outputs : List Value) : Work Unit := do
  let old := (← graph).node n
  old.inputs.forM (unregisterInput n)
  old.outputs.forM (unregisterOutput n)
  update fun g => g.replaceParams n inputs outputs

/-- Takes a node and its wires from the canvas. -/
def remove (n : NodeRef) : Work Unit := do
  if n ∈ (← graph).canvas then
    isolateNode n
    update fun g => g.remove n

/-- Takes all nodes from the canvas. -/
def clear : Work Unit := do (← graph).canvas.forM remove

/-! ### Maintenance -/

/-- Whether a value is a number from zero up to a bound. -/
def isBelow (bound : Nat) (v : Value) : Except Fault Bool :=
  match v.number? with
  | some (.nan ..) =>
    match v with
    | .decimal _ => .error .undefinedDecimal
    | _ => .ok false
  | some (.infinite _) => .ok false
  | some d => .ok (!d.lt (.ofInt 0) && d.lt (.ofInt bound))
  | none => .error .wrongKind

/-- The number after a number. -/
def successor : Value → Except Fault Value
  | .int i => .ok (.int (i + 1))
  | .bool b => .ok (.int (b.toNat + 1))
  | .float x => .ok (.float (x + 1.0))
  | .decimal d =>
    match d.add? (.ofInt 1) with
    | none => .error .undefinedDecimal
    | some none => .error .decimalOverflow
    | some (some sum) => .ok (.decimal sum)
  | _ => .error .wrongKind

/-- Brings a script node in order after its parameters changed: every parameter has a nick name, a
principal input that is not there is none, and the run is counted. -/
def maintain (n : NodeRef) : Work Unit := do
  update fun g => g.nameParams n
  let v := (← graph).node n
  if !(← ofResult (isBelow v.inputs.length v.principal)) then
    update fun g => g.updateNode n fun v => { v with principal := .int (-1) }
  let runs ← ofResult (successor (v.read .maintenanceRuns))
  update fun g => g.updateNode n fun v => v.put .maintenanceRuns runs

end Work

end Patchbay
