import Patchbay.Document.Writer
import Patchbay.Keyed
import Patchbay.Rebuild.Host

/-!
# Rebuilding wires

* `Rebuilt` — what became of a document
* `Graph.findSource?`, `Graph.findTarget?` — the parameter that an endpoint means
* `Work.wire`, `Work.wireAll` — the connections of a document between placed nodes

A connection that cannot be made is reported and counted. It never stops the others.
-/

namespace Patchbay

/-- What became of a document. -/
structure Rebuilt where
  /-- The names of the placed components, each once. -/
  names : List String
  /-- The ids of the document with the ids of the nodes. -/
  ids : List (String × String)
  /-- The ids of the document with the nodes. -/
  nodes : List (String × NodeRef)
  /-- The ids of the components that were not placed. -/
  skipped : List String
  /-- The number of connections made. -/
  made : Nat
  /-- The number of connections given up. -/
  dropped : Nat
deriving Repr, DecidableEq, Inhabited

namespace Rebuilt

/-- Nothing was placed. -/
def none : Rebuilt := ⟨[], [], [], [], 0, 0⟩

/-- One more connection was made. -/
def wired (r : Rebuilt) : Rebuilt := { r with made := r.made + 1 }

/-- One more connection was given up. -/
def gaveUp (r : Rebuilt) : Rebuilt := { r with dropped := r.dropped + 1 }

end Rebuilt

namespace Graph

/-- The only parameter of a floating parameter, which is meant by any name. -/
def onlyParam? (n : Node) (params : List ParamRef) : Option ParamRef :=
  match params with
  | [p] => if n.actsAs .parameter then some p else none
  | _ => none

/-- The output that an endpoint means. -/
def findSource? (g : Graph) (n : NodeRef) (name : String) : Option ParamRef :=
  (g.findOutput? n name).or (onlyParam? (g.node n) (g.node n).outputs)

/-- The input that an endpoint means. -/
def findTarget? (g : Graph) (n : NodeRef) (name : String) : Option ParamRef :=
  (g.findInput? n name).or (onlyParam? (g.node n) (g.node n).inputs)

end Graph

namespace Work

open Procedure

/-- The faults of a host that refuses a wire. -/
def isWireRefusal (f : Fault) : Bool :=
  match f.family with
  | .value | .kind | .host => true
  | _ => false

/-- Reports a connection between components that were not both placed. -/
def reportUnplaced (c : Connection) : Work Unit :=
  report .warning [.words ("Dropped connection " ++ c.source.id ++ "." ++ c.source.paramName ++ " -> "
    ++ c.target.id ++ "." ++ c.target.paramName ++ " (component not placed)")]

/-- Reports a connection between parameters that are not both there. -/
def reportUnknown (source target : Node) (c : Connection) : Work Unit :=
  report .warning [.words ("Dropped connection '" ++ source.name.text ++ "'." ++ c.source.paramName ++ " -> '"
    ++ target.name.text ++ "'." ++ c.target.paramName ++ " (parameter not found)")]

/-- Makes a connection between two placed nodes; returns whether it was made. -/
def wireNodes (h : Host) (c : Connection) (source target : NodeRef) : Work Bool := do
  let g ← graph
  match g.findSource? source c.source.paramName, g.findTarget? target c.target.paramName with
  | some s, some t =>
    recover isWireRefusal
      (do set (← ofResult (h.connect g s t)); return true)
      fun fault => do
        report .warning [.words ("Host refused connection '" ++ c.source.paramName ++ "' -> '"
          ++ c.target.paramName ++ "': "), .cause fault]
        return false
  | _, _ => do
    reportUnknown (g.node source) (g.node target) c
    return false

/-- Makes a connection, if both of its ends are complete and placed; returns whether it was made. -/
def wire (h : Host) (nodes : List (String × NodeRef)) (c : Connection) : Work Bool := do
  if !c.isValid then
    report .warning [.words ("Skipped incomplete connection " ++ c.toValue.shown)]
    return false
  match nodes.lookup c.source.id, nodes.lookup c.target.id with
  | some source, some target => wireNodes h c source target
  | _, _ => do
    reportUnplaced c
    return false

/-- Makes the connections of a document, and counts them. -/
def wireAll (h : Host) (r : Rebuilt) : List Connection → Work Rebuilt
  | [] => pure r
  | c :: rest => do
    let made ← wire h r.nodes c
    wireAll h (if made then r.wired else r.gaveUp) rest

end Work

end Patchbay
