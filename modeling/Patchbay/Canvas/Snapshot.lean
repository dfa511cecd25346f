import Patchbay.Canvas.Graph
import Patchbay.DataTree
import Patchbay.Value.Tagged

/-!
# Snapshots

The state of live nodes and parameters as values, in which every attribute keeps its kind.

* `Graph.citeParam` — a parameter by its owner, its side and its name
* `Graph.showParam`, `Graph.showNode`, `Graph.showCanvas` — snapshots

A snapshot fails where a parameter is in a state that cannot be shown: with a mode that is none, a
gap among its sources, or a wire to something that is no node's.
-/

namespace Patchbay

/-- Whatever stands in the place of a data tree: a tree as its branches with the texts of their
paths, an object likewise, everything else in its tagged form. -/
def DataTree.show (v : Value) : Except Fault Value :=
  match v with
  | .tree branches =>
    .ok (.list (branches.map fun (path, items) =>
      .list [.str (pathText path), .list (items.map Value.tagged)]))
  | .object entries => do
    let branches ← branchItems entries
    return .list (branches.map fun (key, items) =>
      .list [.str key, .list (items.map Value.tagged)])
  | other => .ok other.tagged

namespace Graph

/-- A parameter by its owner, its side and its name. -/
def citeParam (g : Graph) (p : ParamRef) : Except Fault Value :=
  let v := g.param p
  match v.owner with
  | .nobody => .ok (.str ("-/in/" ++ v.name.text))
  | .stranger => .error .noAttribute
  | .node n =>
    let owner := g.node n
    let side := if p ∈ owner.outputs then "/out/" else "/in/"
    .ok (.str (owner.id ++ side ++ v.name.text))

/-- The snapshot of a parameter. -/
def showParam (g : Graph) (r : ParamRef) : Except Fault Value := do
  let p := g.param r
  if p.gap.isSome then throw .noAttribute
  return .object [
    ("name", p.name.tagged),
    ("nick", p.nickName.tagged),
    ("variable", p.variableName.tagged),
    ("description", p.description.tagged),
    ("type_name", p.typeName),
    ("access", .str (← p.access.code)),
    ("mapping", .str (← p.mapping.code)),
    ("flags", .list ([p.simplify, p.reverse, p.locked, p.invert, p.optional].map Value.tagged)),
    ("expression", p.expression.tagged),
    ("converter", p.converter.tagged),
    ("hint", p.typeHint.tagged),
    ("data", ← DataTree.show p.persistentData),
    ("sources", .list (← p.sources.mapM g.citeParam)),
    ("recipients", .list (← p.recipients.mapM g.citeParam))]

/-- The attributes that only some kinds of nodes have, as far as a node has them. -/
def showAttributes (n : Node) : Except Fault Entries :=
  (Attribute.ofKinds.filterMap fun (a, name) => (n.attributes.get? a).map fun v => (a, name, v)).mapM
    fun (a, name, v) => do
      return (name, ← if a = .persistentData then DataTree.show v else pure v.tagged)

/-- The snapshot of a node. -/
def showNode (g : Graph) (r : NodeRef) : Except Fault Value := do
  let n := g.node r
  let place ← n.position
  return .object [
    ("id", .str n.id),
    ("guid", n.typeKey),
    ("name", n.name),
    ("nick", (n.read .nickName).tagged),
    ("kind", .str (← n.kindCode)),
    ("pivot", Tagged.numbers [place.x, place.y]),
    ("selected", (n.read .selected).tagged),
    ("locked", (n.read .locked).tagged),
    ("hidden", (n.read .hidden).tagged),
    ("warnings", (n.read .warnings).tagged),
    ("errors", (n.read .errors).tagged),
    ("principal", n.principal),
    ("inputs", .list (← n.inputs.mapM g.showParam)),
    ("outputs", .list (← n.outputs.mapM g.showParam)),
    ("attrs", .object (← showAttributes n))]

/-- The snapshots of all nodes on the canvas. -/
def showCanvas (g : Graph) : Except Fault Value := do return .list (← g.canvas.mapM g.showNode)

end Graph

end Patchbay
