import Patchbay.Canvas.Graph
import Patchbay.Validation.Semantics

/-!
# The sides of a node

A node has its parameters on two sides, and what one side does so does the other.

* `Side.params`, `Side.specs` — what a node and a type have on a side
* `Side.register`, `Side.extend` — a parameter is added to a side, unless the side has it
  (**`Side.node_register`**).  The other side stays as it is.
-/

namespace Patchbay.Validation.Side

/-- The parameters of a side of a node. -/
def params (n : Node) : Side → List ParamRef
  | input => n.inputs
  | output => n.outputs

/-- The declared parameters of a side. -/
def specs (t : NodeType) : Side → List ParameterSpec
  | input => t.inputs
  | output => t.outputs

/-- Gives a script a parameter on a side, unless it has it there. -/
def register (side : Side) (g : Graph) (n : NodeRef) (p : ParamRef) : Graph :=
  match side with
  | input => g.registerInput n p
  | output => g.registerOutput n p

/-- A node with one more parameter on a side. -/
def extend (side : Side) (v : Node) (p : ParamRef) : Node :=
  match side with
  | input => { v with inputs := v.inputs ++ [p] }
  | output => { v with outputs := v.outputs ++ [p] }

variable (side : Side) {g : Graph} {n : NodeRef} {p : ParamRef} (v : Node)

theorem params_subset (n : Node) : side.params n ⊆ n.params := by
  cases side
  · exact List.subset_append_left _ _
  · exact List.subset_append_right _ _

theorem exists_mem_params (h : p ∈ v.params) : ∃ side : Side, p ∈ side.params v :=
  (List.mem_append.mp h).elim (fun h => ⟨.input, h⟩) fun h => ⟨.output, h⟩

theorem params_extend_self (p : ParamRef) : side.params (side.extend v p) = side.params v ++ [p] := by
  cases side <;> rfl

theorem params_extend_of_ne {side side' : Side} (h : side' ≠ side) (v : Node) (p : ParamRef) :
    side'.params (side.extend v p) = side'.params v := by
  cases side <;> cases side' <;> first | rfl | exact absurd rfl h

theorem perm_params_extend (p : ParamRef) : (side.extend v p).params.Perm (p :: v.params) := by
  cases side with
  | input =>
      change (v.inputs ++ [p] ++ v.outputs).Perm _
      rw [List.append_assoc]
      exact List.perm_middle
  | output =>
      change (v.inputs ++ (v.outputs ++ [p])).Perm _
      rw [← List.append_assoc]
      exact List.perm_append_singleton p v.params

theorem principal_extend (p : ParamRef) : (side.extend v p).principal = v.principal := by
  cases side <;> rfl

/-- The parameter gets its owner, and the node the parameter. -/
theorem register_eq (g : Graph) (n : NodeRef) (p : ParamRef) :
    side.register g n p = (g.updateParam p fun v => { v with owner := .node n }).updateNode n fun v =>
      if p ∈ side.params v then v else side.extend v p := by
  cases side <;> rfl

theorem node_register (hn : n.index < g.nodes.length) (p : ParamRef) : (side.register g n p).node n =
    if p ∈ side.params (g.node n) then g.node n else side.extend (g.node n) p := by
  rw [register_eq]
  exact Graph.node_setNode_self _ _ hn

theorem nodes_register : (side.register g n p).nodes.length = g.nodes.length := by
  cases side <;> exact List.length_set

theorem params_register : (side.register g n p).params.length = g.params.length := by
  cases side <;> exact List.length_set

end Patchbay.Validation.Side
