import Patchbay.Canvas.Work

/-!
# The host of rebuilding

* `Host` — how the host makes nodes and wires
* `Work.report` — a report of rebuilding

## Design decisions

* A host may refuse nodes and wires. It is given to the computation as a value, so that whatever a
  host does is covered.
-/

namespace Patchbay

/-- Makes one record under the tag of rebuilding. -/
def Work.report (level : Level) (message : List Piece) : Work Unit :=
  Procedure.logged (Logged.report ⟨"Reconstruction", level, message⟩)

/-- How the host makes nodes and wires. -/
structure Host where
  /-- A new node of a type. -/
  make : Graph → NodeType → Except Fault (NodeRef × Graph)
  /-- A wire from an output to an input. -/
  connect : Graph → (source target : ParamRef) → Except Fault Graph

namespace Host

/-- The host that makes everything it is asked for. -/
def live : Host := ⟨fun g t => .ok (g.make t), Graph.connect⟩

/-- The host that makes no nodes. -/
def withoutNodes (fault : Fault) : Host := { live with make := fun _ _ => .error fault }

/-- The host that makes no wires. -/
def withoutWires (h : Host) (fault : Fault) : Host := { h with connect := fun _ _ _ => .error fault }

end Host

end Patchbay
