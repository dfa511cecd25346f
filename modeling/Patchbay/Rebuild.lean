import Patchbay.Canvas.Catalog
import Patchbay.Document.Repair
import Patchbay.Layout.Placement
import Patchbay.Property.Table
import Patchbay.Rebuild.Parameters
import Patchbay.Rebuild.Wiring

/-!
# Rebuilding

Makes live nodes from a document: repairs it, finds a place for every component, makes and
configures the nodes, and wires them up once all of them are there.

* `RebuildOptions` — what is repaired, applied and connected
* `Rebuilder` — what rebuilding works with: the catalog, the host, the options, the properties
* `Work.configure` — the properties and parameters of a component on its new node
* `Work.makeNode` — the node of a component, unless it cannot be made
* `Work.rebuild` — the whole document

## Design decisions

* A component, a property or a connection that is no good is reported and passed over, and the rest
  goes on.
* Components are answered for under the ids that the caller gave, also where these were replaced.
-/

namespace Patchbay

/-- What is repaired, applied and connected. -/
structure RebuildOptions where
  fixIds : Bool
  uniformPivots : Bool
  properties : Bool
  settings : Bool
  connections : Bool
  layout : Layout.Settings Float

namespace RebuildOptions

/-- Everything. -/
def full : RebuildOptions := ⟨true, true, true, true, true, .default⟩

end RebuildOptions

/-- What rebuilding works with. -/
structure Rebuilder where
  catalog : Catalog
  host : Host
  options : RebuildOptions
  properties : PropertyTable

namespace Work

open Procedure

/-! ### Configuring a node -/

/-- Applies the properties of a component to its node, without those in `exclude`. -/
def applyProperties (b : Rebuilder) (n : NodeRef) (c : Component) (exclude : List String) :
    Work Unit := do
  if b.options.properties then
    let (node, _) ← attempt (b.properties.apply .full exclude ((← graph).node n) c.properties)
    update fun g => g.setNode n node

/-- Applies the settings of a component to the parameters of its node. -/
def applyParameters (b : Rebuilder) (n : NodeRef) (c : Component) : Work Unit :=
  if b.options.settings then applySettings n c else pure ()

/-- Applies the packed value of a slider. One that cannot be read is reported. -/
def applySlider (n : NodeRef) (c : Component) : Work Unit := do
  let packed := (c.propertyValue? "CurrentValue").getD .null
  if !packed.isNull then
    match ((← graph).node n).applySlider packed.text with
    | .ok node => update fun g => g.setNode n node
    | .error fault =>
      if fault.family = .value then
        report .warning [.words ("Slider '" ++ c.name.text ++ "' keeps its default value: "), .cause fault]
      else throw fault

/-- Gives a script node the text of the component, if there is one. -/
def applyScript (n : NodeRef) (c : Component) : Work Unit :=
  match c.propertyValue? "Script" with
  | some (.str script) => update fun g => g.updateNode n fun v => v.put .scriptText (.str script)
  | _ => pure ()

/-- The properties and parameters of a component on its node, by the kind of the node. -/
def configure (b : Rebuilder) (n : NodeRef) (c : Component) : Work Unit := do
  match ((← graph).node n).kind with
  | .slider => do
    applySlider n c
    applyProperties b n c ["CurrentValue"]
    applyParameters b n c
  | .script => do
    applyScript n c
    if b.options.settings then rebuildScript n c
    applyProperties b n c ["Script"]
    maintain n
  | _ => do
    applyProperties b n c []
    applyParameters b n c

/-! ### Making nodes -/

/-- The faults of a host that makes no node. -/
def isNodeRefusal (f : Fault) : Bool :=
  match f.family with
  | .value | .kind | .lookup | .host => true
  | _ => false

/-- A new node of the component's type; nothing if the host refuses. -/
def instantiate (b : Rebuilder) (c : Component) (t : NodeType) : Work (Option NodeRef) :=
  recover isNodeRefusal
    (do
      let (n, g) ← ofResult (b.host.make (← graph) t)
      set g
      return some n)
    fun fault => do
      report .warning [.words ("Could not create '" ++ c.name.text ++ "': "), .cause fault]
      return none

/-- The configured node of a component, not yet on the canvas; nothing if it cannot be made. -/
def makeNode (b : Rebuilder) (c : Component) : Work (Option NodeRef) := do
  match ← logged (b.catalog.resolve (some c.typeKey.text) (some c.name.text)) with
  | none =>
    report .warning [.words ("Unknown component type '" ++ c.name.text ++ "' (" ++ c.typeKey.text
      ++ "), skipped")]
    return none
  | some t =>
    match ← instantiate b c t with
    | none => return none
    | some n =>
      configure b n c
      update fun g => g.updateNode n fun v => v.put .selected (.bool c.selected)
      return some n

end Work

/-! ### Documents -/

namespace Rebuilt

/-- A component was not placed. -/
def skip (r : Rebuilt) (id : String) : Rebuilt := { r with skipped := r.skipped ++ [id] }

/-- A component was placed. -/
def add (r : Rebuilt) (c : Component) (n : NodeRef) (liveId : String) : Rebuilt :=
  { r with
    nodes := Keyed.put r.nodes c.id n
    ids := Keyed.put r.ids c.id liveId
    names := if r.names.contains c.name.text then r.names else r.names ++ [c.name.text] }

/-- Puts what is known under one id under another. -/
def moveKey {α : Type} (pairs : List (String × α)) (old new : String) : List (String × α) :=
  match pairs.lookup old with
  | some v => Keyed.put (Keyed.drop pairs old) new v
  | .none => pairs

/-- Answers under the ids that were replaced. -/
def restoreIds (r : Rebuilt) (renamed : Renaming) : Rebuilt :=
  renamed.foldl (fun r (original, replacement) =>
    { r with
      ids := moveKey r.ids replacement original
      nodes := moveKey r.nodes replacement original }) r

end Rebuilt

/-- The id that a replacement stands for. -/
def originalId (renamed : Renaming) (id : String) : String :=
  match renamed.find? fun (_, new) => new == id with
  | some (old, _) => old
  | none => id

namespace Work

open Procedure

/-- Repairs a document; returns it with what was replaced. -/
def repair (o : RebuildOptions) (d : Document) : Work (Document × Renaming) := do
  let (d, renamed) ←
    if o.fixIds then do
      let (d, r) ← logged (d.withGuids ⟨[], (← graph).ids⟩)
      update fun g => { g with ids := r.ids }
      pure (d, r.renamed)
    else pure (d, [])
  let d ← if o.uniformPivots then logged d.withUniformPivots else pure d
  return (d, renamed)

/-- The position that was found for an id. -/
def positionOf (positions : List (String × Position Float)) (id : String) :
    Except Fault (Position Float) :=
  match positions.lookup id with
  | some p => .ok p
  | none => .error .unknownName

/-- Places the nodes of components. -/
def placeAll (b : Rebuilder) (renamed : Renaming) (positions : List (String × Position Float))
    (r : Rebuilt) : List Component → Work Rebuilt
  | [] => pure r
  | c :: rest => do
    match ← makeNode b c with
    | none => placeAll b renamed positions (r.skip (originalId renamed c.id)) rest
    | some n =>
      let p ← ofResult (positionOf positions c.id)
      update fun g => g.place n p
      let liveId := ((← graph).node n).id
      placeAll b renamed positions (r.add c n liveId) rest

/-- Makes the live nodes of a document, and its wires. -/
def rebuild (b : Rebuilder) (d : Document) : Work Rebuilt := do
  let (d, renamed) ← repair b.options d
  let bounds ← ofResult (← graph).bounds?
  let positions ← logged (d.placement b.options.layout bounds)
  let placed ← placeAll b renamed positions .none d.components
  let wired ←
    if b.options.connections then wireAll b.host placed d.connections else pure placed
  let result := wired.restoreIds renamed
  report .info [.words ("Placed " ++ Text.integerText result.nodes.length ++ " components, "
    ++ Text.integerText result.made ++ " connections (" ++ Text.integerText result.dropped
    ++ " skipped)")]
  return result

end Work

end Patchbay
