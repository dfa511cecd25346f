import Patchbay.Document.Basic
import Patchbay.Journal
import Patchbay.Layout.Layers

/-!
# Placement

Where the components of a document go when they are placed on a canvas.

* `Settings` — the spacing of the grid, the gap below other content, and the origin
* `cells` — column and row of every item
* `place` — the position of every item
* `Document.edges`, `Document.grid`, `Document.placement` — the same for documents, with a report

## Design decisions

* Supplied positions win over cells. Where both occur, the cells lie below the supplied positions.
* Everything is then moved by one offset: to the origin, or below the content of the canvas.
* An id that is repeated takes the cell of its last place, and every place takes up a row.
-/

namespace Patchbay.Layout

/-- The measures of a layout. -/
structure Settings (α : Type) where
  spacingX : α
  spacingY : α
  /-- The gap below other content. -/
  span : α
  origin : Position α
deriving Repr, DecidableEq

section

variable {α : Type} [Coordinate α]

/-- The usual measures. -/
def Settings.default : Settings α :=
  ⟨Coordinate.ofNat 200, Coordinate.ofNat 100, Coordinate.ofNat 100, Position.origin⟩

/-- What is placed: an id, and a position if one is supplied. -/
structure Item (α : Type) where
  id : String
  pivot : Option (Position α)
deriving Repr, DecidableEq

/-- A cell of the grid. -/
structure Cell where
  column : Nat
  row : Nat
deriving Repr, DecidableEq

/-- Cells in the order of the ids: in each column, the rows from zero on. `seen` are the columns of
the ids before. -/
def cellsFrom (layer : String → Nat) : (seen : List Nat) → (ids : List String) → List (String × Cell)
  | _, [] => []
  | seen, i :: ids => (i, ⟨layer i, seen.count (layer i)⟩) :: cellsFrom layer (layer i :: seen) ids

/-- The cell of every id. -/
def cells (layer : String → Nat) (ids : List String) : List (String × Cell) :=
  Keyed.ofList (cellsFrom layer [] ids)

/-- The position of a cell. -/
def Settings.position (s : Settings α) (c : Cell) : Position α :=
  ⟨Coordinate.ofNat c.column * s.spacingX, Coordinate.ofNat c.row * s.spacingY⟩

/-- The least x of positions and the greatest y; nothing if there are none. -/
def lowerLeft : List (Position α) → Option (Position α)
  | [] => none
  | p :: rest => some ⟨leastOf p.x (rest.map (·.x)), greatestOf p.y (rest.map (·.y))⟩

/-- The least x and the least y of positions; nothing if there are none. -/
def upperLeft : List (Position α) → Option (Position α)
  | [] => none
  | p :: rest => some ⟨leastOf p.x (rest.map (·.x)), leastOf p.y (rest.map (·.y))⟩

/-- Where the first cell goes: below the supplied positions, if only some are supplied. -/
def cellOffset (s : Settings α) (items : List (Item α)) : Position α :=
  let pivots := items.filterMap (·.pivot)
  if pivots.length < items.length then
    match lowerLeft pivots with
    | some p => ⟨p.x, p.y + s.span⟩
    | none => Position.origin
  else Position.origin

/-- Supplied positions and cells, before everything is moved. -/
def localPositions (s : Settings α) (grid : List (String × Cell)) (items : List (Item α)) :
    List (String × Position α) :=
  let offset := cellOffset s items
  Keyed.ofList (items.map fun item =>
    match item.pivot with
    | some p => (item.id, p)
    | none =>
      let cell := (grid.lookup item.id).map s.position
      (item.id, (cell.getD Position.origin).add offset))

/-- Other content of the canvas, if it takes up any room. -/
def occupied (bounds : Option (Frame α)) : Option (Frame α) := bounds.filter fun b => !b.isNull

/-- The upper left corner of what is placed: below other content, or the origin. -/
def startPoint (s : Settings α) (bounds : Option (Frame α)) : Position α :=
  match occupied bounds with
  | some b => ⟨b.x, b.bottom + s.span⟩
  | none => s.origin

/-- By how much everything is moved. -/
def offset (s : Settings α) (bounds : Option (Frame α)) (positions : List (Position α)) :
    Position α :=
  let start := startPoint s bounds
  match occupied bounds, upperLeft positions with
  | some _, some corner => ⟨start.x - corner.x, start.y - corner.y⟩
  | _, _ => start

/-- The position of every id. -/
def place (s : Settings α) (bounds : Option (Frame α)) (grid : List (String × Cell))
    (items : List (Item α)) : List (String × Position α) :=
  let found := localPositions s grid items
  let moved := offset s bounds (found.map Prod.snd)
  found.map fun (id, p) => (id, p.add moved)

end

/-! ### Documents -/

/-- Reports the places where cycles were broken. -/
def reportBroken (layers : Layers String) : Logged Unit :=
  layers.broken.forM fun i =>
    Logged.report (record "Placement" .debug ("Cycle detected, breaking at " ++ i))

end Patchbay.Layout

namespace Patchbay.Document

open Layout

/-- The edges between components of a document. -/
def edges (d : Document) : List (Edge String) :=
  let ids := d.components.map (·.id)
  (d.connections.map fun c => (c.source.id, c.target.id)).filter fun (a, b) => a ∈ ids ∧ b ∈ ids

/-- The columns of the components. -/
def layers (d : Document) : Layers String := Layout.layers (d.components.map (·.id)) d.edges

/-- The cells of the components, with a report of broken cycles. -/
def grid (d : Document) : Logged (List (String × Cell)) := do
  reportBroken d.layers
  return cells d.layers.of (d.components.map (·.id))

/-- What is placed of a document. -/
def items (d : Document) : List (Item Float) := d.components.map fun c => ⟨c.id, c.pivot⟩

/-- The positions of the components of a document. -/
def placement (d : Document) (s : Settings Float) (bounds : Option (Frame Float)) :
    Logged (List (String × Position Float)) := do
  let placed := place s bounds (← d.grid) d.items
  if !placed.isEmpty then
    Logged.report (record "Placement" .debug
      ("Computed positions for " ++ Text.integerText placed.length ++ " components"))
  return placed

/-- The report does not matter for what is placed where. -/
theorem value_placement (d : Document) (s : Settings Float) (bounds : Option (Frame Float)) :
    (d.placement s bounds).value = place s bounds d.grid.value d.items := by
  unfold placement
  rw [Logged.value_bind]
  dsimp only
  split <;> rfl

end Patchbay.Document
