import Patchbay.Document.Basic
import Patchbay.Guid
import Patchbay.IdSupply
import Patchbay.Journal

/-!
# Repairing documents

Documents that were written by hand often use readable ids, and give pivots to some components only.

* `Document.withGuids` — new ids for the components whose id is no GUID
* `Document.withUniformPivots` — drops all pivots unless every component has one

## Design decisions

* One table of replaced ids serves components and connections, so an endpoint keeps pointing to the
  component it pointed to.
* Ids that the table already replaces keep their replacement.
-/

namespace Patchbay

/-- Replaced ids with their replacements, in order of replacement. -/
abbrev Renaming := List (String × String)

/-- A supply of ids, and what was replaced with its help. -/
structure Renamer where
  renamed : Renaming
  ids : IdSupply

namespace Renamer

/-- The replacement of an id; a GUID stays. -/
def rename (r : Renamer) (id : String) : String × Renamer :=
  if isGuid id then (id, r)
  else
    match r.renamed.lookup id with
    | some new => (new, r)
    | none =>
      let (new, ids) := r.ids.next
      (new, ⟨r.renamed ++ [(id, new)], ids⟩)

/-- Gives every component of a list a GUID. -/
def components (r : Renamer) : List Component → List Component × Renamer
  | [] => ([], r)
  | c :: rest =>
    let (id, r) := r.rename c.id
    let (others, r) := components r rest
    ({ c with id } :: others, r)

end Renamer

/-- The endpoint with its id replaced. -/
def Endpoint.rename (renamed : Renaming) (e : Endpoint) : Endpoint :=
  { e with id := (renamed.lookup e.id).getD e.id }

/-- The connection with the ids of its ends replaced. -/
def Connection.rename (renamed : Renaming) (c : Connection) : Connection :=
  ⟨c.source.rename renamed, c.target.rename renamed⟩

namespace Document

/-- The document with a GUID for every component, and what was replaced on top of `r`. -/
def rename (d : Document) (r : Renamer) : Document × Renamer :=
  let (components, r) := r.components d.components
  (⟨components, d.connections.map (·.rename r.renamed)⟩, r)

/-- `rename`, with a report of how many ids are replaced. -/
def withGuids (d : Document) (r : Renamer) : Logged (Document × Renamer) := do
  let (d, r) := d.rename r
  if !r.renamed.isEmpty then
    Logged.report (record "Fixer" .debug
      ("Replaced " ++ Text.integerText r.renamed.length ++ " non-GUID instance ids"))
  return (d, r)

/-- Whether every component has a pivot. -/
def hasAllPivots (d : Document) : Bool := d.components.all fun c => c.pivot.isSome

/-- The document without pivots, unless every component has one. -/
def withUniformPivots (d : Document) : Logged Document :=
  if d.hasAllPivots then pure d
  else do
    Logged.report (record "Fixer" .debug
      "Pivots incomplete, using computed layout for all components")
    return d.withoutPivots

end Document

end Patchbay
