import Patchbay.Value.Mode

/-!
# Which properties are exchanged

A property is exchanged if the context admits its name for the kind of node. The same filter guards
both directions, so what would not be captured is not applied either.

* `Context` — how much of a node goes into a document
* `Context.names`, `Context.admits` — the property names that a context admits for a kind
* `Context.hasSettings` — whether the settings of parameters are exchanged

A node whose kind was overwritten is of no kind, and has the names that every kind has.
-/

namespace Patchbay

/-- How much of a node goes into a document. -/
inductive Context
  | full | compact | ai | parameters
deriving Repr, DecidableEq, Inhabited

namespace Context

/-- The code of a context. -/
def code : Context → String
  | full => "full"
  | compact => "compact"
  | ai => "ai"
  | parameters => "parameters"

def all : List Context := [full, compact, ai, parameters]

/-- The context of a code. -/
def ofCode? (code : String) : Option Context := all.find? fun c => c.code == code

/-- The names that are never exchanged. -/
def denied : List String :=
  ["VolatileData", "IsValid", "IsValidWhyNot", "TypeDescription", "TypeName", "Boundingbox",
    "ClippingBox", "ReferenceID", "IsReferencedGeometry", "IsGeometryLoaded", "QC_Type",
    "humanReadable", "Properties", "Params", "Attributes"]

/-- The names that every kind has. -/
def core : List String := ["NickName", "Locked", "PersistentData"]

/-- The names that every kind has where components are described in full. -/
def component : List String := ["Hidden"]

/-- The names that belong to a kind. -/
def ofKind : NodeKind → List String
  | .panel => ["UserText"]
  | .scribble => ["Text"]
  | .slider => ["CurrentValue", "Rounding"]
  | .valueList => ["ListMode", "ListItems"]
  | .script => ["Script", "MarshInputs", "MarshOutputs"]
  | .toggle => ["Value"]
  | .swatch => ["Color"]
  | .generic | .parameter => []

/-- Whether components are described in full. -/
def hasComponents : Context → Bool
  | full | ai => true
  | compact | parameters => false

/-- The kinds without which a document loses its meaning. -/
def isEssential : NodeKind → Bool
  | .panel | .slider | .valueList | .script => true
  | _ => false

/-- The kinds for entering and showing data. -/
def isInterface : NodeKind → Bool
  | .toggle | .swatch | .scribble => true
  | _ => false

/-- Whether the names that belong to a kind are admitted. -/
def includesKind (c : Context) (k : NodeKind) : Bool :=
  match c with
  | full => true
  | compact => isEssential k
  | ai => isEssential k || isInterface k
  | parameters => false

/-- The names that are admitted for the sake of a kind. -/
def namesOfKind (c : Context) : Option NodeKind → List String
  | some k => if c.includesKind k then ofKind k else []
  | none => []

/-- Whether the settings of parameters are exchanged, which every context does. -/
def hasSettings (_ : Context) : Bool := true

/-- The property names that are admitted for a kind. -/
def names (c : Context) (k : Option NodeKind) : List String :=
  (core ++ (if c.hasComponents then component else []) ++ c.namesOfKind k).filter fun name =>
    !denied.contains name

/-- Whether a property is exchanged for a kind. -/
def admits (c : Context) (name : String) (k : Option NodeKind) : Bool := (c.names k).contains name

/-- The admitted names in ascending order. -/
def sortedNames (c : Context) (k : Option NodeKind) : List String :=
  (c.names k).mergeSort fun a b => !(decide (b < a))

end Context

end Patchbay
