/-!
# Modes

The closed choices that parameters, sliders and nodes carry, with the codes that documents use.

* `Access` — how a parameter takes its data: one item, a list, or a tree
* `Mapping` — what a parameter does to the tree it receives
* `Rounding` — how a slider rounds
* `Mode` — a choice of one of these three kinds
* `NodeKind` — the behaviour of a node
* `Language` — the language of a script
-/

namespace Patchbay

/-- How a parameter takes its data. -/
inductive Access
  | item | list | tree
deriving Repr, DecidableEq, Inhabited

namespace Access

/-- The code in documents. -/
def code : Access → String
  | item => "item"
  | list => "list"
  | tree => "tree"

def all : List Access := [item, list, tree]

/-- The access of a code. -/
def ofCode? (code : String) : Option Access := all.find? fun a => a.code == code

end Access

/-- What a parameter does to the tree it receives. -/
inductive Mapping
  | none | flatten | graft
deriving Repr, DecidableEq, Inhabited

namespace Mapping

/-- The code in documents. -/
def code : Mapping → String
  | none => "None"
  | flatten => "Flatten"
  | graft => "Graft"

def all : List Mapping := [none, flatten, graft]

/-- The mapping of a code. -/
def ofCode? (code : String) : Option Mapping := all.find? fun m => m.code == code

end Mapping

/-- How a slider rounds its value. -/
inductive Rounding
  | float | integer | even | odd
deriving Repr, DecidableEq, Inhabited

namespace Rounding

/-- The one-letter code in documents. -/
def code : Rounding → String
  | float => "R"
  | integer => "N"
  | even => "E"
  | odd => "O"

/-- The upper-case name. -/
def name : Rounding → String
  | float => "FLOAT"
  | integer => "INTEGER"
  | even => "EVEN"
  | odd => "ODD"

def all : List Rounding := [float, integer, even, odd]

/-- The rounding of a code. -/
def ofCode? (code : String) : Option Rounding := all.find? fun r => r.code == code

def isIntegral (r : Rounding) : Bool := r != float

end Rounding

/-- A choice of any kind. A parameter may hold one that is not meant for it. -/
inductive Mode
  | access (a : Access)
  | mapping (m : Mapping)
  | rounding (r : Rounding)
deriving Repr, DecidableEq, Inhabited

/-- The code of a choice. -/
def Mode.code : Mode → String
  | access a => a.code
  | mapping m => m.code
  | rounding r => r.code

/-- The behaviour of a node, fixed when the node is made. -/
inductive NodeKind
  | generic | parameter | slider | panel | script | valueList | toggle | swatch | scribble
deriving Repr, DecidableEq, Inhabited

namespace NodeKind

/-- The code in documents and messages. -/
def code : NodeKind → String
  | generic => "generic"
  | parameter => "parameter"
  | slider => "slider"
  | panel => "panel"
  | script => "script"
  | valueList => "valueList"
  | toggle => "toggle"
  | swatch => "swatch"
  | scribble => "scribble"

def all : List NodeKind :=
  [generic, parameter, slider, panel, script, valueList, toggle, swatch, scribble]

/-- The kind of a code. -/
def ofCode? (code : String) : Option NodeKind := all.find? fun k => k.code == code

end NodeKind

/-- The language of a script. -/
inductive Language
  | csharp | python | vb
deriving Repr, DecidableEq, Inhabited

namespace Language

/-- The code in documents and messages. -/
def code : Language → String
  | csharp => "csharp"
  | python => "python"
  | vb => "vb"

def all : List Language := [csharp, python, vb]

/-- The language of a code. -/
def ofCode? (code : String) : Option Language := all.find? fun l => l.code == code

end Language

end Patchbay
