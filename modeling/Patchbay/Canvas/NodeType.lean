import Patchbay.Value.Mode

/-!
# Types of nodes

* `ParameterSpec` — a declared parameter
* `NodeType` — what the catalog knows about a type: its key, its name, the behaviour of its nodes,
  and the parameters they are born with
* `NodeType.input?`, `NodeType.output?` — declared parameters by name
-/

namespace Patchbay

/-- A declared parameter. -/
structure ParameterSpec where
  name : String
  /-- The type of its data. -/
  typeName : String
  access : Access
  optional : Bool
  description : String
deriving Repr, DecidableEq, Inhabited

/-- A parameter that takes one item at a time. -/
def ParameterSpec.item (name typeName : String) (optional : Bool) : ParameterSpec :=
  ⟨name, typeName, .item, optional, ""⟩

/-- A parameter that takes data trees. -/
def ParameterSpec.tree (name typeName : String) (optional : Bool) : ParameterSpec :=
  ⟨name, typeName, .tree, optional, ""⟩

/-- A type of nodes. -/
structure NodeType where
  /-- The key by which documents refer to the type. -/
  key : String
  name : String
  kind : NodeKind
  inputs : List ParameterSpec
  outputs : List ParameterSpec
  /-- The language of a script. -/
  language : Option Language
  category : String
deriving Repr, DecidableEq, Inhabited

namespace NodeType

/-- The first declared input of a name. -/
def input? (t : NodeType) (name : String) : Option ParameterSpec := t.inputs.find? (·.name == name)

/-- The first declared output of a name. -/
def output? (t : NodeType) (name : String) : Option ParameterSpec := t.outputs.find? (·.name == name)

end NodeType

end Patchbay
