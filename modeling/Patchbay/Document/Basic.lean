import Patchbay.Value.Text
import Patchbay.Canvas.Position
import Patchbay.Keyed

/-!
# Documents

A document is a portable picture of a graph: the components with what is known about each, and the
connections between their parameters. It holds no live nodes; components are known by their ids.

* `Property` — a captured property: its value, the label of its type, a text for human readers
* `Modifiers`, `ParameterSettings` — what is known about a parameter
* `Component`, `Endpoint`, `Connection`, `Document`
* `Document.component?`, `Document.inputsOf`, … — queries

## Design decisions

* Fields that any JSON value may stand in are values; null stands for "not recorded".
* Ids are texts, and an empty one is no reference. Names are values, since documents are also made
  of live nodes, whose names may be any value; what was read from a text has texts for names.
* The access and the mapping of a parameter are modes of any kind, for the same reason.
-/

namespace Patchbay

/-- A captured property. -/
structure Property where
  value : Value
  /-- The label of the value's type. -/
  type : String
  /-- A text for human readers; null for none. -/
  humanReadable : Value
deriving Repr, Inhabited

/-- The modifier flags of a parameter; nothing stands for "not recorded". -/
structure Modifiers where
  reverse : Option Bool
  simplify : Option Bool
  locked : Option Bool
  invert : Option Bool
deriving Repr, DecidableEq, Inhabited

namespace Modifiers

def none : Modifiers := ⟨.none, .none, .none, .none⟩

/-- Whether no flag is recorded. -/
def isEmpty (m : Modifiers) : Bool :=
  m.reverse.isNone && m.simplify.isNone && m.locked.isNone && m.invert.isNone

end Modifiers

/-- What is known about a parameter of a component. -/
structure ParameterSettings where
  name : Value
  /-- The variable of a script parameter. -/
  variableName : Value
  typeHint : Value
  access : Option Mode
  description : Value
  nickName : Value
  required : Bool
  isPrincipal : Bool
  mapping : Option Mode
  expression : Value
  modifiers : Option Modifiers
deriving Repr, Inhabited

namespace ParameterSettings

/-- The settings that say nothing but the name. -/
def named (name : Value) : ParameterSettings :=
  ⟨name, .null, .null, none, .null, .null, false, false, none, .null, none⟩

/-- The variable's name, which is the parameter's unless another is recorded. -/
def effectiveVariable (s : ParameterSettings) : Value := s.variableName.orElse s.name

end ParameterSettings

/-- The properties of a component, in order and each name once. -/
abbrev Properties := List (String × Property)

/-- A node of a document. -/
structure Component where
  name : Value
  /-- The key of the component's type. -/
  typeKey : Value
  /-- The id by which connections refer to the component. -/
  id : String
  pivot : Option (Position Float)
  selected : Bool
  properties : Properties
  inputs : List ParameterSettings
  outputs : List ParameterSettings
  warnings : List Value
  errors : List Value
deriving Repr, Inhabited

namespace Component

/-- Whether the component carries runtime messages. -/
def hasIssues (c : Component) : Bool := !c.warnings.isEmpty || !c.errors.isEmpty

/-- The value of a property. -/
def propertyValue? (c : Component) (name : String) : Option Value :=
  (c.properties.lookup name).map Property.value

end Component

/-- One end of a connection: a component and the name of one of its parameters. -/
structure Endpoint where
  id : String
  name : Value
deriving Repr, Inhabited

/-- Whether both parts of an endpoint are there. -/
def Endpoint.isValid (e : Endpoint) : Bool := !e.id.isEmpty && e.name.truthy

/-- The name by which an endpoint finds its parameter. -/
def Endpoint.paramName (e : Endpoint) : String := e.name.text

/-- The output `source` feeds the input `target`. -/
structure Connection where
  source : Endpoint
  target : Endpoint
deriving Repr, Inhabited

/-- Whether both ends of a connection are complete. -/
def Connection.isValid (c : Connection) : Bool := c.source.isValid && c.target.isValid

/-- Whether a connection has an end at a component. -/
def Connection.touches (c : Connection) (id : String) : Bool := c.source.id == id || c.target.id == id

/-- Components and the connections between them. -/
structure Document where
  components : List Component
  connections : List Connection
deriving Repr, Inhabited

namespace Document

/-- The first component with an id. -/
def component? (d : Document) (id : String) : Option Component := d.components.find? (·.id == id)

/-- The components with runtime messages. -/
def withIssues (d : Document) : List Component := d.components.filter Component.hasIssues

/-- The connections with an end at a component. -/
def connectionsOf (d : Document) (id : String) : List Connection :=
  d.connections.filter (·.touches id)

/-- The connections that feed a component. -/
def inputsOf (d : Document) (id : String) : List Connection :=
  d.connections.filter (·.target.id == id)

/-- The connections that leave a component. -/
def outputsOf (d : Document) (id : String) : List Connection :=
  d.connections.filter (·.source.id == id)

/-- The type key of each id; of a repeated id the first place and the last key count. -/
def typeKeys (d : Document) : List (String × Value) :=
  Keyed.ofList (d.components.map fun c => (c.id, c.typeKey))

/-- The document without any pivot. -/
def withoutPivots (d : Document) : Document :=
  { d with components := d.components.map fun c => { c with pivot := none } }

end Document

end Patchbay
