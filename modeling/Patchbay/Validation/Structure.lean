import Patchbay.Guid
import Patchbay.Validation.Report
import Patchbay.Value.Text

/-!
# The structure of documents

Checks the shape of a JSON object that should be a document: its two arrays, the required fields of
components, and the endpoints of connections. The values are looked at as they stand, before
anything is read from them.

* `checkComponent`, `checkComponents` — ids that are repeated are errors
* `checkEndpoint`, `checkConnections` — endpoints must name a component of the document
* `checkStructure`
* `citesIds` — whether the ids that findings may cite have texts
-/

namespace Patchbay.Validation

/-- Whether a field is missing or null. -/
def lacks (entries : Entries) (key : String) : Bool := (Value.field entries key).isNull

/-- Whether the text of a value is a GUID. -/
def isGuidValue (v : Value) : Bool := isGuid v.text

/-- The name of an item of an array. -/
def itemName (array : String) (index : Nat) : String :=
  array ++ "[" ++ Text.integerText index ++ "]"

/-- The finding for a required field. -/
def missing (owner key : String) : Report := .error (owner ++ "." ++ key ++ " is missing or null.")

/-- The finding for an id that is no GUID. -/
def notGuid (owner key : String) (v : Value) : Report :=
  .warning (owner ++ "." ++ key ++ " '" ++ v.text ++ "' is not a valid GUID.")

/-- Checks a field that should be a GUID. -/
def checkGuid (entries : Entries) (owner key : String) : Report :=
  if lacks entries key then missing owner key
  else .when (!isGuidValue (Value.field entries key)) (notGuid owner key (Value.field entries key))

/-- The id of a component, if it has one. -/
def componentId? (entries : Entries) : Option String :=
  match Value.field entries "instanceGuid" with
  | .null => none
  | v => some v.text

/-- Whether a field is there and no object. -/
def isNoObject (entries : Entries) (key : String) : Bool :=
  match Entries.get? entries key with
  | none | some (.object _) => false
  | some _ => true

/-- Checks a component; `defined` are the ids of the components before. -/
def checkComponent (owner : String) (defined : List String) (entries : Entries) : Report :=
  .when (lacks entries "name") (missing owner "name")
    ++ checkGuid entries owner "componentGuid"
    ++ checkGuid entries owner "instanceGuid"
    ++ (match componentId? entries with
      | some id => .when (defined.contains id)
          (.error (owner ++ ".instanceGuid '" ++ id ++ "' is duplicated."))
      | none => .none)
    ++ .when (lacks entries "pivot") (.info (owner ++ ".pivot is missing or null."))
    ++ .when (isNoObject entries "properties") (.error (owner ++ ".properties is not an object."))

/-- Checks components from an index on; `defined` are the ids found so far. Returns all ids. -/
def checkComponents (index : Nat) (defined : List String) : List Value → Report × List String
  | [] => (.none, defined)
  | v :: rest =>
    let owner := itemName "components" index
    match v with
    | .object entries =>
      let others := checkComponents (index + 1) (defined ++ (componentId? entries).toList) rest
      (checkComponent owner defined entries ++ others.1, others.2)
    | _ =>
      let others := checkComponents (index + 1) defined rest
      (.error (owner ++ " is not a JSON object.") ++ others.1, others.2)

/-- Checks one end of a connection; `defined` are the ids of the components, if the document has an
array of components. -/
def checkEndpoint (owner : String) (defined : Option (List String)) (endpoint : Value) : Report :=
  match endpoint with
  | .object entries =>
    let id := (Entries.get? entries "instanceId").getD (Value.field entries "componentId")
    let named := !lacks entries "name" || !lacks entries "paramName"
    (if id.isNull then missing owner "instanceId"
      else
        .when (!isGuidValue id) (notGuid owner "instanceId" id)
          ++ (match defined with
            | some ids => .when (!ids.contains id.text) (.error (owner ++ ".instanceId '" ++ id.text
                ++ "' is not defined in components[].instanceGuid."))
            | none => .none))
      ++ .when (!named) (missing owner "name")
  | _ => .error (owner ++ " is missing or not an object.")

/-- Checks a connection. -/
def checkConnection (owner : String) (defined : Option (List String)) (v : Value) : Report :=
  match v with
  | .object entries =>
    checkEndpoint (owner ++ ".from") defined (Value.field entries "from")
      ++ checkEndpoint (owner ++ ".to") defined (Value.field entries "to")
  | _ => .error (owner ++ " is not a JSON object.")

/-- Checks connections from an index on. -/
def checkConnections (index : Nat) (defined : Option (List String)) : List Value → Report
  | [] => .none
  | v :: rest =>
    checkConnection (itemName "connections" index) defined v
      ++ checkConnections (index + 1) defined rest

/-- The items of an array that the document must have. -/
def arrayItems? (entries : Entries) (key : String) : Option (List Value) :=
  match Value.field entries key with
  | .list items => some items
  | _ => none

/-- The finding for an array that is not there. -/
def checkArray (items : Option (List Value)) (key : String) : Report :=
  .when items.isNone (.error ("'" ++ key ++ "' property is missing or not an array."))

/-- Whether the type key and the id of a component can be cited. -/
def citesComponent : Value → Bool
  | .object entries =>
    (Value.field entries "componentGuid").hasText && (Value.field entries "instanceGuid").hasText
  | _ => true

/-- Whether the id of an endpoint can be cited. -/
def citesEndpoint : Value → Bool
  | .object entries =>
    ((Entries.get? entries "instanceId").getD (Value.field entries "componentId")).hasText
  | _ => true

/-- Whether the ids of a connection can be cited. -/
def citesConnection : Value → Bool
  | .object entries =>
    citesEndpoint (Value.field entries "from") && citesEndpoint (Value.field entries "to")
  | _ => true

/-- Whether every id that a finding may cite has a text. -/
def citesIds (entries : Entries) : Bool :=
  ((arrayItems? entries "components").getD []).all citesComponent
    && ((arrayItems? entries "connections").getD []).all citesConnection

/-- Checks the structure of a document. -/
def checkStructure (entries : Entries) : Report :=
  let components := arrayItems? entries "components"
  let connections := arrayItems? entries "connections"
  let (report, ids) := checkComponents 0 [] (components.getD [])
  checkArray components "components" ++ checkArray connections "connections" ++ report
    ++ checkConnections 0 (components.map fun _ => ids) (connections.getD [])

end Patchbay.Validation
