import Patchbay.Token.Builtin
import Patchbay.Value.Choice

/-!
# Data trees in documents

A data tree maps paths to lists of items. In a document it is an object with one entry per branch,
keyed by the path's text, and in it one entry per item, keyed by the path's text and the index:

    "{0;1}": {"{0;1}(0)": {"type": "Point3d", "value": "pointXYZ:1,2,0"}, …}

* `DataTree.pathText`, `DataTree.writePath`, `DataTree.readPath` — the text of a path
* `DataTree.encodeItem`, `DataTree.decodeItem` — the record of an item
* `DataTree.flatten`, `DataTree.expand` — a tree as an object, and back

## Design decisions

* Branches are written in the order of their paths. Reading takes them, and the items in them, in
  the order in which they come.
* Reading is liberal: a list is one branch at `{0}`, any other single value one item in it, and a
  branch may be a plain list.
* An item whose codec refuses it is reported and written as its text.
-/

namespace Patchbay.DataTree

/-- The branches of a data tree. -/
abbrev Branches := List (Path × List Value)

/-! ### Paths -/

/-- Texts between braces, with semicolons between them. -/
def braced (parts : List String) : String := "\x7b" ++ Text.joinWith ";" parts ++ "\x7d"

/-- The text of a path. -/
def pathText (path : Path) : String := braced (path.map Text.integerText)

/-- Writes a path, all of whose integers must have texts. -/
def writePath (path : Path) : Except Fault String := do return braced (← path.mapM Token.writeInteger)

/-- What follows an index in parentheses at the beginning of a text. -/
def afterIndex? : List Char → Option (List Char)
  | '(' :: rest =>
    let (digits, after) := rest.span Text.isDigit
    match after with
    | ')' :: after => if digits.isEmpty then none else some after
    | _ => none
  | _ => none

/-- Copies a text without the indices in parentheses; `skip` counts the characters of the current
index that are still to be passed over. -/
def dropIndices : (skip : Nat) → List Char → List Char
  | _, [] => []
  | skip + 1, _ :: rest => dropIndices skip rest
  | 0, c :: rest =>
    match afterIndex? (c :: rest) with
    | some after => dropIndices (rest.length - after.length) rest
    | none => c :: dropIndices 0 rest

/-- The integer that an element of a path writes; nothing if the element does not look like one. -/
def readElement (cs : List Char) : Except Fault (Option Int) :=
  let element := Text.trimChars cs
  if Mapping.looksNumeric element then
    match readInt? element with
    | some i => .ok (some i)
    | none => .error .unreadable
  else .ok none

/-- The braces around a path. -/
def isBrace (c : Char) : Bool := c == '\x7b' || c == '\x7d'

/-- The elements of a path's text. -/
def elements (key : String) : List (List Char) :=
  Text.splitOn ';' (Text.trimBy isBrace (Text.trimChars (dropIndices 0 key.toList)))

/-- The integers among the elements of a path. -/
def readElements : List (List Char) → Except Fault Path
  | [] => .ok []
  | element :: rest => do
    match ← readElement element with
    | some i => return i :: (← readElements rest)
    | none => readElements rest

/-- Reads a path; elements that look like no integer are passed over. -/
def readPath (key : String) : Except Fault Path := readElements (elements key)

/-- The order of paths: element by element, a beginning before its continuations. -/
def pathLe : Path → Path → Bool
  | [], _ => true
  | _ :: _, [] => false
  | i :: p, j :: q => if i < j then true else if j < i then false else pathLe p q

/-! ### Items -/

/-- The record of an item: its type and its written form. -/
def itemRecord (typeName : String) (value : Value) : Value :=
  .object [("type", .str typeName), ("value", value)]

/-- The record of a value that no codec writes: containers stay as they are, other values become
their text. -/
def plainRecord (v : Value) : Value :=
  match v with
  | .list _ | .object _ | .tree _ => itemRecord v.jsonTypeName v
  | other => itemRecord other.kind.typeName (.str other.text)

/-- The record of an item. -/
def encodeItem (v : Value) : Attempt Value :=
  match v with
  | .null => pure (itemRecord "Null" .null)
  | _ =>
    match Registry.builtin.forValue? v with
    | none => pure (plainRecord v)
    | some c =>
      match c.serialize v with
      | .ok token => pure (itemRecord c.typeName (.str token))
      | .error fault =>
        if fault.isCodecFault then do
          ExceptT.lift (Logged.report ⟨"DataTree", .warning,
            [.words ("Could not encode " ++ c.typeName ++ " item: "), .cause fault]⟩)
          return plainRecord v
        else throw fault

/-- The value of an item's written form: a token of a known codec is read, everything else stays. -/
def decodeItem (v : Value) : Logged Value := do
  return (← Registry.builtin.tryDecode v).2

/-- What is written for an item, which may stand in a record. -/
def itemPayload (v : Value) : Value :=
  match v with
  | .object entries =>
    match Entries.get? entries "value" with
    | some payload => payload
    | none => (Entries.get? entries "Value").getD v
  | _ => v

/-! ### Trees -/

/-- Writes the items of a branch under the texts of their places. -/
def encodeItems (key : String) (index : Nat) : List Value → Attempt Entries
  | [] => pure []
  | v :: rest => do
    let encoded ← encodeItem v
    let others ← encodeItems key (index + 1) rest
    return (key ++ "(" ++ String.ofList (Text.digitsOfNat index) ++ ")", encoded) :: others

/-- Writes branches under the texts of their paths. -/
def encodeBranches : Branches → Attempt Entries
  | [] => pure []
  | (path, items) :: rest => do
    let key ← Attempt.ofExcept (writePath path)
    let encoded ← encodeItems key 0 items
    let others ← encodeBranches rest
    return (key, .object encoded) :: others

/-- A data tree as an object. -/
def flatten (branches : Branches) : Attempt Value := do
  return .object (← encodeBranches (branches.mergeSort fun a b => pathLe a.1 b.1))

/-- The text of a key that is a text itself: its characters as the elements of a path. -/
def textKey (key : String) : String := braced (key.toList.map String.singleton)

/-- The items of the branches of an object. -/
def branchItems : Entries → Except Fault (List (String × List Value))
  | [] => .ok []
  | (key, v) :: rest => do return (textKey key, ← v.elements) :: (← branchItems rest)

/-- Writes the entries of an object as branches. -/
def encodeEntries : Entries → Attempt Entries
  | [] => pure []
  | (key, v) :: rest => do
    let items ← Attempt.ofExcept v.elements
    let encoded ← encodeItems (textKey key) 0 items
    let others ← encodeEntries rest
    return (textKey key, .object encoded) :: others

/-- An attribute that holds a data tree, as an object. An object serves as a tree whose keys are
texts, an empty list or text as a tree without branches; nothing else does. -/
def flattenValue (v : Value) : Attempt Value :=
  match v with
  | .tree branches => flatten branches
  | .object entries => do
    return .object (← encodeEntries (entries.mergeSort fun a b => !(decide (b.1 < a.1))))
  | .list [] | .str "" => return .object []
  | _ => throw .wrongKind

/-- Adds items to the branch at a path, which is made if it is not there. -/
def addItems (branches : Branches) (path : Path) (items : List Value) : Branches :=
  match branches with
  | [] => [(path, items)]
  | (p, there) :: rest =>
    if p = path then (p, there ++ items) :: rest else (p, there) :: addItems rest path items

/-- The values of items. -/
def decodeItems : List Value → Logged (List Value)
  | [] => pure []
  | v :: rest => do
    let decoded ← decodeItem (itemPayload v)
    return decoded :: (← decodeItems rest)

/-- The written items of a branch. -/
def writtenItems : Value → List Value
  | .object entries => entries.map Prod.snd
  | .list items => items
  | other => [other]

/-- Reads the branches of an object into a tree. -/
def expandBranches (branches : Branches) : Entries → Attempt Branches
  | [] => pure branches
  | (key, v) :: rest => do
    let path ← Attempt.ofExcept (readPath key)
    let items ← ExceptT.lift (decodeItems (writtenItems v))
    expandBranches (addItems branches path items) rest

/-- Reads a data tree. -/
def expand (v : Value) : Attempt Branches :=
  match v with
  | .null => pure []
  | .list items => do return [([0], ← ExceptT.lift (items.mapM decodeItem))]
  | .object entries => expandBranches [] entries
  | .tree branches => expandBranches [] (branches.map fun (path, items) => (pathShown path, .list items))
  | other => do return [([0], [← ExceptT.lift (decodeItem other)])]

end Patchbay.DataTree
