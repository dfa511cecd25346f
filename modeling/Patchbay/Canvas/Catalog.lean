import Patchbay.Canvas.NodeType
import Patchbay.Journal
import Patchbay.Keyed
import Patchbay.Text.Blank
import Patchbay.Text.Case

/-!
# The catalog of node types

Types are found by their key, or by their display name, both without regard to case.

* `Catalog.register`, `Catalog.unregister`
* `Catalog.findKey?`, `Catalog.findName?` — look-up, with blanks around the text ignored
* `Catalog.resolve` — by key, then by name
* `Catalog.standard` — the types that are there from the start

## Design decisions

* Registering a key again replaces its type in place and frees the earlier type's name.
* A display name belongs to the type that claimed it last.
-/

namespace Patchbay

/-- Types under lower-case keys and under lower-case names. -/
structure Catalog where
  byKey : List (String × NodeType)
  byName : List (String × NodeType)
deriving Repr, DecidableEq

namespace Catalog

def empty : Catalog := ⟨[], []⟩

/-- Adds a type; one under the same key gives way, with a warning. -/
def register (c : Catalog) (t : NodeType) : Logged Catalog := do
  let key := Text.lower t.key
  let byName ←
    match c.byKey.lookup key with
    | some previous => do
      Logged.report (record "MemoryHost" .warning
        ("Overwriting component type '" ++ t.name ++ "' (" ++ t.key ++ ")"))
      pure (Keyed.drop c.byName (Text.lower previous.name))
    | none => pure c.byName
  return ⟨Keyed.put c.byKey key t, Keyed.put byName (Text.lower t.name) t⟩

/-- Takes the type under a key out. -/
def unregister (c : Catalog) (key : String) : Catalog :=
  let key := Text.lower key
  match c.byKey.lookup key with
  | some t => ⟨Keyed.drop c.byKey key, Keyed.drop c.byName (Text.lower t.name)⟩
  | none => c

/-- The number of types. -/
def size (c : Catalog) : Nat := c.byKey.length

/-- Whether there is a type under a key. -/
def contains (c : Catalog) (key : String) : Bool := (c.byKey.lookup (Text.lower key)).isSome

/-- All types, in order of registration. -/
def types (c : Catalog) : List NodeType := c.byKey.map Prod.snd

/-- The type under a key. -/
def findKey? (c : Catalog) (key : String) : Option NodeType :=
  c.byKey.lookup (Text.lower (Text.trim key))

/-- The type with a display name. -/
def findName? (c : Catalog) (name : String) : Option NodeType :=
  c.byName.lookup (Text.lower (Text.trim name))

/-- A text that may be missing, where an empty one counts as missing. -/
def given? (s : Option String) : Option String := s.filter fun s => !s.isEmpty

/-- The type under a key; failing that, with a display name, which is reported. -/
def resolve (c : Catalog) (key name : Option String) : Logged (Option NodeType) :=
  match (given? key).bind c.findKey? with
  | some t => pure (some t)
  | none =>
    match given? name with
    | none => pure none
    | some name =>
      match c.findName? name with
      | none => pure none
      | some t => do
        Logged.report (record "Host" .debug
          ("Resolved '" ++ name ++ "' by name (type key " ++ key.getD "None" ++ " unknown)"))
        return some t

/-! ### The standard types -/

/-- A type for entering data, with one output. -/
def inputType (key name : String) (kind : NodeKind) (output : ParameterSpec) : NodeType :=
  ⟨key, name, kind, [], [output], none, "Params"⟩

/-- A floating parameter for one type of data. -/
def floatingType (key name : String) : NodeType :=
  ⟨key, name, .parameter, [.tree name name true], [.tree name name false], none, "Params"⟩

/-- A plain component. -/
def plainType (key name category : String) (inputs outputs : List ParameterSpec) : NodeType :=
  ⟨key, name, .generic, inputs, outputs, none, category⟩

/-- A script in a language, with two inputs and an output. -/
def scriptType (key name : String) (language : Language) : NodeType :=
  ⟨key, name, .script, [.item "x" "Generic" true, .item "y" "Generic" true],
    [.item "a" "Generic" false], some language, "Maths"⟩

/-- The types that are there from the start. -/
def standardTypes : List NodeType := [
  inputType "57da07bd-ecab-415d-9d86-af36d7073abc" "Number Slider" .slider
    (.item "Number" "Number" false),
  inputType "2e78987b-9dfb-42a2-8b76-3923ac8bd91a" "Boolean Toggle" .toggle
    (.item "Boolean" "Boolean" false),
  inputType "9c53bac0-ba66-40bd-8154-ce9829b9db1a" "Colour Swatch" .swatch
    (.item "Colour" "Colour" false),
  inputType "00027467-0d24-4fa7-b178-8dc0ac5f42ec" "Value List" .valueList
    (.item "Values" "Generic" false),
  ⟨"59e0b89a-e487-49f8-bab8-b5bab16be14c", "Panel", .panel, [.tree "Input" "Text" true],
    [.tree "Output" "Text" false], none, "Params"⟩,
  ⟨"7f5c6c55-f846-4a08-9c9a-cfdc285cc6fe", "Scribble", .scribble, [], [], none, "Params"⟩,
  floatingType "3e8ca6be-fda8-4aaf-b5c0-3c54c8bb7312" "Number",
  floatingType "fbac3e32-f100-4292-8692-77240a42fd1a" "Point",
  floatingType "3ede854e-c753-40eb-84cb-b48008f14fd4" "Text",
  floatingType "d5967b9f-e8ee-436b-a8ad-29fdcecf32d5" "Curve",
  plainType "a0d62394-a118-422d-abb3-6af115c75b25" "Addition" "Maths"
    [.item "A" "Number" true, .item "B" "Number" true] [.item "Result" "Number" false],
  plainType "3581f42a-9592-4549-bd6b-1c0fc39d067b" "Construct Point" "Vector"
    [.item "X coordinate" "Number" true, .item "Y coordinate" "Number" true,
      .item "Z coordinate" "Number" true]
    [.item "Point" "Point" false],
  plainType "4c4e56eb-2f04-43f9-95a3-cc46a14f495a" "Line" "Curve"
    [.item "Start Point" "Point" false, .item "End Point" "Point" false]
    [.item "Line" "Line" false],
  plainType "01cbd6e3-ccbe-4c24-baeb-46e10553e18b" "Concatenate" "Sets"
    [.item "A" "Text" true, .item "B" "Text" true] [.item "Result" "Text" false],
  scriptType "b6ba1144-02d6-4a2d-b53c-ec62e290eeb7" "C# Script" .csharp,
  scriptType "719467e6-7cf5-4848-99b0-c5dd57e5442c" "Python Script" .python,
  scriptType "079bd9bd-54a0-41d4-98af-db999015f63d" "VB Script" .vb]

/-- The catalog of the standard types. -/
def standard : Catalog :=
  standardTypes.foldl (fun c t => (c.register t).value) empty

end Catalog

end Patchbay
