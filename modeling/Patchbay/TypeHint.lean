import Patchbay.Text.Blank
import Patchbay.Text.Split
import Patchbay.Text.Case
import Patchbay.Journal
import Patchbay.Value.Text

/-!
# Type hints

A hint names the type of a parameter: bare, such as `Curve`, or inside a collection, such as
`List<Curve>`. Which collection it is says how the parameter takes its data.

* `TypeHint.wrapper?` — the collection of a hint and what is inside it
* `TypeHint.forAccess` — a bare hint inside the collection of an access
* `TypeHint.base`, `TypeHint.access`, `TypeHint.isCollection`
* `TypeHint.Provider`, `TypeHint.infer` — hints for parameters that declare none

## Design decisions

* What is inside a collection loses the blanks around it. If it is nothing but blanks, the last of
  them that is no line feed stands for the type.
* Providers are asked in order. One that fails is reported and passed over, and the chain ends in
  `object`.
-/

namespace Patchbay.TypeHint

/-- The collections that a hint may name, with the access they stand for. -/
def collections : List (String × Access) :=
  [("DataTree", .tree), ("GH_Structure", .tree), ("List", .list), ("IList", .list),
    ("IEnumerable", .list), ("IReadOnlyList", .list)]

/-- What may stand before the name of a collection. -/
def qualification : List Char := "System.Collections.Generic.".toList

/-- A text without the qualification of a collection, if it has one. -/
def dropQualification (cs : List Char) : List Char := (Text.afterText? qualification cs).getD cs

/-- The collection at the beginning of a text: its access, and what follows its opening bracket. -/
def collectionAt? (cs : List Char) : Option (Access × List Char) :=
  collections.findSome? fun (name, access) => do
    let rest ← Text.afterText? name.toList cs
    match rest.dropWhile Text.isBlank with
    | '<' :: inside => some (access, inside)
    | _ => none

/-- The type between the brackets of a collection; `cs` is what stands between them. -/
def insideBrackets? (cs : List Char) : Option (List Char) :=
  let trimmed := Text.trimChars cs
  if trimmed.isEmpty then
    (cs.reverse.find? fun c => c != '\n').map fun c => [c]
  else if trimmed.contains '\n' then none
  else some trimmed

/-- The access of the collection that a hint names, and the type inside it. -/
def wrapper? (hint : List Char) : Option (Access × List Char) := do
  let (access, rest) ← collectionAt? (dropQualification (hint.dropWhile Text.isBlank))
  match (Text.trimRightBy Text.isBlank rest).reverse with
  | '>' :: inside => return (access, ← insideBrackets? inside.reverse)
  | _ => none

/-- Whether a hint names a collection. -/
def isCollection (hint : String) : Bool := (wrapper? hint.toList).isSome

/-- The type inside a hint's collection; a bare hint without the blanks around it. -/
def base (hint : String) : String :=
  match wrapper? hint.toList with
  | some (_, inside) => String.ofList inside
  | none => Text.trim hint

/-- The access that a hint's collection stands for. -/
def access (hint : String) : Access :=
  match wrapper? hint.toList with
  | some (access, _) => access
  | none => .item

/-- A hint inside the collection of an access. Empty hints and collections stay as they are. -/
def forAccess (hint : String) (access : Access) : String :=
  if hint.isEmpty || isCollection hint then hint
  else
    match access with
    | .tree => "DataTree<" ++ hint ++ ">"
    | .list => "List<" ++ hint ++ ">"
    | .item => hint

/-- `forAccess` of a value; only texts can be read as hints. -/
def forAccessValue (hint : Value) (access : Access) : Except Fault String :=
  match hint with
  | .str s => .ok (forAccess s access)
  | _ => .error .wrongKind

/-! ### Inference -/

/-- The hint at the end of every chain. -/
def fallback : String := "object"

/-- The hints of the value converters, by lower-case name. -/
def converterHints : List (String × String) :=
  [("generic", "object"), ("number", "double"), ("integer", "int"), ("boolean", "bool"),
    ("text", "string"), ("string", "string"), ("point", "Point3d"), ("vector", "Vector3d"),
    ("line", "Line"), ("plane", "Plane"), ("circle", "Circle"), ("arc", "Arc"),
    ("rectangle", "Rectangle3d"), ("box", "Box"), ("curve", "Curve"), ("surface", "Surface"),
    ("brep", "Brep"), ("mesh", "Mesh"), ("geometry", "GeometryBase"), ("colour", "Color"),
    ("color", "Color"), ("domain", "Interval"), ("interval", "Interval")]

/-- What the providers see of a parameter. -/
structure Subject where
  typeHint : Value
  converter : Value

/-- A named source of hints. Its answer counts if it counts as present. -/
structure Provider where
  name : String
  answer : Subject → Except Fault Value

/-- The hint that the parameter carries itself. -/
def declared : Provider := ⟨"declared", fun s => .ok s.typeHint⟩

/-- The name by which a converter is known: its text, its name, or the name of its kind. -/
def converterName : Value → String
  | .str s => s
  | .item i => i.name
  | .access a => upperCode a.code
  | .mapping m => upperCode m.code
  | .rounding r => r.name
  | other => other.kind.typeName

/-- The hint that belongs to the name of the parameter's converter. -/
def converter : Provider :=
  ⟨"converter", fun s =>
    match s.converter with
    | .null => .ok .null
    | v => .ok (Value.ofText? (converterHints.lookup (Text.lower (converterName v))))⟩

/-- The providers that are there from the start. -/
def defaultProviders : List Provider := [declared, converter]

/-- Adds a provider at one end of a chain, unless one of its name is there. -/
def addProvider (chain : List Provider) (p : Provider) (first : Bool) : List Provider :=
  if chain.any fun q => q.name == p.name then chain
  else if first then p :: chain
  else chain ++ [p]

/-- Takes a provider out of a chain. -/
def removeProvider (chain : List Provider) (name : String) : List Provider :=
  chain.filter fun p => p.name != name

/-- The first answer of a chain that counts as present, else `object`. -/
def infer : (chain : List Provider) → Subject → Logged Value
  | [], _ => pure (.str fallback)
  | p :: rest, s =>
    match p.answer s with
    | .ok v => if v.truthy then pure v else infer rest s
    | .error fault => do
      Logged.report ⟨"TypeHints", .warning,
        [.words ("Type hint provider " ++ p.name ++ " failed: "), .cause fault]⟩
      infer rest s

end Patchbay.TypeHint
