import Patchbay.Fault
import Patchbay.Keyed
import Patchbay.TypeHint

/-!
# Types of data

What parameters take and give, coarsely. A type may have a parent, which is named and need not be
known, and other names, its aliases.

* `DataType`, `DataTypes` — a type, and the types that are known
* `DataTypes.register`, `DataTypes.addAlias`
* `DataTypes.get?`, `DataTypes.ofHint` — the type of a name, or of a hint
* `DataTypes.ancestors` — parents, their parents, and so on
* `DataTypes.compatible` — whether an output of one type may feed an input of another

## Design decisions

* Names are compared in lower case. Aliases are looked up once: an alias of an alias is no name.
* A type is stored before its aliases are added, so it stays if one of them is refused.
* The walk to the ancestors stops at a type it has met, so parents may form a circle.
-/

namespace Patchbay

/-- The families of types that convert into each other. -/
inductive DataCategory
  | generic | numeric | geometry | text | other
deriving Repr, DecidableEq, Inhabited

namespace DataCategory

/-- The code of a category. -/
def code : DataCategory → String
  | generic => "generic"
  | numeric => "numeric"
  | geometry => "geometry"
  | text => "text"
  | other => "other"

def all : List DataCategory := [generic, numeric, geometry, text, other]

/-- The category of a code. -/
def ofCode? (code : String) : Option DataCategory := all.find? fun c => c.code == code

end DataCategory

/-- A type of data. -/
structure DataType where
  name : String
  category : DataCategory
  /-- The name of the parent. -/
  base : Option String
deriving Repr, DecidableEq, Inhabited

/-- The types that are known, and the names that stand for others, all under lower-case names. -/
structure DataTypes where
  byName : List (String × DataType)
  aliases : List (String × String)
deriving Repr, DecidableEq

namespace DataTypes

def empty : DataTypes := ⟨[], []⟩

/-- Lets a name stand for another, which need not be known. -/
def addAlias (t : DataTypes) (synonym name : String) : Except Fault DataTypes :=
  let key := Text.lower synonym
  if (t.byName.lookup key).isSome then .error (.aliasShadows synonym)
  else .ok { t with aliases := Keyed.put t.aliases key (Text.lower name) }

/-- Adds aliases up to the first that is refused. -/
def addAliases (t : DataTypes) (name : String) : List String → Option Fault × DataTypes
  | [] => (none, t)
  | a :: rest =>
    match t.addAlias a name with
    | .ok t => addAliases t name rest
    | .error fault => (some fault, t)

/-- Adds a type and its aliases. The type is stored even if an alias is refused. -/
def register (t : DataTypes) (type : DataType) (aliases : List String) :
    Except Fault DataType × DataTypes :=
  let key := Text.lower type.name
  if (t.byName.lookup key).isSome || (t.aliases.lookup key).isSome then
    (.error (.paramTypeTaken type.name), t)
  else
    match addAliases { t with byName := Keyed.put t.byName key type } type.name aliases with
    | (none, t) => (.ok type, t)
    | (some fault, t) => (.error fault, t)

/-- The type that a name or an alias stands for. -/
def get? (t : DataTypes) (name : String) : Option DataType :=
  if name.isEmpty then none
  else
    let key := Text.lower (Text.trim name)
    t.byName.lookup ((t.aliases.lookup key).getD key)

/-- The parent of a type, if it is known. -/
def parent? (t : DataTypes) (type : DataType) : Option DataType := type.base.bind t.get?

/-- The types that are known. -/
def types (t : DataTypes) : List DataType := t.byName.map Prod.snd

theorem mem_values_of_lookup {κ α : Type} [BEq κ] {pairs : List (κ × α)} {key : κ} {value : α}
    (h : pairs.lookup key = some value) : value ∈ pairs.map Prod.snd := by
  induction pairs with
  | nil => simp at h
  | cons head rest ih =>
    obtain ⟨k, v⟩ := head
    rw [List.lookup_cons] at h
    split at h
    · simp_all
    · exact List.mem_cons_of_mem _ (ih h)

theorem mem_types_of_get? {t : DataTypes} {name : String} {u : DataType}
    (h : t.get? name = some u) : u ∈ t.types := by
  unfold get? at h
  split at h
  · simp at h
  · exact mem_values_of_lookup h

theorem mem_types_of_parent? {t : DataTypes} {type u : DataType} (h : t.parent? type = some u) :
    u ∈ t.types := by
  obtain ⟨name, _, hn⟩ := Option.bind_eq_some_iff.1 h
  exact mem_types_of_get? hn

/-- The types met on the way from a type to its ancestors, after those in `met`. -/
def ancestorsFrom (t : DataTypes) (met : List DataType) (type : DataType) : List DataType :=
  match _hu : t.parent? type with
  | none => met
  | some u => if u ∈ met then met else ancestorsFrom t (met ++ [u]) u
termination_by (t.types.filter fun u => u ∉ met).length
decreasing_by
  next hm =>
    have hmem := mem_types_of_parent? _hu
    rw [← List.countP_eq_length_filter, ← List.countP_eq_length_filter]
    refine Nat.lt_of_le_of_ne (List.countP_mono_left ?_) ?_
    · intro a _ ha
      simp_all
    · intro heq
      have hle : t.types.countP (fun v => v ∉ met ++ [u]) + t.types.countP (fun v => v = u)
          ≤ t.types.countP (fun v => v ∉ met) := by
        induction t.types with
        | nil => simp
        | cons a rest ih =>
          simp only [List.countP_cons]
          by_cases h1 : a ∈ met <;> by_cases h2 : a = u <;> simp_all <;> omega
      have hpos : 0 < t.types.countP (fun v => v = u) :=
        List.countP_pos_iff.2 ⟨u, hmem, by simp⟩
      omega

/-- The parent of a type, its parent, and so on, each once. -/
def ancestors (t : DataTypes) (type : DataType) : List DataType := t.ancestorsFrom [] type

/-- Whether an output of a type may feed an input of a type. Types that are not known are not
judged. -/
def compatible (t : DataTypes) (source target : Option DataType) : Bool :=
  match source, target with
  | some s, some u =>
    s == u || (t.ancestors s).contains u
      || (s.category == u.category && (s.category == .numeric || s.category == .geometry))
      || u.category == .text || u.category == .generic || s.category == .generic
  | _, _ => true

/-- The type that a hint stands for, without its collection. -/
def ofHint (t : DataTypes) (hint : String) : Option DataType :=
  if hint.isEmpty then none else t.get? (TypeHint.base hint)

/-- The type that a recorded hint stands for. -/
def ofHintValue (t : DataTypes) (hint : Value) : Except Fault (Option DataType) :=
  match hint with
  | .str s => .ok (t.ofHint s)
  | v => if v.truthy then .error .wrongKind else .ok none

/-! ### The standard types -/

/-- The types that are there from the start, with their aliases. -/
def standardEntries : List (DataType × List String) := [
  (⟨"Generic", .generic, none⟩, ["object", "system.object", "dynamic"]),
  (⟨"Number", .numeric, none⟩, ["double", "float", "system.double", "decimal"]),
  (⟨"Integer", .numeric, some "Number"⟩, ["int", "int32", "long", "system.int32"]),
  (⟨"Boolean", .other, none⟩, ["bool", "system.boolean"]),
  (⟨"Text", .text, none⟩, ["string", "str", "system.string", "char"]),
  (⟨"Colour", .other, none⟩, ["color", "system.drawing.color"]),
  (⟨"Domain", .other, none⟩, ["interval"]),
  (⟨"Time", .other, none⟩, ["datetime"]),
  (⟨"Geometry", .geometry, none⟩, ["geometrybase"]),
  (⟨"Point", .geometry, some "Geometry"⟩, ["point3d"]),
  (⟨"Vector", .geometry, some "Geometry"⟩, ["vector3d"]),
  (⟨"Plane", .geometry, some "Geometry"⟩, []),
  (⟨"Curve", .geometry, some "Geometry"⟩, ["polyline", "nurbscurve"]),
  (⟨"Line", .geometry, some "Curve"⟩, []),
  (⟨"Circle", .geometry, some "Curve"⟩, []),
  (⟨"Arc", .geometry, some "Curve"⟩, []),
  (⟨"Rectangle", .geometry, some "Curve"⟩, ["rectangle3d"]),
  (⟨"Surface", .geometry, some "Geometry"⟩, []),
  (⟨"Brep", .geometry, some "Geometry"⟩, []),
  (⟨"Box", .geometry, some "Brep"⟩, ["boundingbox"]),
  (⟨"Mesh", .geometry, some "Geometry"⟩, []),
  (⟨"Transform", .other, none⟩, [])]

/-- The types that are there from the start. -/
def standard : DataTypes :=
  standardEntries.foldl (fun t (type, aliases) => (t.register type aliases).2) empty

end DataTypes

end Patchbay
