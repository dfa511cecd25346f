import Patchbay.Canvas.Node
import Patchbay.DataTree
import Patchbay.Document.Reader
import Patchbay.Property.Filter
import Patchbay.Slider
import Patchbay.Token.Builtin

/-!
# The properties of nodes

Each property is described once: the kinds of nodes that have it, how it is read from a node and
written to one, and the codec of its values. Capture and rebuilding walk the same table.

* `Property.ofLive`, `Property.toLive` — a live value as a captured property, and back
* `PropertySource` — what a property is read from and written to
* `PropertyDescriptor`, `PropertyTable`
* `PropertyTable.capture` — the properties of a node
* `PropertyTable.apply` — writes captured properties to a node
* `PropertyTable.standard`

## Design decisions

* A property that cannot be read or written is reported and passed over. A node is changed by whole
  properties only: a property that fails leaves no trace.
* Properties are applied in the order of the table, not in the order of the document.
-/

namespace Patchbay

/-! ### Live and captured values -/

/-- Whether a value is written to documents as it is. -/
def Value.isPlain : Value → Bool
  | null | bool _ | int _ | float _ | str _ | list _ | object _ | tree _ => true
  | _ => false

namespace Property

/-- The written form of a live value, with the label of its type. -/
def written (v : Value) (codec : Option String) : Except Fault (Value × String) :=
  match codec with
  | some name => do
    let c ← Registry.builtin.get name
    return (.str (← c.serialize v), c.typeName)
  | none =>
    if v.isPlain then .ok (v, v.jsonTypeName)
    else
      match Registry.builtin.forValue? v with
      | some c => do return (.str (← c.serialize v), c.typeName)
      | none => .ok (.str v.text, v.kind.typeName)

/-- A live value as a captured property. Values that are not plain also get a text for human
readers, unless it would only name their type. -/
def ofLive (v : Value) (codec : Option String) : Except Fault Property := do
  let (value, type) ← written v codec
  let text := v.displayText
  let human := if v.isPlain || text == v.kind.typeName || text == type then .null else .str text
  return ⟨value, type, human⟩

/-- The live value of a captured one: a text is read by the property's codec. -/
def toLive (v : Value) (codec : Option String) : Except Fault Value :=
  match codec, v with
  | some name, .str _ => Registry.builtin.deserialize name v
  | _, _ => .ok v

end Property

/-! ### Sources -/

/-- What a property is read from and written to. -/
inductive PropertySource
  /-- A value that the node stores. -/
  | stored (a : Attribute)
  /-- The data tree of a floating parameter. -/
  | persistentData
  /-- The value of a slider with its limits, as a packed text. -/
  | sliderValue
  | sliderRounding
  | listItems
deriving Repr, DecidableEq

/-- What a node says about itself: the description of a slider, or what was written there. -/
def Node.describe (n : Node) : Except Fault Value :=
  if n.kind = .slider then
    (Slider.describe (Rounding.read (n.read .rounding)) (n.read .decimals) (n.read .minimum)
      (n.read .maximum)).map .str
  else
    match n.attributes.get? .description with
    | some v => .ok v
    | none => .error .noAttribute

/-- The packed value of a live slider, with the places and limits of its description. -/
def Node.packedSlider (n : Node) : Attempt String := do
  let text ← Attempt.ofExcept n.describe
  let d ← ExceptT.lift (Slider.readDescription (text.orElse (.str "")).text)
  Attempt.ofExcept (Slider.pack (n.read .value) (.decimal d.lower) (.decimal d.upper) d.places)

/-- Configures a live slider from a packed value. One without places is an integer slider. -/
def Node.applySlider (n : Node) (text : String) : Except Fault Node := do
  let p ← Slider.unpack text
  return ((((n.put .minimum (.decimal p.minimum)).put .maximum (.decimal p.maximum)).put
    .decimals (.int p.places)).put .rounding (.rounding (if p.places = 0 then .integer else .float))).put
    .value (.decimal p.value)

/-- An item of a value list as an object. -/
def listItemValue : Value → Except Fault Value
  | .item i => .ok i.toValue
  | _ => .error .noAttribute

/-- The lines of a value list that objects describe; other values are passed over. -/
def readListItems (items : List Value) : Except Fault (List Value) :=
  (items.filter fun v => match v with
    | .object _ | .tree _ => true
    | _ => false).mapM fun v => (ListItem.ofValue v).map Value.item

namespace PropertySource

/-- The live value of a property; null if there is none. -/
def read (s : PropertySource) (n : Node) : Attempt Value :=
  match s with
  | stored .description => Attempt.ofExcept do
    if n.kind = .slider then n.describe else return n.read .description
  | stored a => pure (n.read a)
  | persistentData =>
    let tree := n.read .persistentData
    if tree.truthy then DataTree.flattenValue tree else pure .null
  | sliderValue => Value.str <$> n.packedSlider
  | sliderRounding => pure (.str (Rounding.read (n.read .rounding)).code)
  | listItems => Attempt.ofExcept do
    match n.attributes.get? .listItems with
    | some items => return .list (← (← items.elements).mapM listItemValue)
    | none => throw .noAttribute

/-- Writes a property to a node. -/
def write (s : PropertySource) (n : Node) (v : Value) : Attempt Node :=
  match s with
  | stored a => Attempt.ofExcept (n.write a v)
  | persistentData => do return n.put .persistentData (.tree (← DataTree.expand v))
  | sliderValue => Attempt.ofExcept do n.applySlider (← v.text?)
  | sliderRounding => Attempt.ofExcept do return n.put .rounding (.rounding (← Rounding.read? v))
  | listItems =>
    match v with
    | .list items => Attempt.ofExcept do return n.put .listItems (.list (← readListItems items))
    | other => throw (.itemsNotList other.kind.typeName)

end PropertySource

/-! ### The table -/

/-- How a property is exchanged. -/
structure PropertyDescriptor where
  name : String
  source : PropertySource
  /-- The kinds of nodes that have the property; nothing stands for all. -/
  kinds : Option (List NodeKind)
  codec : Option String
  /-- Whether the property is captured and never applied. -/
  readOnly : Bool
deriving Repr, DecidableEq

namespace PropertyDescriptor

/-- Whether nodes of a kind have the property. -/
def appliesTo (d : PropertyDescriptor) (k : Option NodeKind) : Bool :=
  match d.kinds with
  | none => true
  | some kinds => k.any kinds.contains

/-- The property of a node; nothing if its value is null. -/
def capture? (d : PropertyDescriptor) (n : Node) : Attempt (Option Property) := do
  let v ← d.source.read n
  if v.isNull then return none
  return some (← Attempt.ofExcept (Property.ofLive v d.codec))

/-- Writes the value of a captured property to a node. -/
def apply (d : PropertyDescriptor) (n : Node) (p : Property) : Attempt Node := do
  d.source.write n (← Attempt.ofExcept (Property.toLive p.value d.codec))

end PropertyDescriptor

/-- Properties in the order in which they are exchanged, each name once. -/
abbrev PropertyTable := List PropertyDescriptor

namespace PropertyTable

/-- The description of a property. -/
def get? (t : PropertyTable) (name : String) : Option PropertyDescriptor := t.find? (·.name == name)

/-- Adds a property under a name that is not taken. -/
def register (t : PropertyTable) (d : PropertyDescriptor) : Except Fault PropertyTable :=
  if (t.get? d.name).isSome then .error (.propertyTaken d.name) else .ok (t ++ [d])

/-- The properties of a kind of nodes. -/
def forKind (t : PropertyTable) (k : Option NodeKind) : PropertyTable := t.filter (·.appliesTo k)

/-- Goes on after a fault that concerns one property, with a report in its place. -/
def passOver {α : Type} (words : String) (instead : α) (x : Attempt α) : Attempt α :=
  tryCatch x fun fault =>
    if fault.isLocal then do
      ExceptT.lift (Logged.report ⟨"Properties", .warning, [.words words, .cause fault]⟩)
      return instead
    else throw fault

/-- The properties of a node that the context admits, without those in `exclude`. -/
def capture (t : PropertyTable) (context : Context) (humanReadable : Bool) (exclude : List String)
    (n : Node) : Attempt Properties := do
  let kind ← Attempt.ofExcept n.actingKind
  let wanted := (t.forKind kind).filter fun d =>
    context.admits d.name kind && !exclude.contains d.name
  let found ← wanted.mapM fun d => do
    let captured ← passOver ("Skipped property " ++ d.name ++ " of '" ++ n.name.text ++ "': ") none
      (d.capture? n)
    return captured.map fun p =>
      (d.name, if humanReadable then p else { p with humanReadable := .null })
  return found.filterMap id

/-- Reports a property of a document that will not be applied. -/
def reportIgnored (t : PropertyTable) (context : Context) (exclude : List String) (n : Node)
    (kind : Option NodeKind) (name : String) : Attempt Unit := do
  if exclude.contains name then return
  let report := fun words => ExceptT.lift (Logged.report (record "Properties" .debug words))
  match (t.get? name).filter fun d => d.appliesTo kind && context.admits name kind with
  | none => do
    report ("Ignored property " ++ name ++ " on '" ++ n.name.text ++ "' (not exported for "
      ++ (← Attempt.ofExcept n.kindCode) ++ ")")
  | some d =>
    if d.readOnly then report ("Ignored computed property " ++ name ++ " on '" ++ n.name.text ++ "'")

/-- Applies one property, if the document has it; returns whether it was applied. -/
def applyOne (properties : Properties) (d : PropertyDescriptor) (n : Node) : Attempt (Node × Bool) :=
  match properties.lookup d.name with
  | none => pure (n, false)
  | some p =>
    passOver ("Could not apply " ++ d.name ++ " to '" ++ n.name.text ++ "': ") (n, false) do
      return (← d.apply n p, true)

/-- Applies properties in the order of the table; returns the names of those that were applied. -/
def applyAll (properties : Properties) : PropertyTable → Node → Attempt (Node × List String)
  | [], n => pure (n, [])
  | d :: rest, n => do
    let (n, done) ← applyOne properties d n
    let (n, names) ← applyAll properties rest n
    return (n, if done then d.name :: names else names)

/-- Writes the properties of a document to a node, as far as the context admits them and `exclude`
does not name them. -/
def apply (t : PropertyTable) (context : Context) (exclude : List String) (n : Node)
    (properties : Properties) : Attempt (Node × List String) := do
  let kind ← Attempt.ofExcept n.actingKind
  properties.forM fun (name, _) => t.reportIgnored context exclude n kind name
  applyAll properties ((t.forKind kind).filter fun d =>
    !d.readOnly && !exclude.contains d.name && context.admits d.name kind) n

/-- A property that an attribute holds. -/
def ofAttribute (name : String) (a : Attribute) (kinds : Option (List NodeKind)) :
    PropertyDescriptor :=
  ⟨name, .stored a, kinds, none, false⟩

/-- The properties that are exchanged unless another table is given. -/
def standard : PropertyTable := [
  ofAttribute "NickName" .nickName none,
  ofAttribute "Locked" .locked none,
  ofAttribute "Hidden" .hidden none,
  ⟨"PersistentData", .persistentData, some [.parameter], none, false⟩,
  ofAttribute "UserText" .userText (some [.panel]),
  ofAttribute "Text" .text (some [.scribble]),
  ⟨"CurrentValue", .sliderValue, some [.slider], none, false⟩,
  ⟨"Rounding", .sliderRounding, some [.slider], none, false⟩,
  ofAttribute "ListMode" .listMode (some [.valueList]),
  ⟨"ListItems", .listItems, some [.valueList], none, false⟩,
  ofAttribute "Script" .scriptText (some [.script]),
  ofAttribute "MarshInputs" .marshInputs (some [.script]),
  ofAttribute "MarshOutputs" .marshOutputs (some [.script]),
  ofAttribute "Value" .value (some [.toggle]),
  ⟨"Color", .stored .color, some [.swatch], some "Color", false⟩]

end PropertyTable

end Patchbay
