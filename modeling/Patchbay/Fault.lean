import Patchbay.Text.Quoted
import Patchbay.Decimal.Shortest

/-!
# Faults

Everything that can go wrong, as the cause it has. A fault that users see has a wording
(`Fault.message?`); the others are told apart by their family alone.

* `JsonFault` — why a text is not JSON, and where
* `DocumentFault` — why a JSON value is not a document
* `StorageProblem` — why a path cannot be read or written
* `Fault` — all causes
* `Fault.family` — which callers can go on after a fault

## Design decisions

* Positions in a JSON text count characters from zero; lines and columns are derived from them
  when the wording is made.
* A batch goes on after the faults that `Fault.isLocal` admits. Numbers out of range and undefined
  decimal operations end it.
-/

namespace Patchbay

/-! ### Texts that are not JSON -/

/-- What a JSON reader misses or refuses. -/
inductive JsonProblem
  | value | propertyName | colon | comma | extraData
  | openString | controlCharacter | badEscape | badUnicodeEscape | byteOrderMark
deriving Repr, DecidableEq, Inhabited

/-- The wording of a problem. -/
def JsonProblem.label : JsonProblem → String
  | value => "Expecting value"
  | propertyName => "Expecting property name enclosed in double quotes"
  | colon => "Expecting ':' delimiter"
  | comma => "Expecting ',' delimiter"
  | extraData => "Extra data"
  | openString => "Unterminated string starting at"
  | controlCharacter => "Invalid control character at"
  | badEscape => "Invalid \\escape"
  | badUnicodeEscape => "Invalid \\uXXXX escape"
  | byteOrderMark => "Unexpected UTF-8 BOM (decode using utf-8-sig)"

/-- A problem with the place where it was found. -/
structure JsonFault where
  problem : JsonProblem
  line : Nat
  column : Nat
  offset : Nat
deriving Repr, DecidableEq, Inhabited

/-- The place `offset` characters into `text`; lines and columns count from one. -/
def JsonFault.at (problem : JsonProblem) (text : List Char) (offset : Nat) : JsonFault :=
  let before := text.take offset
  let lineStart := before.reverse.takeWhile (· != '\n')
  ⟨problem, before.count '\n' + 1, lineStart.length + 1, offset⟩

/-- The wording of a JSON fault. -/
def JsonFault.message (f : JsonFault) : String :=
  s!"{f.problem.label}: line {f.line} column {f.column} (char {f.offset})"

/-! ### Values that are not documents -/

/-- The parts of a document that must be objects or arrays. -/
inductive DocumentPart
  | document | component | properties | settings | connection | endpoint
deriving Repr, DecidableEq, Inhabited

/-- The wording for a part that is no object. -/
def DocumentPart.label : DocumentPart → String
  | document => "document must be a JSON object"
  | component => "component must be an object"
  | properties => "properties must be an object"
  | settings => "parameter settings must be an object"
  | connection => "connection must be an object"
  | endpoint => "connection endpoint must be an object"

/-- The two lists of a document. -/
inductive DocumentSection
  | components | connections
deriving Repr, DecidableEq, Inhabited

/-- The key of a section. -/
def DocumentSection.key : DocumentSection → String
  | components => "components"
  | connections => "connections"

/-- Why a value is not a document. -/
inductive DocumentFault
  | notJson (cause : JsonFault)
  | notAnObject (part : DocumentPart)
  | notAnArray (part : DocumentSection)
  | unnamedParameter
deriving Repr, DecidableEq, Inhabited

/-- The wording of a document fault, without its place. -/
def DocumentFault.message : DocumentFault → String
  | notJson cause => "Invalid JSON: " ++ cause.message
  | notAnObject part => part.label
  | notAnArray part => s!"'{part.key}' must be an array"
  | unnamedParameter => "parameter settings need a parameterName"

/-! ### Files -/

/-- Why a path cannot be read or written. -/
inductive StorageProblem
  | missing | isFolder | notFolder | taken | longName
deriving Repr, DecidableEq, Inhabited

/-! ### All causes -/

/-- Why an operation failed. -/
inductive Fault
  -- numbers and geometry
  | nonFinite (x : Float)
  | notNumber (text : String)
  | notInteger (text : String)
  | zeroLength
  | noPerpendicular
  | parallelAxes
  -- tokens
  | malformedToken (typeName token expected : String)
  | wrongValue (expected actual : String)
  | unknownCodec (key : String)
  | codecNameTaken (name : String)
  | codecTagTaken (tag owner : String)
  | unencodable (typeName : String) (cause : String)
  -- documents
  | document (place : Option (DocumentSection × Nat)) (cause : DocumentFault)
  -- signatures
  | unbalancedBracket (bracket : Char)
  | unclosedBracket
  | emptyDeclaration (fragment : String)
  -- sliders
  | malformedSlider (text : String)
  | unreadableSlider (text : String)
  | unboundedSlider (text : String)
  | unwritableSlider (value : String) (places : Int)
  -- tables
  | propertyTaken (name : String)
  | itemsNotList (typeName : String)
  | paramTypeTaken (name : String)
  | aliasShadows (name : String)
  -- the canvas
  | selfWire (name : String)
  | host (message : String)
  -- causes without a wording
  /-- A text that writes no number, or no character, or a number with too many digits to write. -/
  | unreadable
  /-- A text that is not JSON, where a text in JSON is asked for. -/
  | notJson
  /-- A value of a kind that the operation does not take. -/
  | wrongKind
  /-- An attribute that the value does not have. -/
  | noAttribute
  /-- A name that stands for nothing. -/
  | unknownName
  /-- A place that a list does not have. -/
  | noSuchPlace
  /-- A number beyond the range of its target. -/
  | outOfRange
  /-- A text that opens more arrays and objects inside of each other than are read. -/
  | deepNesting
  /-- A text that is too long to be made. -/
  | outOfMemory
  /-- A decimal operation without a result. -/
  | undefinedDecimal
  /-- A decimal result beyond the largest exponent. -/
  | decimalOverflow
  /-- Bytes that are not UTF-8. -/
  | notUtf8
  /-- A path that cannot be read or written. -/
  | storage (problem : StorageProblem)
deriving Repr, DecidableEq

instance : Inhabited Fault := ⟨.wrongKind⟩

/-- What callers distinguish: which of their values was at fault. -/
inductive Fault.Family
  /-- A value of the right kind that is not acceptable. -/
  | value
  /-- A value of the wrong kind. -/
  | kind
  /-- A name without a meaning. -/
  | lookup
  | attribute
  | range
  | decimal
  /-- A refusal of the host. -/
  | host
  | storage
deriving Repr, DecidableEq

/-- The family of a fault. -/
def Fault.family : Fault → Fault.Family
  | wrongValue .. | unencodable .. | itemsNotList _ | wrongKind => .kind
  | unknownCodec _ | unknownName | noSuchPlace => .lookup
  | noAttribute => .attribute
  | outOfRange | deepNesting | outOfMemory => .range
  | undefinedDecimal | decimalOverflow => .decimal
  | host _ => .host
  | storage _ => .storage
  | _ => .value

/-- The faults of the codecs themselves. -/
def Fault.isCodecFault : Fault → Bool
  | malformedToken .. | wrongValue .. | unknownCodec _ => true
  | _ => false

/-- The faults after which a batch goes on with its next item. -/
def Fault.isLocal (f : Fault) : Bool :=
  match f.family with
  | .value | .kind | .attribute => true
  | _ => f.isCodecFault

/-- The wording of a fault; nothing for the causes that have none. -/
def Fault.message? : Fault → Option String
  | nonFinite x => some ("Non-finite number: " ++ Double.text Double.full x)
  | notNumber text => some ("Not a number: " ++ Text.quoted text)
  | notInteger text => some ("Not an integer: " ++ Text.quoted text)
  | zeroLength => some "Cannot unitize a zero-length vector"
  | noPerpendicular => some "Zero-length vector has no perpendicular"
  | parallelAxes => some "Plane axes are parallel"
  | malformedToken typeName token expected =>
    some s!"Invalid {typeName} format: '{token}'. Expected format: {expected}"
  | wrongValue expected actual => some s!"Value must be of type {expected}, got {actual}"
  | unknownCodec key => some s!"No codec registered for '{key}'"
  | codecNameTaken name => some s!"Codec name '{name}' already registered"
  | codecTagTaken tag owner => some s!"Prefix '{tag}' already registered to '{owner}'"
  | unencodable typeName cause => some s!"Cannot encode {typeName}: {cause}"
  | document none cause => some cause.message
  | document (some (part, index)) cause => some s!"{part.key}[{index}]: {cause.message}"
  | unbalancedBracket bracket => some s!"Unbalanced '{bracket}' in parameter list"
  | unclosedBracket => some "Unclosed bracket in parameter list"
  | emptyDeclaration fragment => some ("Empty parameter declaration: " ++ Text.quoted fragment)
  | malformedSlider text => some s!"Invalid slider value '{text}'. Expected value<min,max>"
  | unreadableSlider text => some s!"Invalid number in slider value '{text}'"
  | unboundedSlider text => some s!"Slider value '{text}' is not finite"
  | unwritableSlider value places =>
    some s!"Slider value {value} cannot be written with {places} decimals"
  | propertyTaken name => some s!"Property '{name}' already registered"
  | itemsNotList typeName => some s!"ListItems must be a list, got {typeName}"
  | paramTypeTaken name => some s!"Parameter type '{name}' already registered"
  | aliasShadows name => some s!"Alias '{name}' shadows a registered type"
  | selfWire name => some s!"Parameter '{name}' cannot feed itself"
  | host message => some message
  | unreadable | notJson | wrongKind | noAttribute | unknownName | noSuchPlace | outOfRange
  | deepNesting | outOfMemory | undefinedDecimal | decimalOverflow | notUtf8 | storage _ => none

end Patchbay
