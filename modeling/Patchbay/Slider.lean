import Patchbay.Journal
import Patchbay.Text.Blank
import Patchbay.Text.Split
import Patchbay.Text.Case
import Patchbay.Value.Choice

/-!
# Slider values

A slider is written as one packed text, `value<min,max>`. The value is padded to the slider's
places, the limits are not: `5.00<0,10>` has two places, `3<-5,5>` none.

* `Slider.pack`, `Slider.Packed` — the packed text of a value and its limits
* `Slider.unpack` — reads a packed text
* `Slider.describe`, `Slider.readDescription` — the text block that tells a slider's places, limits
  and rounding

## Design decisions

* The places are carried by the padding of the value. Reading counts the characters after the
  point of the written value, before the value is moved into its limits.
* Limits in the wrong order are exchanged, and a value outside them moves to the nearer one.
* A description that cannot be read is reported and replaced as a whole by the default one.
-/

namespace Patchbay.Slider

/-- The decimal that a value stands for. -/
def toDecimal (v : Value) : Except Fault Decimal :=
  match v with
  | .decimal d => .ok d
  | other => do
    match Decimal.parse? (← other.text?).toList with
    | some d => return d
    | none => throw .undefinedDecimal

/-- A value with exactly `places` places after the point. -/
def padded (v : Value) (places : Int) : Except Fault String :=
  let unwritable : Fault := .unwritableSlider v.shown places
  if Decimal.maxShift < places.toNat then .error .undefinedDecimal
  else
    match toDecimal v with
    | .error .undefinedDecimal => .error unwritable
    | .error fault => .error fault
    | .ok d =>
      match d.quantize? places.toNat with
      | some (some q) => .ok q.plainText
      | _ => .error unwritable

/-- A limit, without zeros at its end and without an exponent. -/
def plain (v : Value) : Except Fault String := do
  let d ← toDecimal v
  match d with
  | .nan _ true _ => throw .undefinedDecimal
  | _ =>
    if d.isZero then return "0"
    else
      match d.normalize? with
      | some n => return n.plainText
      | none => throw .decimalOverflow

/-- The packed text of a value and its limits. -/
def pack (value minimum maximum : Value) (places : Int) : Except Fault String := do
  return (← padded value places) ++ "<" ++ (← plain minimum) ++ "," ++ (← plain maximum) ++ ">"

/-- What a packed text tells. -/
structure Packed where
  value : Decimal
  minimum : Decimal
  maximum : Decimal
  places : Nat
deriving Repr, DecidableEq

/-- The packed text. -/
def Packed.text (p : Packed) : Except Fault String :=
  pack (.decimal p.value) (.decimal p.minimum) (.decimal p.maximum) p.places

/-- Cuts `a,b` at the last comma that leaves something on both sides. -/
def cutLimits? (cs : List Char) : Option (List Char × List Char) :=
  (Text.cutsFromRight ',' cs).find? fun (a, b) => !a.isEmpty && !b.isEmpty

/-- Cuts `value<min,max>` at the last places where it can be cut. A line feed fits nowhere. -/
def cutPacked? (cs : List Char) : Option (List Char × List Char × List Char) :=
  if cs.contains '\n' then none
  else
    match cs.reverse with
    | '>' :: body =>
      (Text.cutsFromRight '<' body.reverse).findSome? fun (value, limits) =>
        if value.isEmpty then none
        else (cutLimits? limits).map fun (low, high) => (value, low, high)
    | _ => none

/-- How many characters a written value has after its point. -/
def writtenPlaces (cs : List Char) : Nat :=
  match Text.cut '.' cs with
  | (_, some after) => after.length
  | (_, none) => 0

/-- Reads a packed text. -/
def unpack (text : String) : Except Fault Packed :=
  match cutPacked? (Text.trimChars text.toList) with
  | none => .error (.malformedSlider text)
  | some (value, low, high) =>
    let value := Text.trimChars value
    match Decimal.parse? value, Decimal.parse? (Text.trimChars low),
        Decimal.parse? (Text.trimChars high) with
    | some v, some a, some b =>
      if v.isFinite && a.isFinite && b.isFinite then
        let (minimum, maximum) := if b.lt a then (b, a) else (a, b)
        .ok ⟨(v.larger minimum).smaller maximum, minimum, maximum, writtenPlaces value⟩
      else .error (.unboundedSlider text)
    | _, _, _ => .error (.unreadableSlider text)

/-! ### Descriptions -/

/-- What a description tells. -/
structure Description where
  places : Int
  lower : Decimal
  upper : Decimal
  rounding : Rounding
deriving Repr, DecidableEq

/-- The description of a slider that has none. -/
def Description.default : Description := ⟨0, .ofInt 0, .ofInt 100, .float⟩

/-- The text block of a description. -/
def describe (rounding : Rounding) (places minimum maximum : Value) : Except Fault String := do
  let accuracy ← places.text?
  return "Rounding: " ++ rounding.code ++ "\nAccuracy: " ++ accuracy
    ++ "\nLower limit: " ++ (← plain minimum) ++ "\nUpper limit: " ++ (← plain maximum)

/-- The decimal that a text writes. -/
def readLimit (cs : List Char) : Except Fault Decimal :=
  match Decimal.parse? cs with
  | some d => .ok d
  | none => .error .undefinedDecimal

/-- Takes one line of a description into account. Lines without a colon and unknown keys tell
nothing. -/
def Description.readLine (d : Description) (line : List Char) : Except Fault Description :=
  match Text.cut ':' (Text.trimChars line) with
  | (_, none) => .ok d
  | (key, some value) =>
    let key := Text.lowerChars (Text.trimChars key)
    let value := Text.trimChars value
    if key == "accuracy".toList then
      match readInt? value with
      | some places => .ok { d with places }
      | none => .error .unreadable
    else if key == "lower limit".toList then
      (readLimit value).map fun lower => { d with lower }
    else if key == "upper limit".toList then
      (readLimit value).map fun upper => { d with upper }
    else if key == "rounding".toList then
      .ok { d with rounding := Rounding.read (.str (String.ofList value)) }
    else .ok d

/-- Reads a description; what cannot be read is reported and gives the default description. -/
def readDescription (text : String) : Logged Description :=
  match (Text.lines text.toList).foldlM Description.readLine Description.default with
  | .error fault => do
    Logged.report ⟨"Slider", .warning,
      [.words "Unreadable slider description, using defaults: ", .cause fault]⟩
    return Description.default
  | .ok d =>
    if d.lower.isFinite && d.upper.isFinite then pure d
    else do
      Logged.report (record "Slider" .warning
        "Slider description has non-finite limits, using defaults")
      return Description.default

end Patchbay.Slider
