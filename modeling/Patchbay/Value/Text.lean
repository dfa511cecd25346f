import Patchbay.Text.Case
import Patchbay.Text.Split
import Patchbay.Value.Basic

/-!
# Texts of values

* `Value.shown` — a value as messages cite it, texts in quotes
* `Value.text` — the text of a value; a text is itself
* `Value.text?` — the same, where an integer with too many digits has none
* `Value.displayText` — the text for human readers, where a colour shows its channels

Lists and objects show their parts as `shown` does.
-/

namespace Patchbay

open scoped Powers

/-- A double with a fixed number of places after the point. A half is rounded away from zero, and
zero has no sign. -/
def Double.fixedText (places : Nat) (x : Float) : String :=
  if x.isNaN then "nan"
  else if !Double.isFinite x then (if x < 0 then "-inf" else "inf")
  else
    let p := Double.parts x
    let (num, den) := p.ratio
    let digits := Text.digitsOfNat ((2 * num * 10 ^ places + den) / (2 * den))
    let padded := List.replicate (places + 1 - digits.length) '0' ++ digits
    let whole := padded.length - places
    let body := padded.take whole ++ '.' :: padded.drop whole
    String.ofList (if p.negative && num != 0 then '-' :: body else body)

/-- A colour channel as a fraction of one, in single precision. -/
def channelFraction (n : Nat) : Float :=
  (Float32.ofNat (n * 257) / Float32.ofNat 65535).toFloat

namespace Color

/-- The channels in hexadecimal, alpha first. -/
def hex (c : Color) : String :=
  String.ofList ('#' :: (Text.hexText 2 c.alpha ++ Text.hexText 2 c.red ++ Text.hexText 2 c.green
    ++ Text.hexText 2 c.blue))

/-- The channels of a colour that was never set: opaque black. -/
def unset : Color := ⟨0, 0, 0, 255⟩

/-- The text of a colour, with its channels as fractions of one. -/
def text : Option Color → String
  | none => "PySide6.QtGui.QColor()"
  | some c =>
    let f := fun n => Double.fixedText 6 (channelFraction n)
    "PySide6.QtGui.QColor.fromRgbF(" ++ f c.red ++ ", " ++ f c.green ++ ", " ++ f c.blue ++ ", "
      ++ f c.alpha ++ ")"

end Color

/-- A record with named fields. -/
def recordText (name : String) (fields : List (String × String)) : String :=
  name ++ "(" ++ Text.joinWith ", " (fields.map fun (key, value) => key ++ "=" ++ value) ++ ")"

namespace Shape

private def number (x : Float) : String := Double.text Double.full x

/-- A point with its field names. -/
def pointShown (p : Point) : String :=
  recordText "Point3d" [("x", number p.x), ("y", number p.y), ("z", number p.z)]

/-- A vector with its field names. -/
def vectorShown (v : Vector) : String :=
  recordText "Vector3d" [("x", number v.x), ("y", number v.y), ("z", number v.z)]

/-- A plane with its field names. -/
def planeShown (p : Plane) : String :=
  recordText "Plane" [("origin", pointShown p.origin), ("x_axis", vectorShown p.xAxis),
    ("y_axis", vectorShown p.yAxis)]

/-- A geometric record with its field names. -/
def shown : Shape → String
  | point p => pointShown p
  | vector v => vectorShown v
  | line l => recordText "Line" [("start", pointShown l.start), ("end", pointShown l.end)]
  | plane p => planeShown p
  | circle c => recordText "Circle" [("plane", planeShown c.plane), ("radius", number c.radius)]
  | arc a =>
    recordText "Arc" [("plane", planeShown a.plane), ("radius", number a.radius),
      ("start_angle", number a.startAngle), ("end_angle", number a.endAngle)]
  | rectangle r =>
    recordText "Rectangle3d" [("plane", planeShown r.plane), ("width", number r.width),
      ("height", number r.height)]
  | box b => recordText "BoundingBox" [("min", pointShown b.min), ("max", pointShown b.max)]
  | interval i => recordText "Interval" [("t0", number i.t0), ("t1", number i.t1)]
  | size s => recordText "Size" [("width", number s.width), ("height", number s.height)]

end Shape

/-- A truth value as messages cite it. -/
def boolText (b : Bool) : String := if b then "True" else "False"

/-- A path as messages cite it. -/
def pathShown (path : Path) : String :=
  match path with
  | [i] => "(" ++ Text.integerText i ++ ",)"
  | _ => "(" ++ Text.joinWith ", " (path.map Text.integerText) ++ ")"

/-- An upper-case name with its code, as messages cite a choice. -/
def choiceShown (family name code : String) : String :=
  "<" ++ family ++ "." ++ name ++ ": " ++ Text.quoted code ++ ">"

/-- The upper-case form of a code. -/
def upperCode (code : String) : String := String.ofList (Text.upperAscii code.toList)

namespace Value

/-- The texts of the values without parts, as messages cite them. -/
def leafShown : Value → String
  | null => "None"
  | bool b => boolText b
  | int i => Text.integerText i
  | float x => Double.text Double.full x
  | str s => Text.quoted s
  | decimal d => "Decimal('" ++ d.toText ++ "')"
  | shape s => s.shown
  | color c => Color.text c
  | path p => pathShown p
  | spot x y =>
    "PySide6.QtCore.QPointF(" ++ Double.fixedText 6 x ++ ", " ++ Double.fixedText 6 y ++ ")"
  | region x y width height =>
    let f := Double.fixedText 6
    "PySide6.QtCore.QRectF(" ++ f x ++ ", " ++ f y ++ ", " ++ f width ++ ", " ++ f height ++ ")"
  | item i =>
    recordText "ValueListItem" [("name", Text.quoted i.name), ("expression", Text.quoted i.expression),
      ("selected", boolText i.selected)]
  | access a => choiceShown "ParamAccess" (upperCode a.code) a.code
  | mapping m => choiceShown "DataMapping" (upperCode m.code) m.code
  | rounding r => choiceShown "SliderRounding" r.name r.code
  | foreign _ text => text
  | list _ | object _ | tree _ => ""

mutual

/-- A value as messages cite it. -/
def shown : Value → String
  | list items => "[" ++ Text.joinWith ", " (shownAll items) ++ "]"
  | object entries => "\x7b" ++ Text.joinWith ", " (shownEntries entries) ++ "\x7d"
  | tree branches => "\x7b" ++ Text.joinWith ", " (shownBranches branches) ++ "\x7d"
  | leaf => leafShown leaf

/-- The items of a list as messages cite them. -/
def shownAll : List Value → List String
  | [] => []
  | v :: rest => shown v :: shownAll rest

/-- The entries of an object as messages cite them. -/
def shownEntries : List (String × Value) → List String
  | [] => []
  | (key, v) :: rest => (Text.quoted key ++ ": " ++ shown v) :: shownEntries rest

/-- The branches of a data tree as messages cite them. -/
def shownBranches : List (Path × List Value) → List String
  | [] => []
  | (p, items) :: rest =>
    (pathShown p ++ ": [" ++ Text.joinWith ", " (shownAll items) ++ "]") :: shownBranches rest

end

/-- The text of a value. A text is itself, a geometric record shows its display form. -/
def text : Value → String
  | str s => s
  | decimal d => d.toText
  | shape s => s.text
  | access a => "ParamAccess." ++ upperCode a.code
  | mapping m => "DataMapping." ++ upperCode m.code
  | rounding r => "SliderRounding." ++ r.name
  | other => other.shown

mutual

/-- Whether every integer in a value is short enough to be written. -/
def hasText : Value → Bool
  | int i => Text.digitCount i.natAbs ≤ integerDigitLimit
  | path p => p.all fun i => Text.digitCount i.natAbs ≤ integerDigitLimit
  | list items => allHaveText items
  | object entries => entriesHaveText entries
  | tree branches => branchesHaveText branches
  | _ => true

/-- `hasText` of every item. -/
def allHaveText : List Value → Bool
  | [] => true
  | v :: rest => hasText v && allHaveText rest

/-- `hasText` of the value of every entry. -/
def entriesHaveText : List (String × Value) → Bool
  | [] => true
  | (_, v) :: rest => hasText v && entriesHaveText rest

/-- `hasText` of the paths and the items of every branch. -/
def branchesHaveText : List (Path × List Value) → Bool
  | [] => true
  | (p, items) :: rest =>
    (p.all fun i => Text.digitCount i.natAbs ≤ integerDigitLimit) && allHaveText items
      && branchesHaveText rest

end

/-- The text of a value. An integer with too many digits cannot be written. -/
def text? (v : Value) : Except Fault String := if v.hasText then .ok v.text else .error .unreadable

/-- The text for human readers. A colour shows its channels. -/
def displayText : Value → String
  | color c => (c.getD Color.unset).hex
  | other => other.text

@[simp] theorem text_str (s : String) : (str s).text = s := rfl

@[simp] theorem text_null : null.text = "None" := rfl

@[simp] theorem text?_str (s : String) : (str s).text? = .ok s := rfl

theorem text?_of_hasText {v : Value} (h : v.hasText = true) : v.text? = .ok v.text := if_pos h

theorem eq_unreadable_of_text? {v : Value} {fault : Fault} (h : v.text? = .error fault) : fault = .unreadable := by
  unfold text? at h
  split at h
  · cases h
  · exact (Except.error.inj h).symm

theorem text_of_text? {v : Value} {s : String} (h : v.text? = .ok s) : v.text = s := by
  unfold text? at h
  split at h
  · exact Except.ok.inj h
  · cases h

end Value

end Patchbay
