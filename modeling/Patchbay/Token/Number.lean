import Patchbay.Text.Blank
import Patchbay.Text.Split
import Patchbay.Value.Basic

/-!
# Numbers in tokens

The payload of a token is made of numbers: `,` separates the fields of a point, `;` separates
points and groups, `<` stands between the bounds of a range.

* `writeNumber`, `readNumber` — one double; only finite ones are written
* `writeInteger`, `readInteger` — one integer; none is written or read with more digits than
  `integerDigitLimit`
* `readFields`, `readGroups` — a fixed number of parts
* `writePoint`, `readPoint`, `writeVector`, `readVector` — three fields
-/

namespace Patchbay.Token

/-- The text of a finite double: the fewest digits, whole numbers without a point. -/
def writeNumber (x : Float) : Except Fault String :=
  if Double.isFinite x then .ok (Double.text Double.inToken x) else .error (.nonFinite x)

/-- Reads a double in digits, with blanks around it. The words for infinities are not read, but a
numeral beyond the finite doubles reads as infinity. -/
def readNumber (cs : List Char) : Except Fault Float :=
  let trimmed := Text.trimChars cs
  match Numeral.parse? trimmed with
  | some n => .ok n.toFloat
  | none => .error (.notNumber (String.ofList trimmed))

/-- The text of an integer, unless it has too many digits. -/
def writeInteger (i : Int) : Except Fault String :=
  if integerDigitLimit < Text.digitCount i.natAbs then .error .unreadable
  else .ok (Text.integerText i)

/-- Whether a text is an optional sign and digits. -/
def isIntegerText (cs : List Char) : Bool :=
  let (_, digits) := Numeral.sign cs
  !digits.isEmpty && digits.all Text.isDigit

/-- Reads an integer in digits, with blanks around it. -/
def readInteger (cs : List Char) : Except Fault Int :=
  let trimmed := Text.trimChars cs
  if isIntegerText trimmed then
    match readInt? trimmed with
    | some i => .ok i
    | none => .error .unreadable
  else .error (.notInteger (String.ofList trimmed))

/-- Reads the numbers between the occurrences of `sep`. -/
def readFields (sep : Char) (cs : List Char) : Except Fault (List Float) :=
  (Text.splitOn sep cs).mapM readNumber

/-- The groups of a payload. -/
def readGroups (cs : List Char) : List (List Char) := Text.splitOn ';' cs

/-- Three fields in one group. -/
def writeTriple (x y z : Float) : Except Fault String := do
  return (← writeNumber x) ++ "," ++ (← writeNumber y) ++ "," ++ (← writeNumber z)

def writePoint (p : Point) : Except Fault String := writeTriple p.x p.y p.z

def writeVector (v : Vector) : Except Fault String := writeTriple v.x v.y v.z

/-- Reads a point of exactly three fields. -/
def readPoint (cs : List Char) : Except Fault Point := do
  match ← readFields ',' cs with
  | [x, y, z] => return ⟨x, y, z⟩
  | _ => throw .unreadable

/-- Reads a vector of exactly three fields. -/
def readVector (cs : List Char) : Except Fault Vector := do
  match ← readFields ',' cs with
  | [x, y, z] => return ⟨x, y, z⟩
  | _ => throw .unreadable

/-- Reads two numbers with `sep` between them. -/
def readPair (sep : Char) (cs : List Char) : Except Fault (Float × Float) := do
  match ← readFields sep cs with
  | [x, y] => return (x, y)
  | _ => throw .unreadable

end Patchbay.Token
