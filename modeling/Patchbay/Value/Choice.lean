import Patchbay.Text.Case
import Patchbay.Value.Basic
import Patchbay.Value.Text

/-!
# Reading choices

Documents and attributes may give a mode as a text in any case, as a number, or as the choice
itself. Reading never fails for a value of the wrong kind: it falls back to a default.

* `Access.read`, `Mapping.read`, `Rounding.read`
* `Access.readName`, `Mapping.readName` — the choice that a text names
* `Value.mode?`, `Value.ofMode` — the choice that a value is, and back
* `Value.code` — the code of a choice
-/

namespace Patchbay

/-- Whether a trimmed text, compared in lower case, is `word`. -/
def namesInLower (text : List Char) (word : String) : Bool :=
  Text.lowerChars text == Text.lowerChars word.toList

namespace Access

/-- The access that a text names, in any case and with blanks around it. -/
def readName (s : String) : Option Access :=
  let trimmed := Text.trimChars s.toList
  all.find? fun a => namesInLower trimmed a.code

/-- The access at a position of the list of choices. -/
def ofIndex (i : Int) : Option Access :=
  if 0 ≤ i then all[i.toNat]? else none

/-- Reads an access: the choice itself, its position, or its name. -/
def read (default : Access) : Value → Access
  | .access a => a
  | .int i => (ofIndex i).getD default
  | .str s => (readName s).getD default
  | _ => default

end Access

namespace Mapping

/-- The mapping that a text names, in any case. -/
def readName (trimmed : List Char) : Option Mapping :=
  all.find? fun m => namesInLower trimmed m.code

/-- The mapping at a position of the list of choices. -/
def ofIndex (i : Int) : Option Mapping :=
  if 0 ≤ i then all[i.toNat]? else none

/-- Whether a text looks like an integer: minus signs and then digits. -/
def looksNumeric (cs : List Char) : Bool :=
  let digits := cs.dropWhile (· == '-')
  !digits.isEmpty && digits.all Text.isDigitLike

/-- Reads a mapping: the choice itself, its position, its name, or its position as a text. A text
that looks like an integer and is none is a fault. -/
def read : Value → Except Fault Mapping
  | .mapping m => .ok m
  | .int i => .ok ((ofIndex i).getD none)
  | .str s =>
    let trimmed := Text.trimChars s.toList
    match readName trimmed with
    | some m => .ok m
    | .none =>
      if looksNumeric trimmed then
        match readInt? trimmed with
        | some i => .ok ((ofIndex i).getD none)
        | .none => .error .unreadable
      else .ok none
  | _ => .ok none

end Mapping

namespace Rounding

/-- The rounding that a text names by its letter or its name, in any case. -/
def readName (s : String) : Option Rounding :=
  let word := String.ofList (Text.upperAscii (Text.trimChars s.toList))
  all.find? fun r => word == r.code || word == r.name

/-- Reads a rounding; whatever names none is `float`. -/
def read : Value → Rounding
  | .rounding r => r
  | v => (readName (if v.truthy then v.text else "")).getD float

/-- `read` of a value that need not have a text. -/
def read? (v : Value) : Except Fault Rounding := if v.hasText then .ok (read v) else .error .unreadable

end Rounding

namespace Value

/-- The choice that a value is. -/
def mode? : Value → Option Mode
  | access a => some (.access a)
  | mapping m => some (.mapping m)
  | rounding r => some (.rounding r)
  | _ => none

/-- A choice as a value. -/
def ofMode : Mode → Value
  | .access a => access a
  | .mapping m => mapping m
  | .rounding r => rounding r

theorem mode?_ofMode (m : Mode) : (ofMode m).mode? = some m := by cases m <;> rfl

/-- The code of a choice. -/
def code (v : Value) : Except Fault String :=
  match v.mode? with
  | some m => .ok m.code
  | none => .error .noAttribute

end Value

end Patchbay
