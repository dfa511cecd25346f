import Patchbay.Text.Split
import Patchbay.Value.Basic
import Patchbay.Text.Quoted

/-!
# Writing JSON

* `Json.toPlain` — a value with everything that JSON cannot hold replaced by plain values
* `Json.render` — the JSON text of a plain value, on one line or indented

A text keeps its characters; only quotes, backslashes and controls are escaped.
-/

namespace Patchbay.Json

/-- The escape of a character in a JSON string, or the character itself. -/
def escapeChar (c : Char) : List Char :=
  if c == '"' then ['\\', '"']
  else if c == '\\' then ['\\', '\\']
  else if c == '\n' then ['\\', 'n']
  else if c == '\r' then ['\\', 'r']
  else if c == '\t' then ['\\', 't']
  else if c == '\x08' then ['\\', 'b']
  else if c == '\x0c' then ['\\', 'f']
  else if c.toNat < 0x20 then '\\' :: 'u' :: Text.hexText 4 c.toNat
  else [c]

/-- A JSON string. -/
def stringText (s : String) : String :=
  String.ofList ('"' :: (s.toList.flatMap escapeChar ++ ['"']))

/-- The text of a number in JSON. -/
def numberText (x : Float) : String := Double.text Double.inJson x

/-- A line break and the indentation of a nesting level; nothing when all stands on one line. -/
def lineBreak (indent : Option Nat) (level : Nat) : String :=
  match indent with
  | none => ""
  | some width => String.ofList ('\n' :: List.replicate (width * level) ' ')

/-- What stands between two neighbours. -/
def separator (indent : Option Nat) (level : Nat) : String :=
  match indent with
  | none => ", "
  | some _ => "," ++ lineBreak indent level

/-- Parts between brackets, on one line or on a line each. -/
def bracketed (indent : Option Nat) (level : Nat) (opening closing : String)
    (parts : List String) : String :=
  if parts.isEmpty then opening ++ closing
  else
    opening ++ lineBreak indent (level + 1) ++ Text.joinWith (separator indent (level + 1)) parts
      ++ lineBreak indent level ++ closing

mutual

/-- The JSON text of a plain value; other values are written as null. -/
def render (indent : Option Nat) (level : Nat) : Value → String
  | .null => "null"
  | .bool b => if b then "true" else "false"
  | .int i => Text.integerText i
  | .float x => numberText x
  | .str s => stringText s
  | .list items => bracketed indent level "[" "]" (renderItems indent (level + 1) items)
  | .object entries =>
    bracketed indent level "\x7b" "\x7d" (renderMembers indent (level + 1) entries)
  | _ => "null"

/-- The texts of the items of an array. -/
def renderItems (indent : Option Nat) (level : Nat) : List Value → List String
  | [] => []
  | v :: rest => render indent level v :: renderItems indent level rest

/-- The texts of the members of an object. -/
def renderMembers (indent : Option Nat) (level : Nat) : List (String × Value) → List String
  | [] => []
  | (key, v) :: rest =>
    (stringText key ++ ": " ++ render indent level v) :: renderMembers indent level rest

end

mutual

/-- Replaces everything that JSON cannot hold; `leaf` gives the plain value of a value that is
neither plain nor a container. A data tree has keys that JSON cannot hold, unless it is empty. -/
def toPlain (leaf : Value → Except Fault Value) : Value → Except Fault Value
  | .null => .ok .null
  | .bool b => .ok (.bool b)
  | .int i => .ok (.int i)
  | .float x => .ok (.float x)
  | .str s => .ok (.str s)
  | .list items => (itemsToPlain leaf items).map .list
  | .object entries => (membersToPlain leaf entries).map .object
  | .tree [] => .ok (.object [])
  | .tree (_ :: _) => .error .wrongKind
  | .path p => .ok (.list (p.map .int))
  | other => leaf other

/-- `toPlain` of every item, up to the first fault. -/
def itemsToPlain (leaf : Value → Except Fault Value) : List Value → Except Fault (List Value)
  | [] => .ok []
  | v :: rest => do return (← toPlain leaf v) :: (← itemsToPlain leaf rest)

/-- `toPlain` of every member, up to the first fault. -/
def membersToPlain (leaf : Value → Except Fault Value) :
    List (String × Value) → Except Fault (List (String × Value))
  | [] => .ok []
  | (key, v) :: rest => do return (key, ← toPlain leaf v) :: (← membersToPlain leaf rest)

end

end Patchbay.Json
