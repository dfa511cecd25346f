import Patchbay.Identifier.Escape
import Patchbay.Text.Split
import Patchbay.Value.Mode

/-!
# Script identifiers

A parameter has a display name, which may be any text, and a variable in the script of its node.
Each script language has a scheme to turn one into the other.

* `isIdentifier` — the texts that every language takes as they are
* `Language.sanitize` — the variable for a display name
* `Language.unsanitize` — the display name behind a variable
* `Language.sameVariable` — whether two identifiers name one variable

| language | name | variable |
|---|---|---|
| C# | `radius` | `radius` |
| C# | `class`, a reserved word | `@class` |
| C# | `Max Radius` | `@__Max_20Radius` |
| Python | `class`, `Max Radius` | `__gh_class`, `__gh_Max_20Radius` |
| VB | any | the name itself |

A name that passes as an identifier may end in one line feed.
-/

namespace Patchbay

namespace Identifier

/-- The characters that an identifier begins with. -/
def isStart (c : Char) : Bool :=
  let n := c.toNat
  (65 ≤ n && n ≤ 90) || (97 ≤ n && n ≤ 122) || n == 95

/-- The characters that an identifier goes on with. -/
def isPart (c : Char) : Bool := isAlphanumeric c || c == '_'

/-- The characters of an identifier after the first, and at most one line feed after them. -/
def endsIdentifier : List Char → Bool
  | [] => true
  | ['\n'] => true
  | c :: rest => isPart c && endsIdentifier rest

/-- Whether a text passes as an identifier. -/
def isIdentifier : List Char → Bool
  | [] => false
  | c :: rest => isStart c && endsIdentifier rest

/-- Drops one leading `@`. -/
def stripVerbatim : List Char → List Char
  | '@' :: rest => rest
  | cs => cs

/-- What stands before the escaped form of a name in C#. -/
def csharpEscape : List Char := "@__".toList

/-- What stands before the escaped form of a name in Python. -/
def pythonEscape : List Char := "__gh_".toList

/-- The reserved words of C#. -/
def csharpReserved : List String := [
  "abstract", "as", "base", "bool", "break", "byte", "case", "catch",
  "char", "checked", "class", "const", "continue", "decimal", "default",
  "delegate", "do", "double", "else", "enum", "event", "explicit",
  "extern", "false", "finally", "fixed", "float", "for", "foreach",
  "goto", "if", "implicit", "in", "int", "interface", "internal", "is",
  "lock", "long", "namespace", "new", "null", "object", "operator", "out",
  "override", "params", "private", "protected", "public", "readonly",
  "ref", "return", "sbyte", "sealed", "short", "sizeof", "stackalloc",
  "static", "string", "struct", "switch", "this", "throw", "true", "try",
  "typeof", "uint", "ulong", "unchecked", "unsafe", "ushort", "using",
  "var", "virtual", "void", "volatile", "while"]

/-- The keywords of Python. -/
def pythonKeywords : List String := [
  "False", "None", "True", "and", "as", "assert", "async", "await", "break",
  "class", "continue", "def", "del", "elif", "else", "except", "finally",
  "for", "from", "global", "if", "import", "in", "is", "lambda", "nonlocal",
  "not", "or", "pass", "raise", "return", "try", "while", "with", "yield"]

/-- The variable for a name, on characters. -/
def sanitizeChars (language : Language) (name : List Char) : List Char :=
  match language with
  | .csharp =>
    if isIdentifier name then
      if csharpReserved.contains (String.ofList name) then '@' :: name else name
    else csharpEscape ++ escape name
  | .python =>
    if isIdentifier name && !pythonKeywords.contains (String.ofList name)
        && !pythonEscape.isPrefixOf name then name
    else pythonEscape ++ escape name
  | .vb => name

/-- The name behind a variable, on characters. A form that looks escaped and is malformed is taken
as it stands; one with a number out of range is a fault. -/
def unsanitizeChars (language : Language) (identifier : List Char) :
    Except Fault (List Char) :=
  match language with
  | .csharp =>
    match Text.afterText? csharpEscape identifier with
    | none => .ok (stripVerbatim identifier)
    | some body =>
      match unescape body with
      | .ok name => .ok name
      | .error .outOfRange => .error .outOfRange
      | .error _ => .ok (stripVerbatim identifier)
  | .python =>
    match Text.afterText? pythonEscape identifier with
    | none => .ok identifier
    | some body =>
      match unescape body with
      | .ok name => .ok name
      | .error .outOfRange => .error .outOfRange
      | .error _ => .ok identifier
  | .vb => .ok identifier

end Identifier

namespace Language

open Identifier

/-- The variable for a display name. -/
def sanitize (language : Language) (name : String) : String :=
  String.ofList (sanitizeChars language name.toList)

/-- The display name behind a variable. -/
def unsanitize (language : Language) (identifier : String) : Except Fault String :=
  (unsanitizeChars language identifier.toList).map String.ofList

/-- Whether two identifiers name the same variable: in C# the mark `@` does not count. -/
def sameVariable (language : Language) (left right : String) : Bool :=
  match language with
  | .csharp => stripVerbatim left.toList == stripVerbatim right.toList
  | _ => left == right

end Language

end Patchbay
