import Patchbay.Text.Blank
import Patchbay.Text.Split
import Patchbay.Fault

/-!
# Parameter lists

The formal parameters of a script's entry point, as its source text has them.

* `splitParameters` — the declarations of a list, cut at the commas outside brackets
* `Parameter` — one declaration: qualifier, type, name and default
* `Parameter.parse` — reads a declaration
* `Parameter.render` — a declaration with another type

A declaration whose type does not change is rendered as it was written.
-/

namespace Patchbay.Signature

/-- The closing bracket that an opening one asks for. -/
def closing? : Char → Option Char
  | '<' => some '>'
  | '(' => some ')'
  | '[' => some ']'
  | '\x7b' => some '\x7d'
  | _ => none

/-- The opening bracket that a closing one ends. -/
def opening? : Char → Option Char
  | '>' => some '<'
  | ')' => some '('
  | ']' => some '['
  | '\x7d' => some '\x7b'
  | _ => none

/-- Cuts a text at the commas outside brackets. `stack` holds the open brackets, the innermost
first, and `run` the current piece in reverse. -/
def splitFrom (stack run : List Char) : List Char → Except Fault (List (List Char))
  | [] => if stack.isEmpty then .ok [run.reverse] else .error .unclosedBracket
  | c :: rest =>
    if (closing? c).isSome then splitFrom (c :: stack) (c :: run) rest
    else
      match opening? c with
      | some opening =>
        match stack with
        | top :: stack =>
          if top = opening then splitFrom stack (c :: run) rest
          else .error (.unbalancedBracket c)
        | [] => .error (.unbalancedBracket c)
      | none =>
        if c = ',' && stack.isEmpty then (splitFrom [] [] rest).map (run.reverse :: ·)
        else splitFrom stack (c :: run) rest

/-- The declarations of a parameter list without the blanks around them. Empty ones are left
out. -/
def splitParameters (text : List Char) : Except Fault (List (List Char)) :=
  (splitFrom [] [] text).map fun pieces =>
    (pieces.map Text.trimChars).filter fun piece => !piece.isEmpty

/-- One formal parameter. -/
structure Parameter where
  name : String
  typeText : String
  /-- The word before the type that says how the argument is passed. -/
  qualifier : String
  default : String
  /-- The whole declaration. -/
  source : String
deriving Repr, DecidableEq, Inhabited

/-- The words that mark an output. -/
def outputQualifiers : List String := ["ref", "out"]

/-- The words that may stand before a type. -/
def qualifiers : List String := outputQualifiers ++ ["in", "params"]

namespace Parameter

def isOutput (p : Parameter) : Bool := outputQualifiers.contains p.qualifier

/-- Separates a qualifier from the type after it. -/
def splitQualifier (typeText : List Char) : String × List Char :=
  let unindented := typeText.dropWhile Text.isBlank
  let (word, rest) := unindented.span fun c => !Text.isBlank c
  if qualifiers.contains (String.ofList word) then (String.ofList word, Text.trimChars rest)
  else ("", typeText)

/-- Reads a declaration: the last word before an equals sign is the name, what stands before it the
type, what follows the sign the default. -/
def parse (fragment : List Char) : Except Fault Parameter :=
  let (head, after) := Text.cut '=' fragment
  let declaration := Text.trimChars head
  match (Text.words declaration).getLast? with
  | none => .error (.emptyDeclaration (String.ofList fragment))
  | some name =>
    let typeText := Text.trimChars (declaration.take (declaration.length - name.length))
    let (qualifier, typeText) := splitQualifier typeText
    .ok {
      name := String.ofList name
      typeText := String.ofList typeText
      qualifier
      default := String.ofList (Text.trimChars (after.getD []))
      source := String.ofList (Text.trimChars fragment) }

/-- The declaration with the given type. Without a type, or with the type it has, it stays as it
was written. -/
def render (p : Parameter) (typeText : Option String) : String :=
  let given := typeText.getD ""
  if !p.source.isEmpty && (given.isEmpty || given == p.typeText) then p.source
  else
    let shown := if given.isEmpty then p.typeText else given
    let parts := [p.qualifier, shown, p.name].filter fun part => !part.isEmpty
    let text := Text.joinWith " " parts
    if p.default.isEmpty then text else text ++ " = " ++ p.default

end Parameter

/-- Reads the declarations of a parameter list. -/
def parseParameters (text : List Char) : Except Fault (List Parameter) := do
  (← splitParameters text).mapM Parameter.parse

end Patchbay.Signature
