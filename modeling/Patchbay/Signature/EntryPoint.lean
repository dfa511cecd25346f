import Patchbay.Text.Blank
import Patchbay.Text.Split
import Patchbay.Text.Case
import Patchbay.Value.Mode

/-!
# Entry points

Where a script declares the parameters of its node: the first place in the text that looks like the
entry point of its language.

| language | entry point |
|---|---|
| C# | `private void RunScript(…)`, then an opening brace or the end of the line |
| Python | `def RunScript(self, …):` |
| VB | `Sub RunScript(…)`, in any case |

* `EntryPoint` — the text before, within and after the parameter list
* `entryPoint?` — the entry point of a script

The list ends at the first bracket after which the rest of the entry point follows.
-/

namespace Patchbay.Signature

/-- An entry point within a script. -/
structure EntryPoint where
  /-- The script up to the parameter list. -/
  before : List Char
  /-- The parameter list. -/
  inside : List Char
  /-- The script from the end of the parameter list on. -/
  after : List Char
  /-- The entry point itself, from its first word to its end. -/
  whole : List Char
deriving Repr, DecidableEq

/-- What follows at least one blank. -/
def afterBlanks? : List Char → Option (List Char)
  | c :: rest => if Text.isBlank c then some (rest.dropWhile Text.isBlank) else none
  | [] => none

/-- What follows any number of blanks. -/
def afterSomeBlanks (cs : List Char) : List Char := cs.dropWhile Text.isBlank

/-- What follows a character. -/
def afterChar? (c : Char) : List Char → Option (List Char)
  | d :: rest => if c = d then some rest else none
  | [] => none

/-- The characters that count as one ASCII letter when case does not matter: the letter in both
cases, the dotless and the dotted i, and the long s. -/
def sameLetter (letter c : Char) : Bool :=
  Text.lowerChar c == Text.lowerChar letter
    || (Text.lowerChar letter == 'i' && (c == 'ı' || c == 'İ'))
    || (Text.lowerChar letter == 's' && c == 'ſ')

/-- What follows a word in any case. -/
def afterWordAnyCase? : List Char → List Char → Option (List Char)
  | [], cs => some cs
  | _ :: _, [] => none
  | w :: word, c :: cs => if sameLetter w c then afterWordAnyCase? word cs else none

/-- The part of the pattern before the parameter list: what follows it in the text. -/
def beforeList? (language : Language) (cs : List Char) : Option (List Char) :=
  match language with
  | .csharp => do
    let cs ← Text.afterText? "private".toList cs
    let cs ← afterBlanks? cs
    let cs ← Text.afterText? "void".toList cs
    let cs ← afterBlanks? cs
    let cs ← Text.afterText? "RunScript".toList cs
    afterChar? '(' (afterSomeBlanks cs)
  | .python => do
    let cs ← Text.afterText? "def".toList cs
    let cs ← afterBlanks? cs
    let cs ← Text.afterText? "RunScript".toList cs
    let cs ← afterChar? '(' (afterSomeBlanks cs)
    let cs ← Text.afterText? "self".toList (afterSomeBlanks cs)
    let cs ← afterChar? ',' (afterSomeBlanks cs)
    return afterSomeBlanks cs
  | .vb => do
    let cs ← afterWordAnyCase? "sub".toList cs
    let cs ← afterBlanks? cs
    let cs ← afterWordAnyCase? "runscript".toList cs
    afterChar? '(' (afterSomeBlanks cs)

/-- The part of the pattern after the parameter list, if the text begins with it: the characters it
takes. In C# the blanks after the bracket belong to it, up to an opening brace, the end of the text
or the last line feed among them. -/
def afterList? (language : Language) (cs : List Char) : Option (List Char) :=
  match language with
  | .csharp => do
    let rest ← afterChar? ')' cs
    let (blanks, next) := rest.span Text.isBlank
    match next with
    | [] => return ')' :: blanks
    | c :: _ =>
      if c == '\x7b' then return ')' :: blanks
      else if blanks.contains '\n' then
        return ')' :: (blanks.reverse.dropWhile (· != '\n')).tail.reverse
      else none
  | .python => do
    let rest ← afterChar? ')' (afterSomeBlanks cs)
    let rest ← afterChar? ':' (afterSomeBlanks rest)
    return cs.take (cs.length - rest.length)
  | .vb => do
    let _ ← afterChar? ')' cs
    return [')']

/-- The shortest beginning of a text after which the closing part follows: the beginning, the rest,
and the closing part. -/
def findClosing (language : Language) :
    List Char → Option (List Char × List Char × List Char)
  | [] => (afterList? language []).map fun closing => ([], [], closing)
  | c :: rest =>
    match afterList? language (c :: rest) with
    | some closing => some ([], c :: rest, closing)
    | none =>
      (findClosing language rest).map fun (inside, after, closing) => (c :: inside, after, closing)

/-- The entry point that begins exactly here; `passed` holds the script before this place, in
reverse. -/
def entryPointAt? (language : Language) (passed cs : List Char) : Option EntryPoint := do
  let list ← beforeList? language cs
  let (inside, after, closing) ← findClosing language list
  let opening := cs.take (cs.length - list.length)
  return ⟨passed.reverse ++ opening, inside, after, opening ++ inside ++ closing⟩

/-- The first entry point from here on. -/
def entryPointFrom? (language : Language) (passed : List Char) : List Char → Option EntryPoint
  | [] => entryPointAt? language passed []
  | c :: rest =>
    match entryPointAt? language passed (c :: rest) with
    | some found => some found
    | none => entryPointFrom? language (c :: passed) rest

/-- The entry point of a script. -/
def entryPoint? (language : Language) (script : String) : Option EntryPoint :=
  entryPointFrom? language [] script.toList

end Patchbay.Signature
