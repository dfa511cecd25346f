import Patchbay.Journal.Conversion

/-!
# Message templates

A template is a text with places for arguments. A place is a percent sign, the choices of a format
and the letter of a conversion; two percent signs stand for one.

    "%s has %d items"        "%(name)-8s|%+.3f"

* `Arguments` — the arguments that are left
* `Template.fill` — a template with its arguments

## Design decisions

* There must be an argument for each place and a place for each argument.
* A single object that is not empty serves as names for the arguments; what is not named in the
  template is left out.
* A template is read one character at a time. Choices come in the order key, flags, width,
  precision, size, and `Stage` says how far a place is.
-/

namespace Patchbay

open scoped Powers

/-- The arguments of a message that are left. -/
structure Arguments where
  inOrder : List Value
  /-- The arguments by name, if they have names. -/
  named : Option Entries

namespace Arguments

/-- Arguments as they are passed. -/
def ofList : List Value → Arguments
  | [.object (entry :: entries)] => ⟨[.object (entry :: entries)], some (entry :: entries)⟩
  | [.tree (branch :: branches)] => ⟨[.tree (branch :: branches)], some []⟩
  | args => ⟨args, none⟩

/-- Takes the next argument. -/
def next (args : Arguments) : Except Fault (Value × Arguments) :=
  match args.inOrder with
  | [] => .error .wrongKind
  | v :: rest => .ok (v, { args with inOrder := rest })

/-- Chooses the argument with a name to be the next one. -/
def choose (args : Arguments) (name : String) : Except Fault Arguments :=
  match args.named.bind fun entries => Entries.get? entries name with
  | some v => .ok { args with inOrder := [v] }
  | none => .error .unknownName

/-- Whether arguments are left that should have had a place. -/
def isSpare (args : Arguments) : Bool := args.named.isNone && !args.inOrder.isEmpty

end Arguments

namespace Template

/-- How far a place has been read. -/
inductive Stage
  | opened
  /-- In a name; `depth` counts the parentheses that are open in it. -/
  | key (depth : Nat) (name : List Char)
  | flags
  | width
  | widthDone
  | point
  | places
  | placesDone
  | sized
deriving Repr, DecidableEq

/-- A place that is being read. -/
structure Place where
  stage : Stage
  format : FieldFormat
deriving Repr, DecidableEq

/-- A place of which only the percent sign has been read. -/
def Place.start : Place := ⟨.opened, .plain⟩

/-- A format with a flag. -/
def flagged? (f : FieldFormat) (c : Char) : Option FieldFormat :=
  match c with
  | '-' => some { f with left := true }
  | '+' => some { f with plus := true }
  | ' ' => some { f with blank := true }
  | '#' => some { f with marked := true }
  | '0' => some { f with zeros := true }
  | _ => none

/-- Widths stay below this. -/
def maxWidth : Nat := 2 ^ (63 : Nat)

/-- Precisions stay below this. -/
def maxPrecision : Nat := 2 ^ (31 : Nat)

/-- An integer that fits between a bound and its negative. -/
def within (bound : Nat) (i : Int) : Except Fault Int :=
  if -(bound : Int) ≤ i ∧ i < bound then .ok i else .error .outOfRange

/-- A format with a width that is an argument; a negative one fills on the right. -/
def withWidth (f : FieldFormat) (width : Int) : Except Fault FieldFormat := do
  let width ← within maxWidth width
  return { f with left := f.left || width < 0, width := width.natAbs % maxWidth }

/-- A format with a precision that is an argument; a negative one counts as zero. -/
def withPrecision (f : FieldFormat) (precision : Int) : Except Fault FieldFormat := do
  return { f with precision := some (← within maxPrecision precision).toNat }

/-- A number with one more digit, if it stays below the bound. -/
def grown (bound n digit : Nat) : Except Fault Nat :=
  if 10 * n + digit < bound then .ok (10 * n + digit) else .error .unreadable

/-- The value of a digit. -/
def digit (c : Char) : Nat := c.toNat - '0'.toNat

/-- Reads a character between the percent sign and the conversion; nothing if it is the
conversion. -/
def Place.read (p : Place) (c : Char) (args : Arguments) : Except Fault (Option (Place × Arguments)) :=
  let go := fun (stage : Stage) (format : FieldFormat) => .ok (some (⟨stage, format⟩, args))
  let f := p.format
  let size := if c == 'h' || c == 'l' || c == 'L' then go .sized f else .ok none
  let precision := if c == '.' then go .point { f with precision := some 0 } else size
  let digits :=
    if Text.isAsciiDigit c then do
      let precision ← grown maxPrecision (f.precision.getD 0) (digit c)
      return some (⟨.places, { f with precision := some precision }⟩, args)
    else size
  let width :=
    if Text.isAsciiDigit c then do
      return some (⟨.width, { f with width := ← grown maxWidth f.width (digit c) }⟩, args)
    else precision
  let flags :=
    match flagged? f c with
    | some f => go .flags f
    | none =>
      if c == '*' then do
        let (v, args) ← args.next
        return some (⟨.widthDone, ← withWidth f (← FieldFormat.integer v)⟩, args)
      else width
  match p.stage with
  | .opened =>
    if c == '(' then if args.named.isSome then go (.key 0 []) f else .error .wrongKind else flags
  | .key depth name =>
    if c == ')' then
      match depth with
      | 0 => do return some (⟨.flags, f⟩, ← args.choose (String.ofList name))
      | depth + 1 => go (.key depth (name ++ [c])) f
    else go (.key (if c == '(' then depth + 1 else depth) (name ++ [c])) f
  | .flags => flags
  | .width => width
  | .widthDone => precision
  | .point =>
    if c == '*' then do
      let (v, args) ← args.next
      return some (⟨.placesDone, ← withPrecision f (← FieldFormat.integer v)⟩, args)
    else digits
  | .places => digits
  | .placesDone => size
  | .sized => .ok none

/-- The text of a place with a conversion. A second percent sign right after the first stands for
itself. -/
def Place.shown (p : Place) (letter : Char) (args : Arguments) :
    Except Fault (List Char × Arguments) :=
  if p.stage = .opened && letter == '%' then .ok (['%'], args)
  else do
    let (v, args) ← args.next
    let converted ← p.format.convert letter v
    if FieldFormat.maxLength < p.format.width then throw .outOfMemory
    return (p.format.fill converted, args)

/-- Fills a template from left to right; `place` is the place that is being read, if any. -/
def fillFrom : (place : Option Place) → List Char → Arguments → Except Fault (List Char)
  | none, [], args => if args.isSpare then .error .wrongKind else .ok []
  | some _, [], _ => .error .unreadable
  | none, c :: rest, args =>
    if c == '%' then fillFrom (some .start) rest args
    else do return c :: (← fillFrom none rest args)
  | some p, c :: rest, args => do
    match ← p.read c args with
    | some (p, args) => fillFrom (some p) rest args
    | none =>
      let (text, args) ← p.shown c args
      return text ++ (← fillFrom none rest args)

/-- A template with its arguments; without arguments it stays as it is. -/
def fill (template : String) (args : List Value) : Except Fault String :=
  if args.isEmpty then .ok template
  else (fillFrom none template.toList (.ofList args)).map String.ofList

end Template

end Patchbay
