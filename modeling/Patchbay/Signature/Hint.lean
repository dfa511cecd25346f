import Patchbay.Signature.Parameter
import Patchbay.Signature.EntryPoint
import Patchbay.Identifier.Dialect
import Patchbay.Journal
import Patchbay.Value.Text

/-!
# Hints in scripts

The type that a script declares for a parameter is its hint. Only C# declares types; in the other
languages nothing is read and nothing is written.

* `parameters` — the parameters of a script's entry point
* `declaredType?` — the type declared for a variable
* `retyped` — the script with other types in its entry point
* `extract`, `inject` — the same for attributes of any kind, with every fault reported and none
  passed on

A script that cannot be read costs its own hints and nothing else.
-/

namespace Patchbay.Signature

/-- The parameters of a script's entry point; none if it has no entry point. -/
def parameters (language : Language) (script : String) : Except Fault (List Parameter) :=
  match entryPoint? language script with
  | none => .ok []
  | some entry => parseParameters entry.inside

/-- The type declared for a variable of a C# script. -/
def declaredType? (script name : String) : Except Fault (Option String) := do
  let wanted := Identifier.stripVerbatim name.toList
  match (← parameters .csharp script).find? fun p =>
      Identifier.stripVerbatim p.name.toList == wanted with
  | some p => return if p.typeText.isEmpty then none else some p.typeText
  | none => return none

/-- Gives each parameter its hint: the next input hint, or the next output hint for an output. -/
def assignHints : (inputs outputs : List (Option String)) → List Parameter →
    List (Parameter × Option String)
  | _, _, [] => []
  | inputs, outputs, p :: rest =>
    if p.isOutput then (p, outputs.head?.join) :: assignHints inputs outputs.tail rest
    else (p, inputs.head?.join) :: assignHints inputs.tail outputs rest

/-- Whether a hint changes the type of a parameter. -/
def changesType (p : Parameter) (hint : Option String) : Bool :=
  match hint with
  | some h => !h.isEmpty && h != p.typeText
  | none => false

/-- A C# script with the hints as types in its entry point. A script without an entry point, and one
that no hint changes, stays as it is. -/
def retyped (script : String) (inputs outputs : List (Option String)) : Except Fault String :=
  match entryPoint? .csharp script with
  | none => .ok script
  | some entry => do
    let assigned := assignHints inputs outputs (← parseParameters entry.inside)
    if assigned.any fun (p, hint) => changesType p hint then
      let list := Text.joinWith ", " (assigned.map fun (p, hint) => p.render hint)
      return String.ofList (entry.before ++ list.toList ++ entry.after)
    else return script

/-- The type declared for a variable, where script and variable may be values of any kind. -/
def declaredTypeOf? (script name : Value) : Except Fault (Option String) :=
  match name, script with
  | .str name, .str script => declaredType? script name
  | .str _, _ => .error .wrongKind
  | _, _ => .error .noAttribute

/-- The hint declared for a variable; nothing, with a report, if the script cannot be read. -/
def extract (language : Language) (script name : Value) : Logged (Option String) :=
  match language with
  | .csharp =>
    if !script.truthy then pure none
    else
      match declaredTypeOf? script name with
      | .ok hint => pure hint
      | .error fault => do
        Logged.report ⟨"Signatures", .warning,
          [.words ("Could not read type hint for '" ++ name.text ++ "' (" ++ language.code ++ "): "),
            .cause fault]⟩
        return none
  | _ => pure none

/-- A script with the hints as types in its entry point; unchanged, with a report, if it cannot be
read. -/
def inject (language : Language) (script : Value) (inputs outputs : List (Option String)) :
    Logged Value :=
  match language with
  | .csharp =>
    if !script.truthy then pure script
    else
      let result :=
        match script with
        | .str s => (retyped s inputs outputs).map Value.str
        | _ => .error .wrongKind
      match result with
      | .ok changed => pure changed
      | .error fault => do
        Logged.report ⟨"Signatures", .warning,
          [.words ("Could not update script signature (" ++ language.code ++ "): "), .cause fault]⟩
        return script
  | _ => pure script

end Patchbay.Signature
