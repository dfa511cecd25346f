import Patchbay.Document.Basic
import Patchbay.Geometry.Algebra
import Patchbay.Rebuild.Host
import Patchbay.Signature.Hint
import Patchbay.TypeHint

/-!
# Rebuilding parameters

* `Parameter.applySettings`, `Parameter.applyScriptSettings` — recorded settings on a parameter
* `Work.applySettings` — the settings of a component on the parameters that its node has
* `Work.rebuildScript` — the parameters of a script, as a component records them

## Design decisions

* A setting that was not recorded leaves the parameter as it is.
* A script gets exactly the recorded parameters, in their order. One whose variable the script has
  already is used again, without its wires.
-/

namespace Patchbay

/-! ### Settings on a parameter -/

/-- A recorded flag as the value of an attribute; without one the attribute keeps its value. -/
def flagOr (flag : Option Bool) (otherwise : Value) : Value := (flag.map Value.bool).getD otherwise

/-- A recorded value; null leaves the other. -/
def recordedOr (recorded otherwise : Value) : Value :=
  if recorded.isNull then otherwise else recorded

namespace Parameter

/-- Recorded settings on any parameter. -/
def applySettings (p : Parameter) (s : ParameterSettings) : Parameter :=
  let m := s.modifiers.getD Modifiers.none
  { p with
    nickName := s.nickName.orElse p.nickName
    mapping := (s.mapping.map Value.ofMode).getD p.mapping
    expression := recordedOr s.expression p.expression
    reverse := flagOr m.reverse p.reverse
    simplify := flagOr m.simplify p.simplify
    locked := flagOr m.locked p.locked
    invert := flagOr m.invert p.invert }

/-- Recorded settings on a parameter of a script, with its names and its variable. -/
def applyScriptSettings (p : Parameter) (s : ParameterSettings) (identifier : Value) : Parameter :=
  { { p with
      name := s.name
      variableName := identifier
      nickName := s.nickName.orElse s.name }.applySettings s with
    access := (s.access.map Value.ofMode).getD p.access
    description := recordedOr s.description p.description
    optional := .bool (!s.required)
    typeHint := s.typeHint.orElse p.typeHint }

end Parameter

/-! ### Parameters that a node has -/

namespace Work

open Procedure

/-- Makes a parameter the principal one of its node. -/
def setPrincipal (n : NodeRef) (p : ParamRef) : Work Unit :=
  update fun g => g.updateNode n fun v => { v with principal := .int (v.inputs.idxOf p) }

/-- Reports a parameter that a node does not have. -/
def reportMissing (c : Component) (side : String) (s : ParameterSettings) : Work Unit :=
  report .debug [.words ("'" ++ c.name.text ++ "' has no " ++ side ++ " '" ++ s.name.text ++ "'")]

/-- The settings of an input on the input of that name. -/
def applyInput (n : NodeRef) (c : Component) (s : ParameterSettings) : Work Unit := do
  match (← graph).findInput? n s.name.text with
  | none => reportMissing c "input" s
  | some p =>
    update fun g => g.updateParam p fun v => v.applySettings s
    if s.isPrincipal then setPrincipal n p

/-- The settings of an output on the output of that name. -/
def applyOutput (n : NodeRef) (c : Component) (s : ParameterSettings) : Work Unit := do
  match (← graph).findOutput? n s.name.text with
  | none => reportMissing c "output" s
  | some p => update fun g => g.updateParam p fun v => v.applySettings s

/-- The settings of a component on the parameters of its node. -/
def applySettings (n : NodeRef) (c : Component) : Work Unit := do
  c.inputs.forM (applyInput n c)
  c.outputs.forM (applyOutput n c)

end Work

/-! ### Parameters of scripts -/

namespace Language

/-- The variable for a display name of any kind; VB takes names as they are. -/
def sanitizeValue (language : Language) (name : Value) : Except Fault Value :=
  match language, name with
  | .vb, v => .ok v
  | l, .str s => .ok (.str (l.sanitize s))
  | _, _ => .error .wrongKind

/-- Whether two variables of any kind are the same. -/
def sameVariableValue (language : Language) (left right : Value) : Except Fault Bool :=
  match language, left, right with
  | l, .str a, .str b => .ok (l.sameVariable a b)
  | .csharp, _, _ => .error .noAttribute
  | _, a, b => .ok (a.sameAs b)

end Language

namespace Work

open Procedure

/-- The first of some parameters with a variable. -/
def findVariable (language : Language) (identifier : Value) :
    List ParamRef → Work (Option ParamRef)
  | [] => pure none
  | p :: rest => do
    let v := (← graph).param p
    if ← ofResult (language.sameVariableValue v.variableName identifier) then return some p
    else findVariable language identifier rest

/-- A parameter with recorded settings: the existing one with its variable, or a new one. -/
def scriptParameter (language : Language) (existing : List ParamRef) (s : ParameterSettings) :
    Work ParamRef := do
  let identifier ← ofResult (language.sanitizeValue s.effectiveVariable)
  let p ←
    match ← findVariable language identifier existing with
    | some p => pure p
    | none => do
      let (p, g) := (← graph).newParam (.ofVariable identifier)
      set g
      pure p
  update fun g => g.updateParam p fun v => v.applyScriptSettings s identifier
  return p

/-- The access that settings declare; one item at a time without one. -/
def declaredAccess (s : ParameterSettings) : Access :=
  match s.access with
  | some (.access a) => a
  | _ => .item

/-- The hint that a parameter's settings declare, inside the collection of its access. -/
def declaredHint (s : ParameterSettings) : Except Fault (Option String) :=
  if s.typeHint.truthy then
    (TypeHint.forAccessValue s.typeHint (declaredAccess s)).map some
  else .ok none

/-- Whether a hint is there. -/
def isGiven (hint : Option String) : Bool := hint.any fun h => !h.isEmpty

/-- Replaces the parameters of a script by the recorded ones, and the types in its entry point by
the recorded hints. -/
def rebuildScript (n : NodeRef) (c : Component) : Work Unit := do
  let old := (← graph).node n
  update fun g => g.unregisterAll n
  c.inputs.forM fun s => do
    let p ← scriptParameter old.language old.inputs s
    update fun g => g.registerInput n p
    if s.isPrincipal then setPrincipal n p
  c.outputs.forM fun s => do
    let p ← scriptParameter old.language old.outputs s
    update fun g => g.registerOutput n p
  let inputs ← ofResult (c.inputs.mapM declaredHint)
  let outputs ← ofResult (c.outputs.mapM declaredHint)
  if inputs.any isGiven || outputs.any isGiven then
    let script := ((← graph).node n).read .scriptText
    let retyped ← logged (Signature.inject old.language script inputs outputs)
    update fun g => g.updateNode n fun v => v.put .scriptText retyped

end Work

end Patchbay
