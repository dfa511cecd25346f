import Patchbay.Proofs.Rebuild.Configuring
import Patchbay.Proofs.Signature.Retyping

/-!
# Hints of a script's parameters

A script node gets the parameters that a component records, and its entry point gets their hints.  What
is written into the script is decided by the script alone: registering parameters leaves the attributes of
the node as they are (`Keeps`).

* **`rebuildScript_scriptText`** — the script afterwards is the script before with the hints in it.
* **`rebuildScript_hints`** — a hint is read back from the variable that the entry point declares at the
  place of its setting.  Inputs and outputs are counted apart, and nothing else connects a setting with a
  declaration: `rebuildScript_exchanged` has two settings in the other order.
-/

namespace Patchbay

/-- What replacing the parameters of a node leaves as it was: the attributes of the node, and that the
parameters it had go by texts. -/
structure Graph.Keeps (g₀ : Graph) (n : NodeRef) (g : Graph) : Prop where
  index_lt : n.index < g.nodes.length
  attributes : (g.node n).attributes = (g₀.node n).attributes
  named : ∀ p ∈ (g₀.node n).params, ∃ t, (g.param p).variableName = .str t

namespace Graph.Keeps

variable {g₀ g : Graph} {n : NodeRef}

theorem setParam (h : g₀.Keeps n g) (p : ParamRef) {v : Parameter}
    (hv : v.variableName = (g.param p).variableName ∨ ∃ t, v.variableName = .str t) :
    g₀.Keeps n (g.setParam p v) := by
  refine ⟨h.index_lt, h.attributes, fun q hq => ?_⟩
  by_cases hqp : q = p
  · subst hqp
    by_cases hlt : q.index < g.params.length
    · rw [Graph.param_setParam_self g v hlt]
      exact hv.elim (fun hsame => hsame ▸ h.named q hq) id
    · have hsame : g.setParam q v = g := by
        rw [Graph.setParam, List.set_eq_of_length_le (Nat.le_of_not_lt hlt)]
      rw [hsame]
      exact h.named q hq
  · rw [Graph.param_setParam_of_ne g v hqp]
    exact h.named q hq

theorem updateParam (h : g₀.Keeps n g) (p : ParamRef) {f : Parameter → Parameter}
    (hf : ∀ v, (f v).variableName = v.variableName) : g₀.Keeps n (g.updateParam p f) :=
  h.setParam p (.inl (hf _))

theorem updateNode (h : g₀.Keeps n g) {f : Node → Node} (hf : ∀ v, (f v).attributes = v.attributes) :
    g₀.Keeps n (g.updateNode n f) := by
  refine ⟨by simpa [Graph.updateNode, Graph.setNode] using h.index_lt, ?_, h.named⟩
  rw [Graph.updateNode, Graph.node_setNode_self g _ h.index_lt, hf]
  exact h.attributes

theorem newParam (h : g₀.Keeps n g) (identifier : String) :
    g₀.Keeps n (g.newParam (.ofVariable (.str identifier))).2 := by
  refine ⟨h.index_lt, h.attributes, fun p hp => ?_⟩
  have hold := h.named p hp
  unfold Graph.param at hold ⊢
  rw [List.getD_eq_getElem?_getD] at hold ⊢
  rcases Nat.lt_trichotomy p.index g.params.length with hlt | heq | hgt
  · simpa [Graph.newParam, List.getElem?_append_left hlt] using hold
  · exact ⟨identifier, by simp [Graph.newParam, heq, Parameter.ofVariable]⟩
  · rw [List.getElem?_eq_none (Nat.le_of_lt hgt)] at hold
    rwa [List.getElem?_eq_none (by simpa [Graph.newParam] using Nat.succ_le_of_lt hgt)]

/-! ## Wires and registrations -/

theorem disconnect (h : g₀.Keeps n g) (source target : ParamRef) : g₀.Keeps n (g.disconnect source target) := by
  unfold Graph.disconnect
  split
  · refine updateParam ?_ source fun _ => rfl
    exact h.updateParam target fun _ => rfl
  · exact h

theorem isolate (h : g₀.Keeps n g) (p : ParamRef) : g₀.Keeps n (g.isolate p) := by
  unfold Graph.isolate
  have hsources := List.foldlRecOn (motive := g₀.Keeps n) (g.param p).sources
    (fun g source => g.disconnect source p) h fun g hg source _ => hg.disconnect source p
  exact List.foldlRecOn (motive := g₀.Keeps n) _ _ hsources fun g hg target _ => hg.disconnect p target

theorem unregisterInput (h : g₀.Keeps n g) (p : ParamRef) : g₀.Keeps n (g.unregisterInput n p) := by
  unfold Graph.unregisterInput
  split
  · exact (h.isolate p).updateNode fun _ => rfl
  · exact h

theorem unregisterOutput (h : g₀.Keeps n g) (p : ParamRef) : g₀.Keeps n (g.unregisterOutput n p) := by
  unfold Graph.unregisterOutput
  split
  · exact (h.isolate p).updateNode fun _ => rfl
  · exact h

theorem unregisterAll (h : g₀.Keeps n g) : g₀.Keeps n (g.unregisterAll n) := by
  have hinputs := List.foldlRecOn (motive := g₀.Keeps n) (g.node n).inputs
    (fun g p => g.unregisterInput n p) h fun g hg p _ => hg.unregisterInput p
  exact List.foldlRecOn (motive := g₀.Keeps n) _ _ hinputs fun g hg p _ => hg.unregisterOutput p

theorem registerInput (h : g₀.Keeps n g) (p : ParamRef) : g₀.Keeps n (g.registerInput n p) := by
  refine updateNode ?_ fun v => ?_
  · exact h.updateParam p fun _ => rfl
  · split <;> rfl

theorem registerOutput (h : g₀.Keeps n g) (p : ParamRef) : g₀.Keeps n (g.registerOutput n p) := by
  refine updateNode ?_ fun v => ?_
  · exact h.updateParam p fun _ => rfl
  · split <;> rfl

end Graph.Keeps

namespace Work

open Procedure

variable {g₀ g : Graph} {n : NodeRef}

/-! ## Parameters of a script -/

theorem scriptParameter_keeps (h : g₀.Keeps n g) (language : Language) {candidates : List ParamRef}
    (hcandidates : candidates ⊆ (g₀.node n).params) {s : ParameterSettings} (hs : s.Typed) :
    (scriptParameter language candidates s).Succeeds g fun _ g' => g₀.Keeps n g' := by
  refine (scriptParameter_receives hs fun p hp => h.named p (hcandidates hp)).mono fun p g' hreceives => ?_
  cases hreceives with
  | reused => exact h.setParam p (.inr ⟨_, rfl⟩)
  | created => exact (h.newParam _).setParam _ (.inr ⟨_, rfl⟩)

theorem rebuildInput_keeps (h : g₀.Keeps n g) (language : Language) {s : ParameterSettings} (hs : s.Typed) :
    Succeeds (do
      let p ← scriptParameter language (g₀.node n).inputs s
      update fun g => g.registerInput n p
      if s.isPrincipal then setPrincipal n p) g fun _ g' => g₀.Keeps n g' := by
  refine (scriptParameter_keeps h language (List.subset_append_left _ _) hs).bind fun p g' h' => ?_
  refine (succeeds_update (Q := fun _ g' => g₀.Keeps n g') (h'.registerInput p)).andThen fun g'' h'' => ?_
  split
  · exact succeeds_update (h''.updateNode fun _ => rfl)
  · exact succeeds_pure h''

theorem rebuildOutput_keeps (h : g₀.Keeps n g) (language : Language) {s : ParameterSettings} (hs : s.Typed) :
    Succeeds (do
      let p ← scriptParameter language (g₀.node n).outputs s
      update fun g => g.registerOutput n p) g fun _ g' => g₀.Keeps n g' :=
  (scriptParameter_keeps h language (List.subset_append_right _ _) hs).bind
    fun p _ h' => succeeds_update (h'.registerOutput p)

/-- **The script afterwards is the script before with the hints in it**, if there are any. -/
theorem rebuildScript_scriptText {c : Component} (hn : n.index < g.nodes.length)
    (hnamed : ∀ p ∈ (g.node n).params, ∃ t, (g.param p).variableName = .str t) (hc : c.Typed)
    {inputs outputs : List (Option String)} (hinputs : c.inputs.mapM declaredHint = .ok inputs)
    (houtputs : c.outputs.mapM declaredHint = .ok outputs) :
    (rebuildScript n c).Succeeds g fun _ g' => (g'.node n).read .scriptText =
      if inputs.any isGiven || outputs.any isGiven then
        (Signature.inject (g.node n).language ((g.node n).read .scriptText) inputs outputs).value
      else (g.node n).read .scriptText := by
  unfold rebuildScript
  refine succeeds_graph_bind ?_
  have hstart : g.Keeps n g := ⟨hn, rfl, hnamed⟩
  dsimp only
  refine (succeeds_update (Q := fun _ g' => g.Keeps n g') hstart.unregisterAll).andThen fun g' h' => ?_
  refine (succeeds_forM (fun s hs g' h => rebuildInput_keeps h (g.node n).language (hc.inputs s hs)) h').andThen
    fun g' h' => ?_
  refine (succeeds_forM (fun s hs g' h => rebuildOutput_keeps h (g.node n).language (hc.outputs s hs)) h').andThen
    fun g' h' => ?_
  refine succeeds_ofResult_bind hinputs (succeeds_ofResult_bind houtputs ?_)
  have hread : (g'.node n).read .scriptText = (g.node n).read .scriptText := by
    change ((g'.node n).attributes.get? .scriptText).getD .null = _
    rw [h'.attributes]
    rfl
  split
  · refine succeeds_graph_bind ?_
    rw [hread]
    refine (succeeds_logged (Q := fun v g'' => v = _ ∧ g'' = g') ⟨rfl, rfl⟩).bind fun v g'' hv => ?_
    obtain ⟨rfl, rfl⟩ := hv
    refine succeeds_update ?_
    rw [Graph.updateNode, Graph.node_setNode_self _ _ h'.index_lt]
    exact congrArg (Option.getD · .null) (Attributes.get?_put_self _ _ _)
  · exact succeeds_pure hread

theorem ne_of_declaredHint {s : ParameterSettings} {hint : String} (h : declaredHint s = .ok (some hint)) :
    hint ≠ "" := by
  unfold declaredHint at h
  split at h
  · next htruthy =>
    obtain ⟨given, hgiven, hhint⟩ := exists_of_map_eq_ok h
    cases hhint
    cases hvalue : s.typeHint with
    | str t =>
        rw [hvalue] at hgiven htruthy
        cases hgiven
        have hne : t ≠ "" := by
          rintro rfl
          cases htruthy
        unfold TypeHint.forAccess
        split
        · exact hne
        · cases declaredAccess s <;> simp [hne, ← String.toList_inj]
    | _ =>
        rw [hvalue] at hgiven
        cases hgiven
  · cases h

/-- **Hints are written back by place.**  The hint of a setting is read back under every name, and so under
the setting's own variable, that the entry point first declares in the direction of the setting and at its
place among the parameters of that direction.  Hints that replace a type must be types (`Fits`). -/
theorem rebuildScript_hints {c : Component} (hn : n.index < g.nodes.length)
    (hnamed : ∀ p ∈ (g.node n).params, ∃ t, (g.param p).variableName = .str t) (hc : c.Typed)
    (hlanguage : (g.node n).language = .csharp) {script : String}
    (hscript : (g.node n).read .scriptText = .str script) {ps : List Signature.Parameter}
    (hps : Signature.parameters .csharp script = .ok ps) {inputs outputs : List (Option String)}
    (hinputs : c.inputs.mapM declaredHint = .ok inputs) (houtputs : c.outputs.mapM declaredHint = .ok outputs)
    (hfits : Signature.Fits inputs outputs ps) :
    (rebuildScript n c).Succeeds g fun _ g' =>
      ∀ output place s hint name, (if output then c.outputs else c.inputs)[place]? = some s →
        declaredHint s = .ok (some hint) → Signature.DeclaredAt ps output place name →
          (Signature.extract .csharp ((g'.node n).read .scriptText) (.str name)).value = some hint := by
  refine (rebuildScript_scriptText hn hnamed hc hinputs houtputs).mono fun _ g' hread => ?_
  intro output place s hint name hs hhint hdeclared
  have hne := ne_of_declaredHint hhint
  have hplace : (if output then outputs else inputs)[place]? = some (some hint) := by
    have hsettings : (if output then c.outputs else c.inputs).mapM declaredHint =
        .ok (if output then outputs else inputs) := by
      cases output
      · exact hinputs
      · exact houtputs
    obtain ⟨hint', hhint', hread⟩ := exists_of_getElem?_mapM hsettings hs
    rw [hhint] at hread
    cases hread
    exact hhint'
  have hgiven : (inputs.any isGiven || outputs.any isGiven) = true := by
    have hmem := List.mem_of_getElem? hplace
    have hsome : isGiven (some hint) = true := by simpa [isGiven, String.isEmpty_eq_false_iff] using hne
    rw [Bool.or_eq_true, List.any_eq_true, List.any_eq_true]
    cases output
    · exact .inl ⟨_, hmem, hsome⟩
    · exact .inr ⟨_, hmem, hsome⟩
  rw [hread, if_pos hgiven, hlanguage, hscript]
  exact Signature.extract_inject hps hfits hdeclared hplace hne

/-! ## One script -/

/-- A graph with nothing but a C# script, which has no parameters yet. -/
def scriptGraph (script : String) : Graph where
  params := []
  nodes := [{ (default : Node) with
    kind := .script
    language := .csharp
    attributes := [(.scriptText, .str script)] }]
  canvas := []
  ids := ⟨IdSupply.guidOf, 0⟩

/-- A setting with a name and a hint. -/
def hinted (name hint : String) : ParameterSettings :=
  { ParameterSettings.named (.str name) with typeHint := .str hint }

/-- A component whose settings have these names and hints. -/
def hintedComponent (inputs outputs : List (String × String)) : Component :=
  { (default : Component) with
    inputs := inputs.map fun s => hinted s.1 s.2
    outputs := outputs.map fun s => hinted s.1 s.2 }

theorem typed_hintedComponent (inputs outputs : List (String × String)) :
    (hintedComponent inputs outputs).Typed := by
  have hhinted : ∀ settings : List (String × String), ∀ s ∈ settings.map (fun s => hinted s.1 s.2), s.Typed := by
    intro settings s hs
    obtain ⟨pair, -, rfl⟩ := List.mem_map.mp hs
    exact ⟨⟨pair.1, rfl⟩, .inl rfl, .inr ⟨pair.2, rfl⟩⟩
  exact ⟨hhinted inputs, hhinted outputs⟩

/-- An entry point with two inputs and an output. -/
def twoInputs : String := "private void RunScript(double x, object y, ref object a)\n"

def twoInputsParameters : List Signature.Parameter :=
  [⟨"x", "double", "", "", "double x"⟩, ⟨"y", "object", "", "", "object y"⟩,
    ⟨"a", "object", "ref", "", "ref object a"⟩]

theorem parameters_twoInputs : Signature.parameters .csharp twoInputs = .ok twoInputsParameters := by
  decide

/-- Settings in the order of the entry point. -/
theorem rebuildScript_inOrder :
    (rebuildScript ⟨0⟩ (hintedComponent [("x", "int"), ("y", "Curve")] [("a", "string")])).Succeeds
      (scriptGraph twoInputs) fun _ g' =>
        let script := (g'.node ⟨0⟩).read .scriptText
        (Signature.extract .csharp script (.str "x")).value = some "int" ∧
          (Signature.extract .csharp script (.str "y")).value = some "Curve" ∧
          (Signature.extract .csharp script (.str "a")).value = some "string" := by
  have hrebuilt := rebuildScript_hints (g := scriptGraph twoInputs) (n := ⟨0⟩) (by decide)
    (fun p hp => nomatch hp) (typed_hintedComponent [("x", "int"), ("y", "Curve")] [("a", "string")]) rfl rfl
    parameters_twoInputs rfl rfl (by decide +kernel)
  refine hrebuilt.mono fun _ g' hread => ⟨?_, ?_, ?_⟩
  · exact hread false 0 _ _ _ rfl rfl ⟨[], _, _, rfl, by decide, rfl, rfl, rfl⟩
  · exact hread false 1 _ _ _ rfl rfl ⟨[_], _, _, rfl, by decide, rfl, rfl, rfl⟩
  · exact hread true 0 _ _ _ rfl rfl ⟨[_, _], _, _, rfl, by decide, rfl, rfl, rfl⟩

/-- What rebuilding makes of a script that nothing else is known of. -/
theorem rebuildScript_scriptGraph (script : String) (ins outs : List (String × String))
    {inputs outputs : List (Option String)}
    (hinputs : (hintedComponent ins outs).inputs.mapM declaredHint = .ok inputs)
    (houtputs : (hintedComponent ins outs).outputs.mapM declaredHint = .ok outputs) :
    (rebuildScript ⟨0⟩ (hintedComponent ins outs)).Succeeds (scriptGraph script) fun _ g' =>
      (g'.node ⟨0⟩).read .scriptText =
        if inputs.any isGiven || outputs.any isGiven then
          (Signature.inject .csharp (.str script) inputs outputs).value
        else .str script :=
  rebuildScript_scriptText Nat.zero_lt_one (fun _ hp => absurd hp List.not_mem_nil) (typed_hintedComponent ins outs) hinputs houtputs

/-- No hint is certain to be read back under its variable alone.  Settings in the other order than the
entry point exchange their hints; a hint with a comma in it declares a parameter of its own; and a hint that
is written to half a bracket makes the list unreadable for all others. -/
theorem rebuildScript_exchanged :
    ((rebuildScript ⟨0⟩ (hintedComponent [("y", "Curve"), ("x", "int")] [("a", "string")])).Succeeds
      (scriptGraph twoInputs) fun _ g' =>
        (Signature.extract .csharp ((g'.node ⟨0⟩).read .scriptText) (.str "x")).value = some "Curve") ∧
    ((rebuildScript ⟨0⟩ (hintedComponent [("x", "int, float")] [])).Succeeds (scriptGraph twoInputs) fun _ g' =>
      (Signature.extract .csharp ((g'.node ⟨0⟩).read .scriptText) (.str "x")).value = some "float") ∧
    (rebuildScript ⟨0⟩ (hintedComponent [("y", "object"), ("x", "int")] [])).Succeeds
      (scriptGraph "private void RunScript(Pair<int y>, double x)\n") fun _ g' =>
        (Signature.extract .csharp ((g'.node ⟨0⟩).read .scriptText) (.str "x")).value = none := by
  refine ⟨?_, ?_, ?_⟩
  · refine (rebuildScript_scriptGraph _ _ _ rfl rfl).mono fun _ g' hread => ?_
    rw [hread]
    decide +kernel
  · refine (rebuildScript_scriptGraph _ _ _ rfl rfl).mono fun _ g' hread => ?_
    rw [hread]
    decide +kernel
  · refine (rebuildScript_scriptGraph _ _ _ rfl rfl).mono fun _ g' hread => ?_
    rw [hread]
    decide +kernel

end Work

end Patchbay
