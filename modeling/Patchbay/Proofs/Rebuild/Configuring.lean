import Patchbay.Rebuild
import Patchbay.Proofs.Canvas.Building
import Patchbay.Proofs.Canvas.Wiring

/-!
# Configuring never fails

The node of a component is made and configured whatever the component says, as long as the fields
that a script reads as texts hold texts.

* **`Component.Typed`** is that condition, and `Component.TypedFor` asks it of scripts only.  Property
  values, modes, pivots and messages may be of any kind.
* **`Work.configure_succeeds`** takes the invariant of building a node (`Graph.Builds`) through
  properties, settings, the rebuilt parameters of a script, and its maintenance.
* **`Work.scriptParameter_receives`** says exactly which parameter of a script a setting goes to
  (`Graph.Receives`), for all that is shown of rebuilt scripts.
* **`Work.makeNode_succeeds`** is what placing needs to know: there is a new node, and nothing that
  was there before has changed; or there is none, and nothing has changed at all.
-/

namespace Patchbay

open Validation (Side)

/-! ## Components of declared types -/

/-- A text, or nothing. -/
def Value.IsTextOrNull (v : Value) : Prop := v = .null ∨ ∃ s, v = .str s

/-- The name, the variable and the hint are texts where they are there. -/
structure ParameterSettings.Typed (s : ParameterSettings) : Prop where
  name : ∃ t, s.name = .str t
  variableName : s.variableName.IsTextOrNull
  typeHint : s.typeHint.IsTextOrNull

/-- The names, variables and hints of all settings are texts. -/
structure Component.Typed (c : Component) : Prop where
  inputs : ∀ s ∈ c.inputs, s.Typed
  outputs : ∀ s ∈ c.outputs, s.Typed

/-- The type that a catalog has for a component. -/
def Component.type? (catalog : Catalog) (c : Component) : Option NodeType :=
  (catalog.resolve (some c.typeKey.text) (some c.name.text)).value

/-- The component is no script, or has texts where a script reads them. -/
def Component.TypedFor (catalog : Catalog) (c : Component) : Prop :=
  ∀ t, c.type? catalog = some t → t.kind = .script → c.Typed

theorem Component.Typed.typedFor {c : Component} (h : c.Typed) (catalog : Catalog) :
    c.TypedFor catalog := fun _ _ _ => h

theorem ParameterSettings.Typed.effectiveVariable {s : ParameterSettings} (h : s.Typed) :
    ∃ t, s.effectiveVariable = .str t := by
  obtain ⟨name, hname⟩ := h.name
  rcases h.variableName with hnull | ⟨t, ht⟩
  · refine ⟨name, ?_⟩
    rw [ParameterSettings.effectiveVariable, hnull, hname]
    rfl
  · rw [ParameterSettings.effectiveVariable, ht, hname, Value.orElse]
    split
    · exact ⟨t, rfl⟩
    · exact ⟨name, rfl⟩

/-! ## Settings of parameters -/

namespace Parameter

theorem Fresh.applySettings {p : Parameter} (h : p.Fresh) (s : ParameterSettings) :
    (p.applySettings s).Fresh := ⟨h.sources, h.recipients, h.named⟩

theorem Fresh.applyScriptSettings {p : Parameter} (h : p.Fresh) (s : ParameterSettings)
    (identifier : String) : (p.applyScriptSettings s (.str identifier)).Fresh :=
  ⟨h.sources, h.recipients, identifier, rfl⟩

theorem fresh_ofVariable (identifier : String) : (ofVariable (.str identifier)).Fresh :=
  ⟨rfl, rfl, identifier, rfl⟩

end Parameter

/-- The variable that a setting is for. -/
def ParameterSettings.variableIn (s : ParameterSettings) (language : Language) : String :=
  language.sanitize s.effectiveVariable.text

theorem ParameterSettings.Typed.sanitizeValue {s : ParameterSettings} (h : s.Typed) (language : Language) :
    language.sanitizeValue s.effectiveVariable = .ok (.str (s.variableIn language)) := by
  obtain ⟨name, hname⟩ := h.effectiveVariable
  unfold variableIn
  rw [hname]
  cases language with
  | vb => exact congrArg (fun t => Except.ok (Value.str t)) String.ofList_toList.symm
  | _ => rfl

namespace Graph

variable {language : Language} {existing : List ParamRef} {s : ParameterSettings}

/-- The first of some parameters that has the variable of a setting. -/
def holder? (g : Graph) (language : Language) (existing : List ParamRef) (s : ParameterSettings) : Option ParamRef :=
  existing.find? fun p => language.sameVariable (g.param p).variableName.text (s.variableIn language)

/-- A setting of a script was put on a parameter: on the holder of its variable, or else on a new one. -/
inductive Receives (g : Graph) (language : Language) (existing : List ParamRef) (s : ParameterSettings) :
    ParamRef → Graph → Prop
  | reused {p : ParamRef} (h : g.holder? language existing s = some p) :
      Receives g language existing s p
        (g.updateParam p fun v => v.applyScriptSettings s (.str (s.variableIn language)))
  | created (h : g.holder? language existing s = none) :
      Receives g language existing s ⟨g.params.length⟩
        ((g.newParam (.ofVariable (.str (s.variableIn language)))).2.updateParam ⟨g.params.length⟩
          fun v => v.applyScriptSettings s (.str (s.variableIn language)))

end Graph

/-- The settings of typed parameters have hints. -/
theorem Work.declaredHint_ok {s : ParameterSettings} (h : s.Typed) :
    ∃ hint, declaredHint s = .ok hint := by
  unfold declaredHint
  rcases h.typeHint with hnull | ⟨t, ht⟩
  · rw [hnull]
    exact ⟨none, rfl⟩
  · rw [ht]
    split
    · exact ⟨_, rfl⟩
    · exact ⟨none, rfl⟩

theorem Graph.mem_of_findParam? {g : Graph} {params : List ParamRef} {name : String} {p : ParamRef}
    (h : g.findParam? params name = some p) : p ∈ params := by
  unfold findParam? at h
  split at h
  · next hfind =>
    cases h
    exact List.mem_of_find?_eq_some hfind
  · exact List.mem_of_find?_eq_some h

/-! ## Steps of the work -/

namespace Work

open Procedure

theorem succeeds_report {level : Level} {message : List Piece} {g : Graph} {Q : Unit → Graph → Prop}
    (h : Q () g) : (report level message).Succeeds g Q := succeeds_logged h

variable {g₀ g : Graph} {n : NodeRef} {k : NodeKind}

/-! ## Properties and settings -/

/-- Properties retouch the node. -/
theorem applyProperties_retouches {b : Rebuilder} (hb : ∀ d ∈ b.properties, d.source.isOpen = true)
    (hknown : (g.node n).attributes.get? .kind = none) (c : Component) (exclude : List String) :
    (applyProperties b n c exclude).Succeeds g fun _ g' =>
      ∃ v, (g.node n).Retouched v ∧ g' = g.setNode n v := by
  unfold applyProperties
  split
  · refine succeeds_graph_bind ?_
    have happly := PropertyTable.apply_succeeds hb .full exclude hknown c.properties
    refine (succeeds_attempt (Q := fun r g' => (g.node n).Retouched r.1 ∧ g' = g)
      (happly.mono fun _ hr => ⟨hr, rfl⟩)).bind fun r g' ⟨hr, hg'⟩ => ?_
    subst hg'
    exact succeeds_update ⟨r.1, hr, rfl⟩
  · exact succeeds_pure ⟨g.node n, .refl _, (g.setNode_node n).symm⟩

theorem applyProperties_succeeds {b : Rebuilder} (hb : ∀ d ∈ b.properties, d.source.isOpen = true)
    (h : g₀.Builds n k g) (c : Component) (exclude : List String) :
    (applyProperties b n c exclude).Succeeds g fun _ g' => g₀.Builds n k g' :=
  (applyProperties_retouches hb h.plain.known c exclude).mono fun _ _ ⟨_, hv, hg'⟩ => hg' ▸ h.retouch hv

theorem setPrincipal_succeeds (h : g₀.Builds n k g) (p : ParamRef) :
    (setPrincipal n p).Succeeds g fun _ g' => g₀.Builds n k g' := by
  refine succeeds_update (h.updateNode ?_ (List.Subset.refl _) (List.Subset.refl _))
  exact ⟨h.plain.kind, h.plain.known, ⟨_, rfl⟩, h.plain.runs⟩

/-- Settings go to a parameter of the node. -/
theorem applySettings_param_succeeds (h : g₀.Builds n k g) {p : ParamRef}
    (hp : p ∈ (g.node n).params) (s : ParameterSettings) :
    (update fun g => g.updateParam p fun v => v.applySettings s).Succeeds g
      fun _ g' => g₀.Builds n k g' := by
  obtain ⟨hle, hlt⟩ := h.own p hp
  exact succeeds_update (h.updateParam hle hlt ((h.fresh p hle hlt).applySettings s))

theorem applyInput_succeeds (h : g₀.Builds n k g) (c : Component) (s : ParameterSettings) :
    (applyInput n c s).Succeeds g fun _ g' => g₀.Builds n k g' := by
  unfold applyInput
  refine succeeds_graph_bind ?_
  cases hfind : g.findInput? n s.name.text with
  | none => exact succeeds_report h
  | some p =>
      have hp : p ∈ (g.node n).params := List.mem_append_left _ (Graph.mem_of_findParam? hfind)
      refine (applySettings_param_succeeds h hp s).andThen fun g' h' => ?_
      split
      · exact setPrincipal_succeeds h' p
      · exact succeeds_pure h'

theorem applyOutput_succeeds (h : g₀.Builds n k g) (c : Component) (s : ParameterSettings) :
    (applyOutput n c s).Succeeds g fun _ g' => g₀.Builds n k g' := by
  unfold applyOutput
  refine succeeds_graph_bind ?_
  cases hfind : g.findOutput? n s.name.text with
  | none => exact succeeds_report h
  | some p =>
      have hp : p ∈ (g.node n).params := List.mem_append_right _ (Graph.mem_of_findParam? hfind)
      exact applySettings_param_succeeds h hp s

theorem applyParameters_succeeds (b : Rebuilder) (h : g₀.Builds n k g) (c : Component) :
    (applyParameters b n c).Succeeds g fun _ g' => g₀.Builds n k g' := by
  unfold applyParameters applySettings
  split
  · refine (succeeds_forM (fun s _ g h => applyInput_succeeds h c s) h).andThen fun g' h' => ?_
    exact succeeds_forM (fun s _ g h => applyOutput_succeeds h c s) h'
  · exact succeeds_pure h

/-- And so does the packed value of a slider. -/
theorem applySlider_retouches (n : NodeRef) (c : Component) (g : Graph) :
    (applySlider n c).Succeeds g fun _ g' => ∃ v, (g.node n).Retouched v ∧ g' = g.setNode n v := by
  have hsame : ∃ v, (g.node n).Retouched v ∧ g = g.setNode n v :=
    ⟨g.node n, .refl _, (g.setNode_node n).symm⟩
  unfold applySlider
  dsimp only
  split
  · refine succeeds_graph_bind ?_
    split
    · next node hslider => exact succeeds_update ⟨node, Node.applySlider_retouched hslider, rfl⟩
    · next fault hslider =>
      rw [if_pos (Node.isLocal_applySlider hslider)]
      exact succeeds_report hsame
  · exact succeeds_pure hsame

theorem applySlider_succeeds (h : g₀.Builds n k g) (c : Component) :
    (applySlider n c).Succeeds g fun _ g' => g₀.Builds n k g' :=
  (applySlider_retouches n c g).mono fun _ _ ⟨_, hv, hg'⟩ => hg' ▸ h.retouch hv

/-- A value for an attribute that is not reserved. -/
theorem put_succeeds (h : g₀.Builds n k g) {a : Attribute} (ha : a ∉ Attribute.reserved) (v : Value) :
    (update fun g => g.updateNode n fun node => node.put a v).Succeeds g
      fun _ g' => g₀.Builds n k g' :=
  succeeds_update (h.updateNode (h.plain.put v ha) (List.Subset.refl _) (List.Subset.refl _))

/-- The text of a script retouches it, too. -/
theorem applyScript_retouches (n : NodeRef) (c : Component) (g : Graph) :
    (applyScript n c).Succeeds g fun _ g' => ∃ v, (g.node n).Retouched v ∧ g' = g.setNode n v := by
  unfold applyScript
  split
  · exact succeeds_update ⟨_, .put _ _ (by decide), rfl⟩
  · exact succeeds_pure ⟨g.node n, .refl _, (g.setNode_node n).symm⟩

theorem applyScript_succeeds (h : g₀.Builds n k g) (c : Component) :
    (applyScript n c).Succeeds g fun _ g' => g₀.Builds n k g' :=
  (applyScript_retouches n c g).mono fun _ _ ⟨_, hv, hg'⟩ => hg' ▸ h.retouch hv

/-! ## Scripts -/

/-- The invariant of rebuilding the parameters of a script: the parameters it had are still there,
though none of them need belong to it any more; and none has changed sides. -/
structure Rebuilds (g₀ : Graph) (n : NodeRef) (k : NodeKind) (old : Node) (g : Graph) : Prop where
  builds : g₀.Builds n k g
  parted : old.Parted
  existing : ∀ p ∈ old.params, g₀.params.length ≤ p.index ∧ p.index < g.params.length
  inputs : ∀ p ∈ (g.node n).inputs, p ∉ old.outputs
  outputs : ∀ p ∈ (g.node n).outputs, p ∉ old.inputs

variable {old : Node}

theorem Rebuilds.of_unregisterAll (h : g₀.Builds n k g) :
    Rebuilds g₀ n k (g.node n) (g.unregisterAll n) := by
  obtain ⟨hbare, hsheds⟩ := h.unregisterAll
  constructor
  case builds => exact hbare
  case parted => exact h.parted
  case existing =>
    rw [hsheds.params]
    exact h.own
  case inputs => exact fun p hp => h.parted p (hsheds.inputs hp)
  case outputs => exact fun p hp hmem => h.parted p hmem (hsheds.outputs hp)

/-- The invariant survives every step that drops no parameter and gives the node none. -/
theorem Rebuilds.of_le {g' : Graph} (h : Rebuilds g₀ n k old g) (h' : g₀.Builds n k g')
    (hle : g.params.length ≤ g'.params.length) (hinputs : (g'.node n).inputs = (g.node n).inputs)
    (houtputs : (g'.node n).outputs = (g.node n).outputs) : Rebuilds g₀ n k old g' where
  builds := h'
  parted := h.parted
  existing := fun p hp => ⟨(h.existing p hp).1, Nat.lt_of_lt_of_le (h.existing p hp).2 hle⟩
  inputs := hinputs ▸ h.inputs
  outputs := houtputs ▸ h.outputs

/-- What a script parameter may be: one from a side of the script, or a new one. -/
structure Rebuilds.Admits (g₀ : Graph) (n : NodeRef) (old : Node) (side : List ParamRef) (p : ParamRef)
    (g : Graph) : Prop where
  first : g₀.params.length ≤ p.index
  last : p.index < g.params.length
  origin : p ∈ side ∨ (p ∉ old.params ∧ p ∉ (g.node n).params)

/-- What the script has on one side it did not have on the other. -/
theorem Rebuilds.apart (h : Rebuilds g₀ n k old g) {side side' : Side} (hne : side ≠ side') {p : ParamRef}
    (hp : p ∈ side.params (g.node n)) : p ∉ side'.params old := by
  cases side <;> cases side' <;> first
    | exact absurd rfl hne
    | exact h.inputs p hp
    | exact h.outputs p hp

/-- **A parameter that may be on a side is registered there.** -/
theorem Rebuilds.register (h : Rebuilds g₀ n k old g) (side : Side) {p : ParamRef}
    (hp : Rebuilds.Admits g₀ n old (side.params old) p g) : Rebuilds g₀ n k old (side.register g n p) := by
  -- neither is it on another side now, nor was it before
  have hother : ∀ side' ≠ side, p ∉ side'.params (g.node n) ∧ p ∉ side'.params old := by
    intro side' hne
    rcases hp.origin with hside | ⟨hold, hnow⟩
    · exact ⟨fun hmem => h.apart hne hmem hside, h.parted.apart hne.symm hside⟩
    · exact ⟨fun hmem => hnow (side'.params_subset _ hmem), fun hmem => hold (side'.params_subset _ hmem)⟩
  have hapart : ∀ side₁ side₂ : Side, side₁ ≠ side₂ → ∀ q ∈ side₁.params ((side.register g n p).node n),
      q ∉ side₂.params old := by
    intro side₁ side₂ hne q hq
    rw [side.node_register h.builds.index_lt p] at hq
    split at hq
    · exact h.apart hne hq
    · by_cases hside : side₁ = side
      · subst hside
        rw [side₁.params_extend_self] at hq
        rcases List.mem_append.mp hq with hq | hq
        · exact h.apart hne hq
        · exact List.mem_singleton.mp hq ▸ (hother side₂ hne.symm).2
      · rw [Side.params_extend_of_ne hside] at hq
        exact h.apart hne hq
  constructor
  case builds => exact h.builds.register side hp.first hp.last fun side' hne => (hother side' hne).1
  case parted => exact h.parted
  case existing =>
    rw [side.params_register]
    exact h.existing
  case inputs => exact hapart .input .output (by decide)
  case outputs => exact hapart .output .input (by decide)

/-- Settings go to a parameter that may be the script's. -/
theorem Rebuilds.putSettings (h : Rebuilds g₀ n k old g) {side : List ParamRef} {p : ParamRef}
    (s : ParameterSettings) (identifier : String) (hp : Rebuilds.Admits g₀ n old side p g) :
    Rebuilds g₀ n k old (g.updateParam p fun v => v.applyScriptSettings s (.str identifier)) ∧
      Rebuilds.Admits g₀ n old side p (g.updateParam p fun v => v.applyScriptSettings s (.str identifier)) := by
  have hlength := g.length_updateParam p fun v => v.applyScriptSettings s (.str identifier)
  have hfresh := (h.builds.fresh p hp.first hp.last).applyScriptSettings s identifier
  exact ⟨h.of_le (h.builds.updateParam hp.first hp.last hfresh) (Nat.le_of_eq hlength.symm) rfl rfl,
    hp.first, hlength ▸ hp.last, hp.origin⟩

/-- Among parameters whose variables are texts, the first with a variable is found. -/
theorem findVariable_find? (language : Language) (identifier : String) {candidates : List ParamRef}
    (hnamed : ∀ p ∈ candidates, ∃ t, (g.param p).variableName = .str t) :
    (findVariable language (.str identifier) candidates).Succeeds g fun found g' => g' = g ∧
      found = candidates.find? fun p => language.sameVariable (g.param p).variableName.text identifier := by
  induction candidates with
  | nil => exact succeeds_pure ⟨rfl, rfl⟩
  | cons p rest ih =>
      unfold findVariable
      refine succeeds_graph_bind ?_
      obtain ⟨variableName, hvariable⟩ := hnamed p List.mem_cons_self
      dsimp only
      rw [hvariable]
      have hsame : language.sameVariableValue (.str variableName) (.str identifier) =
          .ok (language.sameVariable variableName identifier) := by cases language <;> rfl
      refine succeeds_ofResult_bind hsame ?_
      split
      · next htrue => exact succeeds_pure ⟨rfl, by simp [hvariable, htrue]⟩
      · next hfalse =>
        refine (ih fun q hq => hnamed q (List.mem_cons_of_mem p hq)).mono fun found g' ⟨hg', hfound⟩ => ⟨hg', ?_⟩
        simp [hfound, hvariable, hfalse]

/-- **A setting of a script goes to the parameter with its variable, or else to a new one.** -/
theorem scriptParameter_receives {language : Language} {existing : List ParamRef} {s : ParameterSettings}
    (hs : s.Typed) (hnamed : ∀ p ∈ existing, ∃ t, (g.param p).variableName = .str t) :
    (scriptParameter language existing s).Succeeds g (g.Receives language existing s) := by
  unfold scriptParameter
  refine succeeds_ofResult_bind (hs.sanitizeValue language) ?_
  refine (findVariable_find? _ _ hnamed).bind fun found g' ⟨hg', hfound⟩ => ?_
  subst hg'
  cases found with
  | some p => exact (succeeds_update (Q := fun _ => g'.Receives language existing s p)
      (.reused hfound.symm)).andThen fun _ => succeeds_pure
  | none =>
      refine succeeds_graph_bind ?_
      refine (succeeds_set (Q := fun _ g'' => g'' = (g'.newParam _).2) rfl).andThen fun g'' hg'' => ?_
      subst hg''
      exact (succeeds_update (Q := fun _ => g'.Receives language existing s ⟨g'.params.length⟩)
        (.created hfound.symm)).andThen fun _ => succeeds_pure

/-- A script parameter is one that the script had on that side, or a new one. -/
theorem scriptParameter_succeeds (h : Rebuilds g₀ n k old g) (language : Language)
    {candidates : List ParamRef} (hcandidates : candidates ⊆ old.params) {s : ParameterSettings}
    (hs : s.Typed) :
    (scriptParameter language candidates s).Succeeds g fun p g' =>
      Rebuilds g₀ n k old g' ∧ Rebuilds.Admits g₀ n old candidates p g' := by
  have hnamed : ∀ p ∈ candidates, ∃ t, (g.param p).variableName = .str t := by
    intro p hp
    obtain ⟨hle, hlt⟩ := h.existing p (hcandidates hp)
    exact (h.builds.fresh p hle hlt).named
  refine (scriptParameter_receives hs hnamed).mono fun p g' hreceives => ?_
  cases hreceives with
  | reused hholder =>
      have hp := List.mem_of_find?_eq_some hholder
      obtain ⟨hle, hlt⟩ := h.existing p (hcandidates hp)
      exact h.putSettings s _ ⟨hle, hlt, Or.inl hp⟩
  | created =>
      have hlength := g.length_newParam (.ofVariable (.str (s.variableIn language)))
      have hnew := h.builds.newParam (Parameter.fresh_ofVariable (s.variableIn language))
      refine (h.of_le hnew ?_ rfl rfl).putSettings s _ ⟨h.builds.params, ?_, Or.inr ⟨?_, ?_⟩⟩
      · exact hlength ▸ Nat.le_succ _
      · exact hlength ▸ Nat.lt_succ_self _
      · exact fun hmem => absurd (h.existing _ hmem).2 (Nat.lt_irrefl _)
      · exact fun hmem => absurd (h.builds.own _ hmem).2 (Nat.lt_irrefl _)

/-- A rebuilt input is registered, and may be the principal one. -/
theorem rebuildInput_succeeds (h : Rebuilds g₀ n k old g) (language : Language)
    {s : ParameterSettings} (hs : s.Typed) :
    Succeeds (do
      let p ← scriptParameter language old.inputs s
      update fun g => g.registerInput n p
      if s.isPrincipal then setPrincipal n p) g fun _ g' => Rebuilds g₀ n k old g' := by
  refine (scriptParameter_succeeds h language (List.subset_append_left _ _) hs).bind
    fun p g' ⟨h', hp⟩ => ?_
  refine (succeeds_update (Q := fun _ g' => Rebuilds g₀ n k old g') (h'.register .input hp)).andThen
    fun g'' h'' => ?_
  split
  · have hplain := h''.builds.plain
    have hbuilds : g₀.Builds n k (g''.updateNode n fun v =>
        { v with principal := .int (v.inputs.idxOf p) }) :=
      h''.builds.updateNode ⟨hplain.kind, hplain.known, ⟨_, rfl⟩, hplain.runs⟩ (List.Subset.refl _)
        (List.Subset.refl _)
    refine succeeds_update (h''.of_le hbuilds (Nat.le_refl _) ?_ ?_) <;>
      rw [Graph.updateNode, Graph.node_setNode_self _ _ h''.builds.index_lt]
  · exact succeeds_pure h''

/-- A rebuilt output is registered. -/
theorem rebuildOutput_succeeds (h : Rebuilds g₀ n k old g) (language : Language)
    {s : ParameterSettings} (hs : s.Typed) :
    Succeeds (do
      let p ← scriptParameter language old.outputs s
      update fun g => g.registerOutput n p) g fun _ g' => Rebuilds g₀ n k old g' :=
  (scriptParameter_succeeds h language (List.subset_append_right _ _) hs).bind
    fun _ _ ⟨h', hp⟩ => succeeds_update (h'.register .output hp)

theorem rebuildScript_succeeds (h : g₀.Builds n k g) {c : Component} (hc : c.Typed) :
    (rebuildScript n c).Succeeds g fun _ g' => g₀.Builds n k g' := by
  unfold rebuildScript
  refine succeeds_graph_bind ?_
  have hstart := Rebuilds.of_unregisterAll h
  generalize g.node n = old at hstart ⊢
  dsimp only
  refine (succeeds_update (Q := fun _ g' => Rebuilds g₀ n k old g') hstart).andThen
    fun g' h' => ?_
  refine (succeeds_forM (fun s hs g h => rebuildInput_succeeds h old.language
    (hc.inputs s hs)) h').andThen fun g' h' => ?_
  refine (succeeds_forM (fun s hs g h => rebuildOutput_succeeds h old.language
    (hc.outputs s hs)) h').andThen fun g' h' => ?_
  obtain ⟨inputs, hinputs⟩ := exists_mapM_eq_ok fun s hs => declaredHint_ok (hc.inputs s hs)
  obtain ⟨outputs, houtputs⟩ := exists_mapM_eq_ok fun s hs => declaredHint_ok (hc.outputs s hs)
  refine (succeeds_ofResult (Q := fun _ g' => g₀.Builds n k g') hinputs h'.builds).bind
    fun inputs g' h' => ?_
  refine (succeeds_ofResult (Q := fun _ g' => g₀.Builds n k g') houtputs h').bind
    fun outputs g' h' => ?_
  split
  · refine succeeds_graph_bind ?_
    refine (succeeds_logged (Q := fun _ g' => g₀.Builds n k g') h').bind fun retyped g' h' => ?_
    exact put_succeeds h' (by decide) retyped
  · exact succeeds_pure h'

/-! ## Maintenance -/

theorem isBelow_int (bound : Nat) (i : Int) : ∃ below, isBelow bound (.int i) = .ok below :=
  ⟨_, rfl⟩

/-- Nothing fails, and beyond the names nothing is done to the parameters. -/
theorem maintain_succeeds (h : g₀.Builds n .script g) :
    (maintain n).Succeeds g fun _ g' => g₀.Builds n .script g' ∧ (g.nameParams n).SameSides n g' := by
  unfold maintain
  refine (succeeds_update (Q := fun _ g' => g' = g.nameParams n) rfl).andThen fun g₁ hg₁ => ?_
  rw [← hg₁]
  have h₁ : g₀.Builds n .script g₁ := hg₁ ▸ h.nameParams
  refine succeeds_graph_bind ?_
  dsimp only
  obtain ⟨principal, hprincipal⟩ := h₁.plain.principal
  obtain ⟨runs, hruns⟩ := h₁.plain.runs rfl
  have hread : (g₁.node n).read .maintenanceRuns = .int runs := by
    change ((g₁.node n).attributes.get? .maintenanceRuns).getD .null = _
    rw [hruns]
    rfl
  -- the count goes on from what it was before the principal input was looked at
  have hcount : ∀ g', g₀.Builds n .script g' ∧ g₁.SameSides n g' →
      Succeeds (do
        let runs ← ofResult (successor (.int runs))
        update fun g => g.updateNode n fun v => v.put .maintenanceRuns runs) g'
        fun _ g' => g₀.Builds n .script g' ∧ g₁.SameSides n g' := by
    intro g' ⟨h', hsides⟩
    refine succeeds_ofResult_bind (a := .int (runs + 1)) rfl ?_
    refine succeeds_update ⟨h'.updateNode ⟨h'.plain.kind, ?_, h'.plain.principal, ?_⟩
      (List.Subset.refl _) (List.Subset.refl _), hsides.trans (.setNode g' rfl rfl)⟩
    · exact (Attributes.get?_put_of_ne _ _ (by decide)).trans h'.plain.known
    · exact fun _ => ⟨_, Attributes.get?_put_self _ _ _⟩
  rw [hprincipal, hread]
  obtain ⟨below, hbelow⟩ := isBelow_int (g₁.node n).inputs.length principal
  refine succeeds_ofResult_bind hbelow ?_
  split
  · refine (succeeds_update (Q := fun _ g' => g₀.Builds n .script g' ∧ g₁.SameSides n g') ⟨?_, ?_⟩).andThen hcount
    · exact h₁.updateNode ⟨h₁.plain.kind, h₁.plain.known, ⟨-1, rfl⟩, h₁.plain.runs⟩
        (List.Subset.refl _) (List.Subset.refl _)
    · exact .setNode g₁ rfl rfl
  · exact hcount g₁ ⟨h₁, .refl n g₁⟩

/-! ## Configuring and making -/

/-- The properties and parameters of a component go on its new node without a fault. -/
theorem configure_succeeds {b : Rebuilder} (hb : ∀ d ∈ b.properties, d.source.isOpen = true)
    (h : g₀.Builds n k g) {c : Component} (hc : k = .script → c.Typed) :
    (configure b n c).Succeeds g fun _ g' => g₀.Builds n k g' := by
  unfold configure
  refine succeeds_graph_bind ?_
  rw [h.plain.kind]
  -- what every kind but two needs
  have hgeneric : Succeeds (do
      applyProperties b n c []
      applyParameters b n c) g fun _ g' => g₀.Builds n k g' :=
    (applyProperties_succeeds hb h c []).andThen fun g' h' => applyParameters_succeeds b h' c
  cases k with
  | slider =>
      refine (applySlider_succeeds h c).andThen fun g' h' => ?_
      refine (applyProperties_succeeds hb h' c _).andThen fun g' h' => ?_
      exact applyParameters_succeeds b h' c
  | script =>
      refine (applyScript_succeeds h c).andThen fun g' h' => ?_
      have hrest : ∀ g', g₀.Builds n .script g' → Succeeds (do
          applyProperties b n c ["Script"]
          maintain n) g' fun _ g' => g₀.Builds n .script g' := fun g' h' =>
        (applyProperties_succeeds hb h' c _).andThen fun g' h' => (maintain_succeeds h').mono fun _ _ h => h.1
      split
      · exact (rebuildScript_succeeds h' (hc rfl)).andThen hrest
      · exact hrest g' h'
  | _ => exact hgeneric

/-- A live host makes a new node of the type. -/
theorem instantiate_succeeds {b : Rebuilder} (hhost : b.host = .live) (c : Component) (t : NodeType)
    (g : Graph) : (instantiate b c t).Succeeds g fun made g' =>
      made = some (g.make t).1 ∧ g' = (g.make t).2 := by
  unfold instantiate
  rw [hhost]
  refine Succeeds.recover (succeeds_graph_bind ?_)
  refine (succeeds_ofResult (Q := fun made g' => made = g.make t ∧ g' = g) rfl
    ⟨rfl, rfl⟩).bind fun made g' ⟨hmade, _⟩ => ?_
  subst hmade
  exact (succeeds_set (Q := fun _ s => s = (g.make t).2) rfl).andThen fun s hs =>
    succeeds_pure ⟨rfl, hs⟩

/-- The node of a component is made and configured, beside everything that was there before; or the
catalog does not know its type, and nothing happens. -/
theorem makeNode_succeeds {b : Rebuilder} (hb : ∀ d ∈ b.properties, d.source.isOpen = true)
    (hhost : b.host = .live) {c : Component} (hc : c.TypedFor b.catalog) (g : Graph) :
    (makeNode b c).Succeeds g fun made g' =>
      match made with
      | some n => (c.type? b.catalog).isSome = true ∧ ∃ k, g.Builds n k g'
      | none => (c.type? b.catalog).isSome = false ∧ g' = g := by
  unfold makeNode
  refine (succeeds_logged (Q := fun found g' => c.type? b.catalog = found ∧ g' = g)
    ⟨rfl, rfl⟩).bind fun found g' ⟨htype, hg'⟩ => ?_
  subst hg'
  rw [htype]
  cases found with
  | none =>
      refine (succeeds_report (Q := fun _ s => s = g') rfl).andThen fun g'' h => ?_
      exact succeeds_pure ⟨rfl, h⟩
  | some t =>
      refine (instantiate_succeeds hhost c t g').bind fun made g'' ⟨hmade, hg''⟩ => ?_
      subst hmade hg''
      refine (configure_succeeds hb (Graph.builds_make g' t) (hc t htype)).andThen fun g'' h => ?_
      refine (put_succeeds h (by decide) _).andThen fun g'' h => ?_
      exact succeeds_pure ⟨rfl, t.kind, h⟩

end Work

end Patchbay
