import Patchbay.Capture
import Patchbay.Proofs.Property.Restoring

/-!
# What is captured

* `Graph.inputSettings`, `Graph.outputSettings` — the settings of all parameters of a node
* `Graph.captureNode_of_settings`, `Graph.exists_of_captureNode` — a node is captured exactly if its
  properties and its settings are
* **`Graph.captureNode_eq`** — the component of a node that is no script, field by field.
* `Graph.Enclosed` — the wires that leave some nodes end at these nodes
* `Graph.capture_eq_ok_iff`, `Graph.exists_capture_iff` — when nodes can be captured, and what comes of it
* **`Graph.capture_eq`** — the document of nodes with different ids whose wires stay among them: their
  components, and a connection for each wire.
-/

namespace Patchbay

namespace Graph

/-! ## Nodes -/

/-- The settings of all inputs of a node. -/
def inputSettings (g : Graph) (n : Node) : List ParameterSettings :=
  (g.markedInputs n).map fun (p, principal) => p.plainSettings principal

/-- The settings of all outputs of a node. -/
def outputSettings (g : Graph) (n : Node) : List ParameterSettings :=
  n.outputs.map fun p => (g.param p).plainSettings false

/-- The settings that differ from those of a new parameter. -/
def recorded (settings : List ParameterSettings) : List ParameterSettings :=
  settings.filter fun s => !s.isDefault

variable {g : Graph} {r : NodeRef} {ps : Properties}

theorem mem_markedInputs {n : Node} {p : Parameter} {principal : Bool}
    (h : (p, principal) ∈ g.markedInputs n) : ∃ q ∈ n.inputs, p = g.param q := by
  obtain ⟨⟨q, i⟩, hq, heq⟩ := List.mem_map.mp h
  cases heq
  exact ⟨q, List.fst_mem_of_mem_zipIdx hq, rfl⟩

theorem exists_mem_markedInputs {n : Node} {q : ParamRef} (h : q ∈ n.inputs) :
    ∃ principal, (g.param q, principal) ∈ g.markedInputs n := by
  obtain ⟨i, hi⟩ := List.mem_iff_getElem?.mp h
  exact ⟨_, List.mem_map.mpr ⟨(q, i), List.mem_zipIdx_iff_getElem?.mpr hi, rfl⟩⟩

theorem captureSettings_eq {n : Node} (hscript : n.kind ≠ .script)
    (hmappings : ∀ p ∈ n.params, (g.param p).hasMapping = true) :
    (g.captureSettings n).outcome.value =
      .ok (recorded (g.inputSettings n), recorded (g.outputSettings n)) := by
  have hkind : n.actsAs .script = false := by simp [Node.actsAs, hscript]
  have hinputs : ((g.markedInputs n).all fun (p, _) => p.hasMapping) = true := by
    rw [List.all_eq_true]
    rintro ⟨p, principal⟩ hp
    obtain ⟨q, hq, rfl⟩ := mem_markedInputs hp
    exact hmappings q (List.mem_append_left _ hq)
  have houtputs : ((n.outputs.map g.param).all Parameter.hasMapping) = true := by
    rw [List.all_map, List.all_eq_true]
    exact fun p hp => hmappings p (List.mem_append_right _ hp)
  unfold captureSettings
  simp only [hkind, hinputs, houtputs, Bool.false_eq_true, if_false, Bool.not_true, Bool.or_self]
  rw [List.map_map]
  rfl

/-- The component of a node, told by its properties and the settings of its parameters. -/
theorem captureNode_of_settings
    (hproperties : (PropertyTable.standard.capture .full true [] (g.node r)).outcome.value = .ok ps)
    {inputs outputs : List ParameterSettings}
    (hsettings : (g.captureSettings (g.node r)).outcome.value = .ok (inputs, outputs)) {x y : Float}
    (hpivot : (g.node r).pivot = .spot x y) {warnings errors : List Value}
    (hwarnings : (g.node r).read .warnings = .list warnings)
    (herrors : (g.node r).read .errors = .list errors) :
    (g.captureNode .full .standard r).outcome.value = .ok {
      name := (g.node r).name
      typeKey := (g.node r).typeKey
      id := (g.node r).id
      pivot := some ⟨x, y⟩
      selected := ((g.node r).read .selected).truthy
      properties := ps
      inputs
      outputs
      warnings
      errors } := by
  have hpivot' : capturePivot .full (g.node r) = .ok (some ⟨x, y⟩) := by
    unfold capturePivot
    rw [hpivot]
    rfl
  have hproperties' : (PropertyTable.standard.capture CaptureOptions.full.context
      CaptureOptions.full.humanReadable CaptureOptions.full.excluded (g.node r)).outcome.value = .ok ps :=
    hproperties
  have hrecords : (CaptureOptions.full.settings && CaptureOptions.full.context.hasSettings) = true := rfl
  unfold captureNode
  rw [Attempt.outcome_bind, hproperties']
  dsimp only
  rw [if_pos hrecords, Attempt.outcome_bind, hsettings, hpivot', hwarnings, herrors]
  rfl

/-- **The component of a node**, whose properties, mappings, pivot and messages can be written. -/
theorem captureNode_eq (hpresents : (g.node r).Presents ps)
    (hrestorable : Properties.Restorable (g.node r).kind ps) (hscript : (g.node r).kind ≠ .script)
    (hmappings : ∀ p ∈ (g.node r).params, (g.param p).hasMapping = true) {x y : Float}
    (hpivot : (g.node r).pivot = .spot x y) {warnings errors : List Value}
    (hwarnings : (g.node r).read .warnings = .list warnings)
    (herrors : (g.node r).read .errors = .list errors) :
    (g.captureNode .full .standard r).outcome.value = .ok {
      name := (g.node r).name
      typeKey := (g.node r).typeKey
      id := (g.node r).id
      pivot := some ⟨x, y⟩
      selected := ((g.node r).read .selected).truthy
      properties := ps
      inputs := recorded (g.inputSettings (g.node r))
      outputs := recorded (g.outputSettings (g.node r))
      warnings
      errors } :=
  captureNode_of_settings (hpresents.capture hrestorable) (captureSettings_eq hscript hmappings) hpivot
    hwarnings herrors

/-- What a captured node was captured from. -/
theorem exists_of_captureNode {c : Component} (h : (g.captureNode .full .standard r).outcome.value = .ok c) :
    (∃ ps, (PropertyTable.standard.capture .full true [] (g.node r)).outcome.value = .ok ps) ∧
      ∃ settings, (g.captureSettings (g.node r)).outcome.value = .ok settings := by
  obtain ⟨ps, hps, h⟩ := Attempt.exists_of_outcome_bind_eq_ok h
  obtain ⟨settings, hsettings, -⟩ := Attempt.exists_of_outcome_bind_eq_ok h
  exact ⟨⟨ps, hps⟩, settings, hsettings⟩

/-- A component has the id of its node. -/
theorem captureNode_id {o : CaptureOptions} {t : PropertyTable} {c : Component}
    (h : (g.captureNode o t r).outcome.value = .ok c) : c.id = (g.node r).id := by
  obtain ⟨properties, -, h⟩ := Attempt.exists_of_outcome_bind_eq_ok h
  -- with settings or without, the rest is the same
  dsimp only at h
  split at h
  all_goals
    obtain ⟨settings, -, h⟩ := Attempt.exists_of_outcome_bind_eq_ok h
    obtain ⟨pivot, -, h⟩ := Attempt.exists_of_outcome_bind_eq_ok h
    obtain ⟨warnings, -, h⟩ := Attempt.exists_of_outcome_bind_eq_ok h
    obtain ⟨errors, -, h⟩ := Attempt.exists_of_outcome_bind_eq_ok h
    cases h
    rfl

/-! ## Wires -/

/-- The node that a parameter belongs to. -/
def ownerOf (g : Graph) (p : ParamRef) : NodeRef := ((g.param p).owner.node?).getD default

theorem ownerOf_eq {p : ParamRef} {n : NodeRef} (h : (g.param p).owner = .node n) : g.ownerOf p = n := by
  rw [ownerOf, h]
  rfl

/-- The wire from an output of a node to an input, as a connection. -/
def connectionOf (g : Graph) (n : NodeRef) (source target : ParamRef) : Connection :=
  ⟨⟨(g.node n).id, (g.param source).name⟩, ⟨(g.node (g.ownerOf target)).id, (g.param target).name⟩⟩

/-- The wires that leave some nodes end at these nodes. -/
def Enclosed (g : Graph) (nodes : List NodeRef) : Prop :=
  ∀ n ∈ nodes, ∀ s ∈ (g.node n).outputs, ∀ t ∈ (g.param s).recipients,
    ∃ m ∈ nodes, (g.param t).owner = .node m

variable {nodes : List NodeRef}

theorem Enclosed.connectionsAmong_eq (h : g.Enclosed nodes) :
    g.connectionsAmong nodes = nodes.flatMap fun n => (g.node n).outputs.flatMap fun s =>
      (g.param s).recipients.map (g.connectionOf n s) := by
  refine List.flatMap_congr fun n hn => List.flatMap_congr fun s hs => ?_
  refine (List.filterMap_congr fun t ht => ?_).trans (congrFun List.filterMap_eq_map _)
  obtain ⟨m, hm, howner⟩ := h n hn s hs t ht
  have hid : (nodes.map fun n => (g.node n).id).contains (g.node m).id = true := by
    rw [List.contains_iff_mem]
    exact List.mem_map_of_mem hm
  simp only [connection?, connectionOf, ownerOf, howner, Owner.node?, Function.comp_apply,
    Option.getD_some, Option.bind_eq_bind, Option.bind_some, hid, if_true]

/-! ## Documents -/

theorem distinct_eq_self {seen : List String}
    (h : (seen ++ nodes.map fun n => (g.node n).id).Nodup) : g.distinct seen nodes = nodes := by
  induction nodes generalizing seen with
  | nil => rfl
  | cons n rest ih =>
      have hnew : seen.contains (g.node n).id = false := by
        rw [Bool.eq_false_iff, Ne, List.contains_iff_mem]
        exact fun hmem => (List.nodup_append.mp h).2.2 _ hmem _ List.mem_cons_self rfl
      rw [distinct, hnew, if_neg (by decide), ih]
      rw [List.map_cons, List.nodup_middle] at h
      exact h

variable {o : CaptureOptions} {t : PropertyTable} {d : Document}

/-- What is captured: the components of the nodes, each once, and the connections among them. -/
theorem capture_eq_ok_iff : (g.capture o t nodes).outcome.value = .ok d ↔
    (g.distinct [] nodes).all g.hasPlainWires = true ∧
    (o.settings && o.context.hasSettings && !(g.distinct [] nodes).all g.hasPlainScript) = false ∧
    d.components.map Except.ok = (g.distinct [] nodes).map (fun n => (g.captureNode o t n).outcome.value) ∧
    d.connections = g.connectionsAmong (g.distinct [] nodes) := by
  rw [← Attempt.outcome_mapM_eq_ok]
  unfold capture
  rw [Attempt.outcome_bind]
  cases ((g.distinct [] nodes).mapM (g.captureNode o t)).outcome.value with
  | error fault => simp
  | ok components =>
      dsimp only
      split
      · next hwires =>
        rw [Bool.not_eq_true'] at hwires
        rw [hwires]
        exact ⟨nofun, fun h => absurd h.1 Bool.false_ne_true⟩
      · next hwires =>
        rw [Bool.not_eq_true', Bool.not_eq_false] at hwires
        rw [Attempt.outcome_bind]
        change (ite _ _ _ : Attempt Document).outcome.value = _ ↔ _
        split
        · next hscripts =>
          rw [hscripts]
          exact ⟨nofun, fun h => absurd h.2.1.symm Bool.false_ne_true⟩
        · next hscripts =>
          rw [Bool.not_eq_true] at hscripts
          change Except.ok _ = Except.ok d ↔ _
          obtain ⟨components', connections⟩ := d
          simp only [hwires, hscripts, Except.ok.injEq, Document.mk.injEq, true_and, eq_comm]

/-- Nothing stops capture at the node: it has a component, and its wires and settings can be written. -/
structure Capturable (g : Graph) (o : CaptureOptions) (t : PropertyTable) (n : NodeRef) : Prop where
  component : ∃ c, (g.captureNode o t n).outcome.value = .ok c
  plainWires : g.hasPlainWires n = true
  plainScript : (o.settings && o.context.hasSettings) = true → g.hasPlainScript n = true

/-- Nodes can be captured if each of them can. -/
theorem exists_capture_iff : (∃ d, (g.capture o t nodes).outcome.value = .ok d) ↔
    ∀ n ∈ g.distinct [] nodes, g.Capturable o t n := by
  simp only [capture_eq_ok_iff, ← Attempt.outcome_mapM_eq_ok]
  constructor
  · rintro ⟨d, hwires, hscripts, hcomponents, -⟩ n hn
    refine ⟨Attempt.exists_mapM_iff.mp ⟨_, hcomponents⟩ n hn, List.all_eq_true.mp hwires n hn, fun hrecords => ?_⟩
    rw [hrecords, Bool.true_and, Bool.not_eq_false'] at hscripts
    exact List.all_eq_true.mp hscripts n hn
  · intro h
    obtain ⟨components, hcomponents⟩ := Attempt.exists_mapM_iff.mpr fun n hn => (h n hn).component
    refine ⟨⟨components, _⟩, List.all_eq_true.mpr fun n hn => (h n hn).plainWires, ?_, hcomponents, rfl⟩
    cases hrecords : (o.settings && o.context.hasSettings) with
    | false => rfl
    | true =>
        rw [Bool.true_and, Bool.not_eq_false', List.all_eq_true]
        exact fun n hn => (h n hn).plainScript hrecords

/-- **The document of some nodes.** -/
theorem capture_eq (hids : (nodes.map fun n => (g.node n).id).Nodup) (henclosed : g.Enclosed nodes)
    (hscript : ∀ n ∈ nodes, (g.node n).kind ≠ .script) {component : NodeRef → Component}
    (hcomponent : ∀ n ∈ nodes, (g.captureNode .full .standard n).outcome.value = .ok (component n)) :
    (g.capture .full .standard nodes).outcome.value = .ok ⟨nodes.map component,
      nodes.flatMap fun n => (g.node n).outputs.flatMap fun s =>
        (g.param s).recipients.map (g.connectionOf n s)⟩ := by
  have hwires : nodes.all g.hasPlainWires = true := by
    refine List.all_eq_true.mpr fun n hn => List.all_eq_true.mpr fun s hs => List.all_eq_true.mpr fun t ht => ?_
    obtain ⟨m, -, howner⟩ := henclosed n hn s hs t ht
    rw [howner]
    rfl
  have hscripts : nodes.all g.hasPlainScript = true := by
    refine List.all_eq_true.mpr fun n hn => ?_
    simp [hasPlainScript, Node.actsAs, hscript n hn]
  rw [capture_eq_ok_iff, distinct_eq_self (by simpa using hids), List.map_map]
  refine ⟨hwires, by rw [hscripts, Bool.not_true, Bool.and_false], ?_, henclosed.connectionsAmong_eq.symm⟩
  exact List.map_congr_left fun n hn => (hcomponent n hn).symm

end Graph

end Patchbay
