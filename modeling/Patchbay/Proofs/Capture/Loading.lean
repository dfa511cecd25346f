import Patchbay.Proofs.Capture
import Patchbay.Proofs.Document.Loading
import Patchbay.Proofs.Property.Capturing

/-!
# Captured documents are loaded again

Capture records whatever it finds; loading insists that settings have a name or a variable.

* `Parameter.Recordable`, `Graph.Recordable` — attributes of their declared types, with any texts
* `Graph.Legible` — sliders that can be described, and scripts whose variables have display names
* `Graph.Recordable.capturable_iff` — a recordable node is captured exactly if it is legible
* `Graph.isRecorded_document`, `Graph.isNamed_document` — what capture records, and when all its settings
  have names
* **`Graph.captured_loads`** — which nodes are captured, and which captured documents are loaded.  A sum
  with an input without a name is captured and not loaded (`Graph.captured_unnamedSum`).
-/

namespace Patchbay

/-! ## Parameters -/

namespace Parameter

/-- The attributes of the parameter have their declared types; the names may be any texts. -/
structure Recordable (p : Parameter) : Prop where
  name : ∃ n, p.name = .str n
  variableName : p.variableName = .null ∨ ∃ v, p.variableName = .str v
  access : ∃ a, p.access = .access a
  mapping : ∃ m, p.mapping = .mapping m

/-- The variable of the parameter has a display name. -/
def Decodable (p : Parameter) (l : Language) : Prop := ∃ v, Language.unsanitizeValue (some l) p.identifier = .ok v

variable {p : Parameter} {l : Language} {principal : Bool}

theorem outcome_scriptSettings (p : Parameter) (l : Language) (script : Value) (principal : Bool) :
    (p.scriptSettings (some l) script principal).outcome.value =
      (Language.unsanitizeValue (some l) p.identifier).map fun variableName =>
        { p.plainSettings principal with
          variableName
          typeHint := (p.hint (some l) script).value
          access := p.access.mode?
          description := if p.description.truthy then p.description else .null
          required := !p.optional.truthy } := by
  unfold scriptSettings
  rw [Attempt.outcome_bind]
  change ((_ >>= fun _ => pure _ : Attempt ParameterSettings)).outcome.value = _
  rw [Attempt.outcome_bind_pure]
  rfl

theorem exists_scriptSettings_iff {script : Value} :
    (∃ s, (p.scriptSettings (some l) script principal).outcome.value = .ok s) ↔ p.Decodable l := by
  rw [outcome_scriptSettings]
  unfold Decodable
  cases Language.unsanitizeValue (some l) p.identifier <;> simp [Except.map]

namespace Recordable

theorem hasModes (h : p.Recordable) : p.hasModes = true := by
  obtain ⟨a, ha⟩ := h.access
  obtain ⟨m, hm⟩ := h.mapping
  unfold Parameter.hasModes hasMapping
  rw [ha, hm]
  rfl

theorem hasMapping (h : p.Recordable) : p.hasMapping = true := by
  have hmodes := h.hasModes
  unfold Parameter.hasModes at hmodes
  exact (Bool.and_eq_true_iff.mp hmodes).2

/-- The variable is a text. -/
theorem identifier (h : p.Recordable) : ∃ i, p.identifier = .str i := by
  obtain ⟨n, hn⟩ := h.name
  unfold Parameter.identifier Value.orElse
  split
  · next htruthy =>
    rcases h.variableName with hnull | hvariable
    · rw [hnull] at htruthy
      cases htruthy
    · exact hvariable
  · exact ⟨n, hn⟩

/-- A display name is a text. -/
theorem displayName (h : p.Recordable) {v : Value} (hv : Language.unsanitizeValue (some l) p.identifier = .ok v) :
    ∃ s, v = .str s := by
  obtain ⟨i, hi⟩ := h.identifier
  rw [hi] at hv
  cases l with
  | vb => exact ⟨i, (Except.ok.inj hv).symm⟩
  | csharp | python =>
      obtain ⟨s, -, hs⟩ := exists_of_map_eq_ok hv
      exact ⟨s, hs.symm⟩

theorem isRecorded_plainSettings (h : p.Recordable) (principal : Bool) : (p.plainSettings principal).IsRecorded where
  name := h.name
  variableName := Or.inl rfl
  access := nofun
  mapping := by
    obtain ⟨k, hk⟩ := h.mapping
    intro m hm
    change m ∈ p.mapping.mode? at hm
    rw [hk] at hm
    exact ⟨k, (Option.some.inj hm).symm⟩

theorem isRecorded_scriptSettings (h : p.Recordable) {script : Value} {s : ParameterSettings}
    (hs : (p.scriptSettings (some l) script principal).outcome.value = .ok s) :
    s.IsRecorded ∧ s.name = p.name := by
  rw [outcome_scriptSettings] at hs
  obtain ⟨v, hv, rfl⟩ := exists_of_map_eq_ok hs
  refine ⟨⟨⟨?_, (h.isRecorded_plainSettings principal).mapping⟩, h.name, Or.inr (h.displayName hv)⟩, rfl⟩
  obtain ⟨a, ha⟩ := h.access
  intro m hm
  change m ∈ p.access.mode? at hm
  rw [ha] at hm
  exact ⟨a, (Option.some.inj hm).symm⟩

end Recordable

end Parameter

/-! ## Nodes -/

namespace Graph

/-- The attributes of the node and of its parameters have their declared types, and its wires lead to
parameters with names. -/
structure Recordable (g : Graph) (n : NodeRef) : Prop where
  kind : (g.node n).attributes.get? .kind = none
  language : (g.node n).attributes.get? .language = none
  name : ∃ s, (g.node n).name = .str s
  typeKey : ∃ s, (g.node n).typeKey = .str s
  pivot : ∃ x y, (g.node n).pivot = .spot x y
  warnings : ∃ messages, (g.node n).read .warnings = .list messages ∧ ∀ v ∈ messages, v.hasText = true
  errors : ∃ messages, (g.node n).read .errors = .list messages ∧ ∀ v ∈ messages, v.hasText = true
  params : ∀ p ∈ (g.node n).params, (g.param p).Recordable
  wires : ∀ s ∈ (g.node n).outputs, ∀ t ∈ (g.param s).recipients,
    (g.param t).owner ≠ .stranger ∧ ∃ m, (g.param t).name = .str m

/-- The node is no slider that cannot be described, and no script with a variable that has no display
name. -/
structure Legible (g : Graph) (n : NodeRef) : Prop where
  describable : (g.node n).Describable
  decodable : (g.node n).kind = .script →
    ∀ p ∈ (g.node n).params, (g.param p).Decodable (g.node n).language

variable {g : Graph} {n : NodeRef} {nodes : List NodeRef}

/-- The settings of a script, as they are walked through. -/
theorem captureSettings_script {v : Node} (hkind : v.actsAs .script = true)
    (hlanguage : v.attributes.get? .language = none) :
    g.captureSettings v = (do
      let inputs ← (g.markedInputs v).mapM fun entry => entry.1.scriptSettings (some v.language)
        ((v.read .scriptText).orElse (.str "")) entry.2
      let outputs ← (v.outputs.map g.param).mapM fun p => p.scriptSettings (some v.language)
        ((v.read .scriptText).orElse (.str "")) false
      return (inputs, outputs)) := by
  have hacting : v.actingLanguage = .ok (some v.language) := by
    unfold Node.actingLanguage
    rw [hlanguage]
  unfold captureSettings
  rw [hkind, hacting]
  rfl

namespace Recordable

theorem actsAs_script (h : g.Recordable n) (hscript : (g.node n).kind = .script) :
    (g.node n).actsAs .script = true := by
  simp [Node.actsAs, hscript, h.kind]

theorem exists_captureSettings_iff (h : g.Recordable n) :
    (∃ settings, (g.captureSettings (g.node n)).outcome.value = .ok settings) ↔
      ((g.node n).kind = .script → ∀ p ∈ (g.node n).params, (g.param p).Decodable (g.node n).language) := by
  by_cases hscript : (g.node n).kind = .script
  · rw [captureSettings_script (h.actsAs_script hscript) h.language, Attempt.exists_bind_bind_pure_iff,
      Attempt.exists_mapM_iff, Attempt.exists_mapM_iff]
    simp only [Parameter.exists_scriptSettings_iff]
    constructor
    · rintro ⟨hinputs, houtputs⟩ - p hp
      rcases List.mem_append.mp hp with hp | hp
      · obtain ⟨principal, hmarked⟩ := exists_mem_markedInputs (g := g) hp
        exact hinputs _ hmarked
      · exact houtputs _ (List.mem_map_of_mem hp)
    · intro hdecodable
      constructor
      · rintro ⟨p, principal⟩ hp
        obtain ⟨q, hq, rfl⟩ := mem_markedInputs hp
        exact hdecodable hscript q (List.mem_append_left _ hq)
      · intro p hp
        obtain ⟨q, hq, rfl⟩ := List.mem_map.mp hp
        exact hdecodable hscript q (List.mem_append_right _ hq)
  · have hmappings := fun p hp => (h.params p hp).hasMapping
    exact ⟨fun _ hkind => absurd hkind hscript, fun _ => ⟨_, captureSettings_eq hscript hmappings⟩⟩

/-- Recorded settings are those of one of the parameters. -/
theorem isRecorded_settings (h : g.Recordable n) {inputs outputs : List ParameterSettings}
    (hsettings : (g.captureSettings (g.node n)).outcome.value = .ok (inputs, outputs)) :
    ∀ s ∈ inputs ++ outputs, s.IsRecorded ∧ ∃ p ∈ (g.node n).params, s.name = (g.param p).name := by
  by_cases hscript : (g.node n).kind = .script
  · rw [captureSettings_script (h.actsAs_script hscript) h.language] at hsettings
    obtain ⟨inputs', hinputs, hsettings⟩ := Attempt.exists_of_outcome_bind_eq_ok hsettings
    obtain ⟨outputs', houtputs, hsettings⟩ := Attempt.exists_of_outcome_bind_eq_ok hsettings
    cases hsettings
    intro s hs
    rcases List.mem_append.mp hs with hs | hs
    · obtain ⟨⟨p, principal⟩, hp, hsettings⟩ := Attempt.exists_of_mem_mapM hinputs hs
      obtain ⟨q, hq, rfl⟩ := mem_markedInputs hp
      have hmem := List.mem_append_left (g.node n).outputs hq
      obtain ⟨hrecorded, hname⟩ := (h.params q hmem).isRecorded_scriptSettings hsettings
      exact ⟨hrecorded, q, hmem, hname⟩
    · obtain ⟨p, hp, hsettings⟩ := Attempt.exists_of_mem_mapM houtputs hs
      obtain ⟨q, hq, rfl⟩ := List.mem_map.mp hp
      have hmem := List.mem_append_right (g.node n).inputs hq
      obtain ⟨hrecorded, hname⟩ := (h.params q hmem).isRecorded_scriptSettings hsettings
      exact ⟨hrecorded, q, hmem, hname⟩
  · rw [captureSettings_eq hscript fun p hp => (h.params p hp).hasMapping] at hsettings
    cases hsettings
    intro s hs
    rcases List.mem_append.mp hs with hs | hs
    · obtain ⟨⟨p, principal⟩, hp, rfl⟩ := List.mem_map.mp (List.mem_filter.mp hs).1
      obtain ⟨q, hq, rfl⟩ := mem_markedInputs hp
      have hmem := List.mem_append_left (g.node n).outputs hq
      exact ⟨(h.params q hmem).isRecorded_plainSettings principal, q, hmem, rfl⟩
    · obtain ⟨q, hq, rfl⟩ := List.mem_map.mp (List.mem_filter.mp hs).1
      have hmem := List.mem_append_right (g.node n).inputs hq
      exact ⟨(h.params q hmem).isRecorded_plainSettings false, q, hmem, rfl⟩

/-- What is captured of a node can be written, and is read again if its settings have names. -/
theorem isRecorded_component (h : g.Recordable n) {c : Component}
    (hc : (g.captureNode .full .standard n).outcome.value = .ok c) :
    c.IsRecorded ∧ ∀ s ∈ c.inputs ++ c.outputs, ∃ p ∈ (g.node n).params, s.name = (g.param p).name := by
  obtain ⟨⟨ps, hproperties⟩, ⟨inputs, outputs⟩, hsettings⟩ := exists_of_captureNode hc
  obtain ⟨x, y, hpivot⟩ := h.pivot
  obtain ⟨warnings, hwarnings, hwarningTexts⟩ := h.warnings
  obtain ⟨errors, herrors, herrorTexts⟩ := h.errors
  rw [captureNode_of_settings hproperties hsettings hpivot hwarnings herrors] at hc
  cases hc
  have hrecorded := h.isRecorded_settings hsettings
  refine ⟨⟨h.name, h.typeKey, fun s hs => ?_, fun s hs => ?_, hwarningTexts, herrorTexts⟩, fun s hs => ?_⟩
  · exact (hrecorded s (List.mem_append_left _ hs)).1
  · exact (hrecorded s (List.mem_append_right _ hs)).1
  · exact (hrecorded s hs).2

theorem hasPlainWires (h : g.Recordable n) : g.hasPlainWires n = true :=
  List.all_eq_true.mpr fun s hs => List.all_eq_true.mpr fun t ht => bne_iff_ne.mpr (h.wires s hs t ht).1

theorem hasPlainScript (h : g.Recordable n) : g.hasPlainScript n = true := by
  unfold Graph.hasPlainScript
  rw [Bool.or_eq_true]
  exact Or.inr (List.all_eq_true.mpr fun p hp => (h.params p hp).hasModes)

/-- A node with attributes of their types can be captured if it is legible. -/
theorem capturable_iff (h : g.Recordable n) : g.Capturable .full .standard n ↔ g.Legible n := by
  constructor
  · intro hcapturable
    obtain ⟨c, hc⟩ := hcapturable.component
    obtain ⟨hproperties, hsettings⟩ := exists_of_captureNode hc
    exact ⟨(PropertyTable.exists_capture_standard_iff h.kind).mp hproperties,
      h.exists_captureSettings_iff.mp hsettings⟩
  · intro hlegible
    obtain ⟨ps, hproperties⟩ :
        ∃ ps, (PropertyTable.standard.capture .full true [] (g.node n)).outcome.value = .ok ps :=
      (PropertyTable.exists_capture_standard_iff h.kind).mpr hlegible.describable
    obtain ⟨⟨inputs, outputs⟩, hsettings⟩ := h.exists_captureSettings_iff.mpr hlegible.decodable
    obtain ⟨x, y, hpivot⟩ := h.pivot
    obtain ⟨warnings, hwarnings, -⟩ := h.warnings
    obtain ⟨errors, herrors, -⟩ := h.errors
    exact ⟨⟨_, captureNode_of_settings hproperties hsettings hpivot hwarnings herrors⟩, h.hasPlainWires,
      fun _ => h.hasPlainScript⟩

end Recordable

/-! ## Documents -/

theorem distinct_subset (g : Graph) (seen : List String) (nodes : List NodeRef) : g.distinct seen nodes ⊆ nodes := by
  induction nodes generalizing seen with
  | nil => exact List.Subset.refl _
  | cons n rest ih =>
      unfold distinct
      dsimp only
      split
      · exact List.subset_cons_of_subset n (ih _)
      · exact List.cons_subset_cons n (ih _)

/-- The ends of a connection have the names of the parameters that the wire connects. -/
theorem exists_of_mem_connectionsAmong {c : Connection} (h : c ∈ g.connectionsAmong nodes) :
    ∃ n ∈ nodes, ∃ s ∈ (g.node n).outputs, ∃ t ∈ (g.param s).recipients,
      c.source.name = (g.param s).name ∧ c.target.name = (g.param t).name := by
  obtain ⟨n, hn, h⟩ := List.mem_flatMap.mp h
  obtain ⟨s, hs, h⟩ := List.mem_flatMap.mp h
  obtain ⟨t, ht, h⟩ := List.mem_filterMap.mp h
  refine ⟨n, hn, s, hs, t, ht, ?_⟩
  unfold connection? at h
  obtain ⟨m, -, h⟩ := Option.bind_eq_some_iff.mp h
  dsimp only at h
  split at h
  · cases h
    exact ⟨rfl, rfl⟩
  · cases h

/-- What is captured of recordable nodes can be written, under the names of their parameters. -/
theorem isRecorded_document (h : ∀ n ∈ nodes, g.Recordable n) {d : Document}
    (hd : (g.capture .full .standard nodes).outcome.value = .ok d) :
    d.IsRecorded ∧ ∀ c ∈ d.components, ∀ s ∈ c.inputs ++ c.outputs,
      ∃ n ∈ nodes, ∃ p ∈ (g.node n).params, s.name = (g.param p).name := by
  obtain ⟨-, -, hcomponents, hconnections⟩ := capture_eq_ok_iff.mp hd
  have hsubset := g.distinct_subset [] nodes
  have horigin : ∀ c ∈ d.components, ∃ n ∈ nodes, (g.captureNode .full .standard n).outcome.value = .ok c := by
    intro c hc
    obtain ⟨n, hn, hcaptured⟩ := List.mem_map.mp (hcomponents ▸ List.mem_map_of_mem hc)
    exact ⟨n, hsubset hn, hcaptured⟩
  refine ⟨⟨fun c hc => ?_, fun c hc => ?_, fun c hc => ?_⟩, fun c hc s hs => ?_⟩
  · obtain ⟨n, hn, hcaptured⟩ := horigin c hc
    exact ((h n hn).isRecorded_component hcaptured).1
  · rw [hconnections] at hc
    obtain ⟨n, hn, s, hs, t, -, hname, -⟩ := exists_of_mem_connectionsAmong hc
    rw [hname]
    exact ((h n (hsubset hn)).params s (List.mem_append_right _ hs)).name
  · rw [hconnections] at hc
    obtain ⟨n, hn, s, hs, t, ht, -, hname⟩ := exists_of_mem_connectionsAmong hc
    rw [hname]
    exact ((h n (hsubset hn)).wires s hs t ht).2
  · obtain ⟨n, hn, hcaptured⟩ := horigin c hc
    exact ⟨n, hn, ((h n hn).isRecorded_component hcaptured).2 s hs⟩

/-- If all parameters have names, so have all settings. -/
theorem isNamed_document (h : ∀ n ∈ nodes, g.Recordable n) {d : Document}
    (hd : (g.capture .full .standard nodes).outcome.value = .ok d)
    (hnames : ∀ n ∈ nodes, ∀ p ∈ (g.node n).params, (g.param p).name ≠ .str "") : d.isNamed = true := by
  have hnamed : ∀ c ∈ d.components, ∀ s ∈ c.inputs ++ c.outputs, s.isNamed = true := by
    intro c hc s hs
    obtain ⟨n, hn, p, hp, hname⟩ := (isRecorded_document h hd).2 c hc s hs
    obtain ⟨text, htext⟩ := ((h n hn).params p hp).name
    have hne : text ≠ "" := fun hempty => hnames n hn p hp (by rw [htext, hempty])
    unfold ParameterSettings.isNamed
    rw [hname, htext]
    simp [Value.truthy, hne]
  refine List.all_eq_true.mpr fun c hc => Bool.and_eq_true_iff.mpr ⟨?_, ?_⟩
  · exact List.all_eq_true.mpr fun s hs => hnamed c hc s (List.mem_append_left _ hs)
  · exact List.all_eq_true.mpr fun s hs => hnamed c hc s (List.mem_append_right _ hs)

/-- Nodes with attributes of their declared types are captured unless a slider cannot be described or a
variable has no display name.  What is captured is loaded again, with as many components, settings and
connections, if all settings have a name or a variable in its place; otherwise it is refused, at the first
component that has others.  Where every parameter has a name, it is loaded. -/
theorem captured_loads (h : ∀ n ∈ nodes, g.Recordable n) :
    ((∃ d, (g.capture .full .standard nodes).outcome.value = .ok d) ↔
      ∀ n ∈ g.distinct [] nodes, g.Legible n) ∧
    ∀ d, (g.capture .full .standard nodes).outcome.value = .ok d →
      (d.isNamed = true → ∃ loaded, Document.ofValue d.toValue = .ok loaded ∧
        loaded.components.map (fun c => (c.inputs.length, c.outputs.length)) =
          d.components.map (fun c => (c.inputs.length, c.outputs.length)) ∧
        loaded.connections = d.connections) ∧
      (d.isNamed = false → ∃ i c, d.components[i]? = some c ∧ c.isNamed = false ∧
        (d.components.take i).all Component.isNamed = true ∧
        Document.ofValue d.toValue = .error (.document (some (.components, i)) .unnamedParameter)) ∧
      ((∀ n ∈ nodes, ∀ p ∈ (g.node n).params, (g.param p).name ≠ .str "") → d.isNamed = true) := by
  constructor
  · rw [exists_capture_iff]
    exact forall₂_congr fun n hn => (h n (g.distinct_subset [] nodes hn)).capturable_iff
  · intro d hd
    have hrecorded := (isRecorded_document h hd).1
    refine ⟨fun hnamed => ⟨d.loaded, hrecorded.ofValue_toValue_of_named hnamed, ?_, rfl⟩,
      hrecorded.ofValue_toValue_of_unnamed, isNamed_document h hd⟩
    unfold Document.loaded
    rw [List.map_map]
    exact List.map_congr_left fun c _ => by simp [Component.loaded]

/-- A sum whose first input has a name of one's own. -/
def sumNamed (name : String) : Graph :=
  let t : NodeType := {
    key := "sum", name := "Sum", kind := .generic, language := none, category := "Maths"
    inputs := [.item "A" "Number" false, .item "B" "Number" false]
    outputs := [.item "R" "Number" false] }
  let (n, g) := (Graph.empty .counter).make t
  (g.place n ⟨0, 0⟩).updateParam ⟨0⟩ fun p => { p with name := .str name }

theorem recordable_sumNamed (name : String) : (sumNamed name).Recordable ⟨0⟩ where
  kind := rfl
  language := rfl
  name := ⟨_, rfl⟩
  typeKey := ⟨_, rfl⟩
  pivot := ⟨_, _, rfl⟩
  warnings := ⟨[], rfl, nofun⟩
  errors := ⟨[], rfl, nofun⟩
  params := by
    have hparams : ((sumNamed name).node ⟨0⟩).params = [⟨0⟩, ⟨1⟩, ⟨2⟩] := rfl
    rw [hparams]
    simp only [List.forall_mem_cons]
    refine ⟨?_, ?_, ?_, nofun⟩
    all_goals exact ⟨⟨_, rfl⟩, Or.inr ⟨_, rfl⟩, ⟨_, rfl⟩, ⟨_, rfl⟩⟩
  wires := by
    have houtputs : ((sumNamed name).node ⟨0⟩).outputs = [⟨2⟩] := rfl
    have hrecipients : ((sumNamed name).param ⟨2⟩).recipients = [] := rfl
    rw [houtputs]
    simp [hrecipients]

/-- With its name the sum is captured and loaded again. -/
theorem captured_loads_sum : ∃ d loaded, ((sumNamed "A").capture .full .standard [⟨0⟩]).outcome.value = .ok d ∧
    Document.ofValue d.toValue = .ok loaded ∧ loaded.components.map (fun c => (c.inputs.length, c.outputs.length)) =
      d.components.map (fun c => (c.inputs.length, c.outputs.length)) := by
  have hrecordable : ∀ n ∈ [(⟨0⟩ : NodeRef)], (sumNamed "A").Recordable n := by
    simpa using recordable_sumNamed "A"
  have hnode : ∀ n ∈ (sumNamed "A").distinct [] [⟨0⟩], n = ⟨0⟩ := fun n hn =>
    List.mem_singleton.mp (distinct_subset _ _ _ hn)
  have hlegible : (sumNamed "A").Legible ⟨0⟩ := ⟨nofun, nofun⟩
  have hnames : ∀ p ∈ ((sumNamed "A").node ⟨0⟩).params, ((sumNamed "A").param p).name ≠ .str "" := by
    have hparams : ((sumNamed "A").node ⟨0⟩).params = [⟨0⟩, ⟨1⟩, ⟨2⟩] := rfl
    rw [hparams]
    simp only [List.forall_mem_cons]
    refine ⟨?_, ?_, ?_, nofun⟩
    all_goals exact fun h => absurd (Value.str.inj h) (by decide)
  obtain ⟨hcapture, hload⟩ := captured_loads hrecordable
  obtain ⟨d, hd⟩ := hcapture.mpr fun n hn => hnode n hn ▸ hlegible
  obtain ⟨hnamed, -, hallNamed⟩ := hload d hd
  obtain ⟨loaded, hloaded, hsizes, -⟩ := hnamed (hallNamed (by simpa using hnames))
  exact ⟨d, loaded, hd, hloaded, hsizes⟩

/-- Without the name the sum is captured all the same, since it still has the nick name; and what is captured
is not loaded. -/
theorem captured_unnamedSum : (sumNamed "").Recordable ⟨0⟩ ∧
    ∃ d, ((sumNamed "").capture .full .standard [⟨0⟩]).outcome.value = .ok d ∧
      Document.ofValue d.toValue = .error (.document (some (.components, 0)) .unnamedParameter) := by
  refine ⟨recordable_sumNamed "", ?_⟩
  have hcaptured : ((sumNamed "").capture .full .standard [⟨0⟩]).outcome.value.toOption.map
      (fun d => (d.components.length, d.isNamed)) = some (1, false) := by decide +kernel
  obtain ⟨d, hd, hfound⟩ := exists_of_map_toOption hcaptured
  obtain ⟨hlength, hunnamed⟩ := Prod.mk.inj hfound
  have hrecordable : ∀ n ∈ [(⟨0⟩ : NodeRef)], (sumNamed "").Recordable n := by
    simpa using recordable_sumNamed ""
  obtain ⟨i, c, hc, -, -, hrefused⟩ := (isRecorded_document hrecordable hd).1.ofValue_toValue_of_unnamed hunnamed
  obtain ⟨hi, -⟩ := List.getElem?_eq_some_iff.mp hc
  obtain rfl : i = 0 := Nat.lt_one_iff.mp (hlength ▸ hi)
  exact ⟨d, hd, hrefused⟩

end Graph

end Patchbay
