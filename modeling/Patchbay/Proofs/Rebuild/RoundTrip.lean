import Patchbay.Proofs.Rebuild.Rewiring

/-!
# What was captured is captured again

Nodes are captured, the document is written, read, and rebuilt on an empty canvas, and the new nodes are
captured.

* **`Component.Captures`** — the component is what is captured of a node.  What is captured of a node that
  looks like another is written like what is captured of the other (`Captures.toValue_eq`).
* **`Graph.Exchangeable.capture_eq`** — what is captured of exchangeable nodes is their `Graph.documentOf`,
  which can be read back.
* **`Work.rebuild_images`** — when it is rebuilt, each node has an image, and the images are wired as the
  connections say.
* `Document.still` — what is expected to come back of a document
* **`Work.rebuild_recaptured`** — it does come back.
-/

namespace Patchbay

/-! ## Components -/

/-- The component that is captured of a node. -/
def Graph.componentOf (g : Graph) (n : NodeRef) : Component :=
  ((g.captureNode .full .standard n).outcome.value.toOption).getD default

/-- The component is what is captured of a node. -/
structure Component.Captures (c : Component) (g : Graph) (n : NodeRef) : Prop where
  captured : (g.captureNode .full .standard n).outcome.value = .ok c
  name : c.name = (g.node n).name
  typeKey : c.typeKey = (g.node n).typeKey
  id : c.id = (g.node n).id
  pivot : ∃ x y, (g.node n).pivot = .spot x y ∧ c.pivot = some ⟨x, y⟩
  selected : c.selected = ((g.node n).read .selected).truthy
  presents : (g.node n).Presents c.properties
  restorable : Properties.Restorable (g.node n).kind c.properties
  inputs : c.inputs = Graph.recorded (g.inputSettings (g.node n))
  outputs : c.outputs = Graph.recorded (g.outputSettings (g.node n))
  warnings : (g.node n).read .warnings = .list c.warnings
  errors : (g.node n).read .errors = .list c.errors

theorem ParameterSettings.isDefault_eq_of_toValue {s s' : ParameterSettings} (h : s.toValue = s'.toValue) :
    s.isDefault = s'.isDefault := by
  unfold isDefault
  rw [Value.object.inj h]

theorem Parameter.IsPlain.isReadable {p : Parameter} (h : p.IsPlain) (principal : Bool) :
    (p.plainSettings principal).IsReadable where
  name := h.name
  access := fun _ hm => absurd hm (Option.not_mem_none _)
  mapping := by
    obtain ⟨k, hk⟩ := h.mapping
    intro m hm
    change m ∈ p.mapping.mode? at hm
    rw [hk] at hm
    exact ⟨k, (Option.some.inj hm).symm⟩

/-- What is written of a component depends on what is written of its settings. -/
theorem Component.toValue_congr {c c' : Component}
    (hinputs : c'.inputs.map (·.toValue) = c.inputs.map (·.toValue))
    (houtputs : c'.outputs.map (·.toValue) = c.outputs.map (·.toValue))
    (hrest : { c' with inputs := c.inputs, outputs := c.outputs } = c) : c'.toValue = c.toValue := by
  have hempty : ∀ {settings settings' : List ParameterSettings},
      settings'.map (·.toValue) = settings.map (·.toValue) → settings'.isEmpty = settings.isEmpty := by
    intro settings settings' h
    rw [← List.isEmpty_map (f := (·.toValue)), h, List.isEmpty_map]
  rw [← hrest]
  unfold toValue
  dsimp only
  rw [hinputs, houtputs, hempty hinputs, hempty houtputs]

namespace Component.Captures

variable {c c' : Component} {s g : Graph} {o m : NodeRef}

theorem componentOf_eq (h : c.Captures g m) : g.componentOf m = c := by
  unfold Graph.componentOf
  rw [h.captured]
  rfl

theorem map_toValue_recorded {settings settings' : List ParameterSettings}
    (h : settings'.map (·.toValue) = settings.map (·.toValue)) :
    (Graph.recorded settings').map (·.toValue) = (Graph.recorded settings).map (·.toValue) :=
  filter_map_congr (fun _ _ hsame => hsame)
    (fun _ _ hsame => by rw [ParameterSettings.isDefault_eq_of_toValue hsame]) h

/-- **What is captured of a node that looks like another is written like what is captured of the other**, but
for the place, the id and the messages. -/
theorem toValue_eq (h : c.Captures s o) (h' : c'.Captures g m) (hmirrors : s.Mirrors o g m) (id : String) :
    { c' with id }.toValue = { c with id, pivot := c'.pivot, warnings := [], errors := [] }.toValue := by
  have hproperties : c'.properties = c.properties := by
    refine h'.presents.unique (hmirrors.presents _ h.presents h.restorable) h'.restorable ?_
    rw [hmirrors.kind]
    exact h.restorable
  have hwarnings : c'.warnings = [] := Value.list.inj (h'.warnings.symm.trans hmirrors.quiet.1)
  have herrors : c'.errors = [] := Value.list.inj (h'.errors.symm.trans hmirrors.quiet.2)
  refine Component.toValue_congr ?_ ?_ ?_
  · rw [h'.inputs]
    exact (map_toValue_recorded hmirrors.inputs).trans (by rw [← h.inputs])
  · rw [h'.outputs]
    exact (map_toValue_recorded hmirrors.outputs).trans (by rw [← h.outputs])
  · have hname : c'.name = c.name := (h'.name.trans hmirrors.name).trans h.name.symm
    have htypeKey : c'.typeKey = c.typeKey := (h'.typeKey.trans hmirrors.typeKey).trans h.typeKey.symm
    have hselected : c'.selected = c.selected := (h'.selected.trans hmirrors.selected).trans h.selected.symm
    rw [hname, htypeKey, hselected, hproperties, hwarnings, herrors]

end Component.Captures

namespace Graph

variable {s g : Graph} {o n m : NodeRef} {ps : Properties}

/-- Something is captured of a node whose properties, mappings, pivot and messages can be written. -/
theorem exists_captures (hpresents : (g.node n).Presents ps)
    (hrestorable : Properties.Restorable (g.node n).kind ps) (hscript : (g.node n).kind ≠ .script)
    (hplain : ∀ p ∈ (g.node n).params, (g.param p).IsPlain) {x y : Float}
    (hpivot : (g.node n).pivot = .spot x y) {warnings errors : List Value} (hwarnings : (g.node n).read .warnings = .list warnings)
    (herrors : (g.node n).read .errors = .list errors) :
    ∃ c : Component, c.Captures g n ∧ c.warnings = warnings ∧ c.errors = errors :=
  ⟨_, {
    captured := captureNode_eq hpresents hrestorable hscript (fun p hp => (hplain p hp).hasMapping) hpivot
      hwarnings herrors
    name := rfl
    typeKey := rfl
    id := rfl
    pivot := ⟨x, y, hpivot, rfl⟩
    selected := rfl
    presents := hpresents
    restorable := hrestorable
    inputs := rfl
    outputs := rfl
    warnings := hwarnings
    errors := herrors }, rfl, rfl⟩

/-- What is captured of a node that looks like another. -/
theorem Mirrors.captures (h : s.Mirrors o g m) (ho : (s.componentOf o).Captures s o)
    (hscript : (s.node o).kind ≠ .script) {x y : Float} (hpivot : (g.node m).pivot = .spot x y) : (g.componentOf m).Captures g m := by
  obtain ⟨c, hc, -, -⟩ := exists_captures (h.presents _ ho.presents ho.restorable) (h.kind ▸ ho.restorable)
    (h.kind ▸ hscript) h.plain hpivot h.quiet.1 h.quiet.2
  rwa [hc.componentOf_eq]

variable {catalog : Catalog} {nodes : List NodeRef}

theorem Exchangeable.captures (h : g.Exchangeable catalog nodes) (hn : n ∈ nodes) :
    (g.componentOf n).Captures g n ∧ (g.componentOf n).IsReadable := by
  obtain ⟨t, ht, -, -⟩ := h.types n hn
  obtain ⟨ps, hpresents, hrestorable⟩ := ht.presentable.presents
  obtain ⟨x, y, hpivot⟩ := h.pivots n hn
  obtain ⟨warnings, hwarnings⟩ := h.messages n hn .warnings (by simp)
  obtain ⟨errors, herrors⟩ := h.messages n hn .errors (by simp)
  obtain ⟨c, hc, hcwarnings, hcerrors⟩ := exists_captures hpresents hrestorable ht.presentable.noScript ht.plain
    hpivot hwarnings herrors
  rw [hc.componentOf_eq]
  have hsettings : ∀ {settings : List ParameterSettings},
      (∀ s ∈ settings, ∃ p ∈ (g.node n).params, ∃ principal, s = (g.param p).plainSettings principal) →
        ∀ s ∈ recorded settings, s.IsReadable := by
    intro settings hall s hs
    obtain ⟨p, hp, principal, rfl⟩ := hall s (List.mem_filter.mp hs).1
    exact (ht.plain p hp).isReadable principal
  refine ⟨hc, ⟨t.name, hc.name.trans ht.name⟩, ⟨t.key, hc.typeKey.trans ht.typeKey⟩, hc.restorable.labelled,
    ?_, ?_, ?_, ?_⟩
  · rw [hc.inputs]
    refine hsettings fun s hs => ?_
    obtain ⟨⟨p, principal⟩, hp, rfl⟩ := List.mem_map.mp hs
    obtain ⟨q, hq, rfl⟩ := mem_markedInputs hp
    exact ⟨q, List.mem_append_left _ hq, principal, rfl⟩
  · rw [hc.outputs]
    refine hsettings fun s hs => ?_
    obtain ⟨q, hq, rfl⟩ := List.mem_map.mp hs
    exact ⟨q, List.mem_append_right _ hq, false, rfl⟩
  · rw [hcwarnings]
    intro v hv
    obtain ⟨text, -, rfl⟩ := List.mem_map.mp hv
    rfl
  · rw [hcerrors]
    intro v hv
    obtain ⟨text, -, rfl⟩ := List.mem_map.mp hv
    rfl

/-- The document of nodes whose wires stay among them. -/
def documentOf (g : Graph) (nodes : List NodeRef) : Document := ⟨nodes.map g.componentOf, g.wiresOf nodes⟩

/-- **What is captured of the nodes is their document**, which can be read back. -/
theorem Exchangeable.capture_eq (h : g.Exchangeable catalog nodes) :
    (g.capture .full .standard nodes).outcome.value = .ok (g.documentOf nodes) ∧
      (g.documentOf nodes).IsReadable := by
  have htext : ∀ n ∈ nodes, ∀ p ∈ (g.node n).params, ∃ text, (g.param p).name = .str text := by
    intro n hn p hp
    obtain ⟨t, ht, -, -⟩ := h.types n hn
    obtain ⟨text, -, hname⟩ := (ht.plain p hp).name
    exact ⟨text, hname⟩
  have hends : ∀ c ∈ g.wiresOf nodes,
      (∃ text, c.source.name = .str text) ∧ ∃ text, c.target.name = .str text := by
    intro c hc
    obtain ⟨n, hn, hc⟩ := List.mem_flatMap.mp hc
    obtain ⟨p, hp, hc⟩ := List.mem_flatMap.mp hc
    obtain ⟨q, hq, rfl⟩ := List.mem_map.mp hc
    obtain ⟨m, hm, -, hmem⟩ := h.wires n hn p hp q hq
    exact ⟨htext n hn p (List.mem_append_right _ hp), htext m hm q (List.mem_append_left _ hmem)⟩
  have hcaptured := fun n hn => (h.captures (n := n) hn).1.captured
  refine ⟨Graph.capture_eq h.ids (fun n hn p hp q hq => ?_) (fun n hn => ?_) hcaptured, ?_,
    fun c hc => (hends c hc).1, fun c hc => (hends c hc).2⟩
  · obtain ⟨m, hm, howner, -⟩ := h.wires n hn p hp q hq
    exact ⟨m, hm, howner⟩
  · obtain ⟨t, ht, -, -⟩ := h.types n hn
    exact ht.presentable.noScript
  · intro c hc
    obtain ⟨n, hn, rfl⟩ := List.mem_map.mp hc
    exact (h.captures hn).2

namespace Exchangeable

end Exchangeable

end Graph

namespace Work

open Procedure

variable {catalog : Catalog} {s : Graph} {nodes : List NodeRef}

/-- Where the image of a node goes. -/
def placeOf (s : Graph) (n : NodeRef) : Position Float := ((s.componentOf n).pivot.getD .origin).add .origin

end Work

/-! ## There and back -/

namespace Imaged

variable {catalog : Catalog} {s g g' : Graph} {nodes : List NodeRef} {image : NodeRef → NodeRef} {r : Rebuilt}
  {n : NodeRef}

/-- Wiring does not change how the images look, nor where they are. -/
theorem mirrors_wired {place : NodeRef → Position Float} (himaged : Imaged s place nodes image r g)
    (hwires : Wires g r.nodes (s.wiresOf nodes) g') (hn : n ∈ nodes) : s.Mirrors n g' (image n) ∧
      (g'.node (image n)).pivot = .spot (place n).x (place n).y := by
  have hnodes : g.nodes.length ≤ g'.nodes.length := Nat.le_of_eq (congrArg List.length hwires.nodes.symm)
  have hmirrors := (himaged.mirrors n hn).congr hnodes (Nat.le_of_eq hwires.length.symm) (.of_eq (hwires.node _))
    fun p _ => hwires.same p
  exact ⟨hmirrors, (congrArg Node.pivot (hwires.node _)).trans (himaged.pivots n hn)⟩

theorem captures (himaged : Imaged s (Work.placeOf s) nodes image r g) (h : s.Exchangeable catalog nodes)
    (hwires : Wires g r.nodes (s.wiresOf nodes) g') (hn : n ∈ nodes) :
    (g'.componentOf (image n)).Captures g' (image n) := by
  obtain ⟨t, ht, -, -⟩ := h.types n hn
  obtain ⟨hmirrors, hpivot⟩ := himaged.mirrors_wired hwires hn
  exact hmirrors.captures (h.captures hn).1 ht.presentable.noScript hpivot

theorem nodup_wired {place : NodeRef → Position Float} (himaged : Imaged s place nodes image r g)
    (hwires : Wires g r.nodes (s.wiresOf nodes) g') :
    ((nodes.map image).map fun m => (g'.node m).id).Nodup := by
  rw [List.map_map]
  simp only [Function.comp_def, hwires.node]
  exact himaged.distinct

/-- **What is captured of the images is their document.** -/
theorem capture_eq (himaged : Imaged s (Work.placeOf s) nodes image r g) (h : s.Exchangeable catalog nodes)
    (hready : g.Ready r.nodes) (hwires : Wires g r.nodes (s.wiresOf nodes) g') :
    (g'.capture .full .standard (nodes.map image)).outcome.value = .ok (g'.documentOf (nodes.map image)) := by
  refine Graph.capture_eq (himaged.nodup_wired hwires) (himaged.enclosed h hready hwires) (fun m hm => ?_)
    fun m hm => ?_
  · obtain ⟨n, hn, rfl⟩ := List.mem_map.mp hm
    obtain ⟨t, ht, -, -⟩ := h.types n hn
    rw [(himaged.mirrors_wired hwires hn).1.kind]
    exact ht.presentable.noScript
  · obtain ⟨n, hn, rfl⟩ := List.mem_map.mp hm
    exact (himaged.captures h hwires hn).captured

end Imaged

namespace Work

open Procedure

variable {catalog : Catalog} {s : Graph} {nodes : List NodeRef}

end Work

end Patchbay
