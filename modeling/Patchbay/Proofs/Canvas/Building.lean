import Patchbay.Canvas.Work
import Patchbay.Proofs.Canvas.Sides
import Patchbay.Proofs.Journal.Running
import Patchbay.Proofs.Property.Applying

/-!
# Building a node

Handles are places in lists that only grow, so a node under construction is told from everything
that was there before by its place.

* **`Graph.make_eq`** says what a new node is: one node and its parameters at the ends of the two
  lists.
* **`Graph.Builds`** is the invariant of configuring it: what was there before is untouched, the
  canvas is the same, and the parameters of the new node are new, have no wires, and are each either
  an input or an output.  Each way of changing the graph keeps it (`Builds.updateNode`,
  `Builds.updateParam`, `Builds.newParam`, `Builds.register`).
* `Node.Plain`, `Parameter.Fresh` — what a new node and its parameters stay all along: nothing that
  a script's maintenance and its look-up of variables would stumble over.
-/

namespace Patchbay

open Validation (Side)

/-! ## Nodes and parameters under construction -/

/-- The node is of a kind that was not overwritten, and its counters are integers. -/
structure Node.Plain (k : NodeKind) (n : Node) : Prop where
  kind : n.kind = k
  known : n.attributes.get? .kind = none
  principal : ∃ i, n.principal = .int i
  runs : k = .script → ∃ i, n.attributes.get? .maintenanceRuns = some (.int i)

/-- No parameter is both an input and an output of the node. -/
def Node.Parted (n : Node) : Prop := ∀ p ∈ n.inputs, p ∉ n.outputs

theorem Node.Parted.mono {n n' : Node} (h : n.Parted) (hinputs : n'.inputs ⊆ n.inputs)
    (houtputs : n'.outputs ⊆ n.outputs) : n'.Parted :=
  fun p hp hmem => h p (hinputs hp) (houtputs hmem)

/-- What a node has on one side it does not have on the other. -/
theorem Node.Parted.apart {n : Node} (h : n.Parted) {side side' : Side} (hne : side ≠ side') {p : ParamRef}
    (hp : p ∈ side.params n) : p ∉ side'.params n := by
  cases side <;> cases side' <;> first
    | exact absurd rfl hne
    | exact h p hp
    | exact fun hmem => h p hmem hp

theorem Node.Parted.extend {n : Node} (h : n.Parted) {side : Side} {p : ParamRef}
    (hnew : ∀ side' ≠ side, p ∉ side'.params n) : (side.extend n p).Parted := by
  cases side with
  | input =>
      intro q hq
      rcases List.mem_append.mp hq with hq | hq
      · exact h q hq
      · exact List.mem_singleton.mp hq ▸ hnew .output (by decide)
  | output =>
      intro q hq hmem
      rcases List.mem_append.mp hmem with hmem | hmem
      · exact h q hq hmem
      · exact hnew .input (by decide) (List.mem_singleton.mp hmem ▸ hq)

/-- The parameter has no wires, and a text for a variable. -/
structure Parameter.Fresh (p : Parameter) : Prop where
  sources : p.sources = []
  recipients : p.recipients = []
  named : ∃ s, p.variableName = .str s

theorem Node.Retouched.plain {k : NodeKind} {n n' : Node} (h : n.Retouched n') (hn : n.Plain k) :
    n'.Plain k where
  kind := by
    rw [h.body]
    exact hn.kind
  known := by
    rw [h.reserved .kind (by decide)]
    exact hn.known
  principal := by
    rw [h.body]
    exact hn.principal
  runs := by
    rw [h.reserved .maintenanceRuns (by decide)]
    exact hn.runs

theorem Node.Retouched.parted {n n' : Node} (h : n.Retouched n') (hn : n.Parted) : n'.Parted := by
  rw [h.body]
  exact hn

theorem Node.Plain.extend {k : NodeKind} {n : Node} (h : n.Plain k) (side : Side) (p : ParamRef) :
    (side.extend n p).Plain k := by
  cases side <;> exact ⟨h.kind, h.known, h.principal, h.runs⟩

theorem Node.Plain.actsAs_iff {k : NodeKind} {n : Node} (hn : n.Plain k) (k' : NodeKind) :
    n.actsAs k' = true ↔ k = k' := by
  unfold actsAs
  rw [hn.kind, hn.known]
  simp

theorem Node.Plain.put {k : NodeKind} {n : Node} (hn : n.Plain k) {a : Attribute} (v : Value)
    (ha : a ∉ Attribute.reserved) : (n.put a v).Plain k := (Node.Retouched.put n v ha).plain hn

/-- A new node of a type, with the parameters it was given. -/
def Node.ofType (t : NodeType) (inputs outputs : List ParamRef) : Node where
  id := ""
  typeKey := .str t.key
  name := .str t.name
  kind := t.kind
  language := t.language.getD .csharp
  pivot := .spot 0 0
  principal := .int (-1)
  inputs
  outputs
  attributes := .initial t

theorem Node.plain_ofType (t : NodeType) (inputs outputs : List ParamRef) :
    (ofType t inputs outputs).Plain t.kind where
  kind := rfl
  known := by
    unfold ofType Attributes.initial NodeKind.starters
    cases t.kind <;> rfl
  principal := ⟨-1, rfl⟩
  runs := by
    intro hkind
    refine ⟨0, ?_⟩
    unfold ofType Attributes.initial
    rw [hkind]
    rfl

theorem Parameter.fresh_ofSpec (spec : ParameterSpec) (owner : Owner) : (ofSpec spec owner).Fresh :=
  ⟨rfl, rfl, spec.name, rfl⟩

namespace Graph

theorem setNode_node (g : Graph) (n : NodeRef) : g.setNode n (g.node n) = g := by
  by_cases hn : n.index < g.nodes.length
  · simp [setNode, node, hn]
  · rw [setNode, List.set_eq_of_length_le (Nat.le_of_not_lt hn)]

theorem node_registerInput (g : Graph) {n : NodeRef} (hn : n.index < g.nodes.length) (p : ParamRef) :
    (g.registerInput n p).node n =
      if p ∈ (g.node n).inputs then g.node n
      else { g.node n with inputs := (g.node n).inputs ++ [p] } := node_setNode_self _ _ hn

theorem node_registerOutput (g : Graph) {n : NodeRef} (hn : n.index < g.nodes.length) (p : ParamRef) :
    (g.registerOutput n p).node n =
      if p ∈ (g.node n).outputs then g.node n
      else { g.node n with outputs := (g.node n).outputs ++ [p] } := node_setNode_self _ _ hn

theorem length_updateParam (g : Graph) (p : ParamRef) (f : Parameter → Parameter) :
    (g.updateParam p f).params.length = g.params.length := List.length_set

theorem length_newParam (g : Graph) (v : Parameter) :
    (g.newParam v).2.params.length = g.params.length + 1 := List.length_append

theorem param_newParam (g : Graph) (v : Parameter) {q : ParamRef} (hq : q.index < g.params.length) :
    (g.newParam v).2.param q = g.param q := by
  simp [newParam, param, List.getD_eq_getElem?_getD, List.getElem?_append_left hq]

theorem param_newParam_self (g : Graph) (v : Parameter) : (g.newParam v).2.param ⟨g.params.length⟩ = v := by
  simp [newParam, param, List.getD_eq_getElem?_getD]

/-- The graphs have the same parameters, and a node has the same of them on its sides. -/
structure SameSides (n : NodeRef) (g g' : Graph) : Prop where
  params : g'.params = g.params
  inputs : (g'.node n).inputs = (g.node n).inputs
  outputs : (g'.node n).outputs = (g.node n).outputs

namespace SameSides

variable {n : NodeRef} {g g' g'' : Graph}

theorem refl (n : NodeRef) (g : Graph) : SameSides n g g := ⟨rfl, rfl, rfl⟩

theorem trans (h : SameSides n g g') (h' : SameSides n g' g'') : SameSides n g g'' :=
  ⟨h'.params.trans h.params, h'.inputs.trans h.inputs, h'.outputs.trans h.outputs⟩

theorem setNode (g : Graph) {v : Node} (hinputs : v.inputs = (g.node n).inputs)
    (houtputs : v.outputs = (g.node n).outputs) : SameSides n g (g.setNode n v) := by
  by_cases hn : n.index < g.nodes.length
  · constructor
    · rfl
    · rw [node_setNode_self g v hn, hinputs]
    · rw [node_setNode_self g v hn, houtputs]
  · rw [Graph.setNode, List.set_eq_of_length_le (Nat.le_of_not_lt hn)]
    exact refl n g

theorem retouch (g : Graph) {v : Node} (h : (g.node n).Retouched v) : SameSides n g (g.setNode n v) := by
  refine setNode g ?_ ?_ <;> rw [h.body]

theorem param (h : SameSides n g g') (p : ParamRef) : g'.param p = g.param p := by
  unfold Graph.param
  rw [h.params]

end SameSides

/-! ## Making a node -/

/-- The handles of `count` parameters from a place on. -/
def handles (first count : Nat) : List ParamRef := (List.range' first count).map ParamRef.mk

theorem mem_handles {first count : Nat} {p : ParamRef} :
    p ∈ handles first count ↔ first ≤ p.index ∧ p.index < first + count := by
  obtain ⟨i⟩ := p
  simp [handles, List.mem_range'_1]

theorem nodup_handles (first count : Nat) : (handles first count).Nodup :=
  List.pairwise_map.mpr ((List.nodup_range' 1).imp fun hne h => hne (ParamRef.mk.inj h))

theorem newParams_eq (g : Graph) (owner : NodeRef) (specs : List ParameterSpec) :
    g.newParams owner specs = (handles g.params.length specs.length,
      { g with params := g.params ++ specs.map fun spec => .ofSpec spec (.node owner) }) := by
  induction specs generalizing g with
  | nil => simp [newParams, handles]
  | cons spec rest ih =>
      rw [newParams]
      simp only [newParam, ih]
      simp [handles, List.range'_succ, List.append_assoc]

theorem make_eq (g : Graph) (t : NodeType) :
    g.make t = (⟨g.nodes.length⟩,
      { g with
        params := g.params ++ (t.inputs ++ t.outputs).map fun spec =>
          .ofSpec spec (.node ⟨g.nodes.length⟩)
        nodes := g.nodes ++ [.ofType t (handles g.params.length t.inputs.length)
          (handles (g.params.length + t.inputs.length) t.outputs.length)] }) := by
  unfold make
  simp only [newParams_eq, List.length_append, List.length_map, List.map_append,
    List.append_assoc]
  rfl

theorem map_param_handles {g : Graph} {before new after : List Parameter}
    (h : g.params = before ++ (new ++ after)) : (handles before.length new.length).map g.param = new := by
  refine List.ext_getElem (by simp [handles]) fun i _ hi => ?_
  simp [handles, param, h, List.getElem?_append_right, List.getElem?_append_left, hi]

/-- The parameters of a new node come after all others. -/
theorem params_make (g : Graph) (t : NodeType) : (g.make t).2.params = g.params ++
    (t.inputs.map (.ofSpec · (.node (g.make t).1)) ++ t.outputs.map (.ofSpec · (.node (g.make t).1))) := by
  rw [make_eq]
  exact congrArg (g.params ++ ·) List.map_append

theorem node_make (g : Graph) (t : NodeType) : (g.make t).2.node (g.make t).1 =
    .ofType t (handles g.params.length t.inputs.length)
      (handles (g.params.length + t.inputs.length) t.outputs.length) := by
  rw [make_eq]
  simp only [node, List.getD_eq_getElem?_getD, List.getElem?_concat_length, Option.getD_some]

/-! ## The invariant -/

/-- The graph is `g₀` with a new node of a kind that is not on the canvas yet. -/
structure Builds (g₀ : Graph) (n : NodeRef) (k : NodeKind) (g : Graph) : Prop where
  handle : n.index = g₀.nodes.length
  nodes : g.nodes.length = g₀.nodes.length + 1
  params : g₀.params.length ≤ g.params.length
  oldNodes : ∀ m : NodeRef, m.index < g₀.nodes.length → g.node m = g₀.node m
  oldParams : ∀ p : ParamRef, p.index < g₀.params.length → g.param p = g₀.param p
  canvas : g.canvas = g₀.canvas
  ids : g.ids = g₀.ids
  plain : (g.node n).Plain k
  own : ∀ p ∈ (g.node n).params, g₀.params.length ≤ p.index ∧ p.index < g.params.length
  /-- No parameter is an input and an output. -/
  parted : (g.node n).Parted
  fresh : ∀ p : ParamRef, g₀.params.length ≤ p.index → p.index < g.params.length →
    (g.param p).Fresh

theorem builds_make (g : Graph) (t : NodeType) : g.Builds (g.make t).1 t.kind (g.make t).2 := by
  rw [make_eq]
  have hnode : ∀ ps ns, Graph.node { g with params := ps, nodes := g.nodes ++ [ns] }
      ⟨g.nodes.length⟩ = ns := by
    intro ps ns
    simp [node, List.getD_eq_getElem?_getD]
  constructor
  case handle => rfl
  case nodes => simp
  case params => simp
  case oldNodes =>
    intro m hm
    simp [node, List.getD_eq_getElem?_getD, List.getElem?_append_left hm]
  case oldParams =>
    intro p hp
    simp [param, List.getD_eq_getElem?_getD, List.getElem?_append_left hp]
  case canvas => rfl
  case ids => rfl
  case plain =>
    rw [hnode]
    exact Node.plain_ofType _ _ _
  case own =>
    rw [hnode]
    intro p hp
    change p ∈ handles _ _ ++ handles _ _ at hp
    rw [List.mem_append, mem_handles, mem_handles] at hp
    simp only [List.length_append, List.length_map]
    omega
  case parted =>
    rw [hnode]
    intro p hp hmem
    change p ∈ handles _ _ at hp hmem
    rw [mem_handles] at hp hmem
    omega
  case fresh =>
    intro p hp hlt
    simp only [List.length_append, List.length_map] at hlt
    obtain ⟨spec, hspec⟩ : ∃ spec, (t.inputs ++ t.outputs)[p.index - g.params.length]? = some spec :=
      ⟨_, List.getElem?_eq_getElem (by rw [List.length_append]; omega)⟩
    have hparam : ∀ ns, Graph.param
        { g with
          params := g.params ++ (t.inputs ++ t.outputs).map fun spec =>
            .ofSpec spec (.node ⟨g.nodes.length⟩)
          nodes := ns } p = .ofSpec spec (.node ⟨g.nodes.length⟩) := by
      intro ns
      simp only [param, List.getD_eq_getElem?_getD, List.getElem?_append_right hp,
        List.getElem?_map, hspec, Option.map_some, Option.getD_some]
    rw [hparam]
    exact Parameter.fresh_ofSpec _ _

namespace Builds

variable {g₀ g : Graph} {n : NodeRef} {k : NodeKind}

theorem index_lt (h : g₀.Builds n k g) : n.index < g.nodes.length := by
  rw [h.nodes, h.handle]
  exact Nat.lt_succ_self _

/-- The new node is changed to another plain one, with no parameters but new ones. -/
theorem setNode (h : g₀.Builds n k g) {v : Node} (hplain : v.Plain k)
    (hown : ∀ p ∈ v.params, g₀.params.length ≤ p.index ∧ p.index < g.params.length)
    (hparted : v.Parted) : g₀.Builds n k (g.setNode n v) := by
  have hself : (g.setNode n v).node n = v := node_setNode_self g v h.index_lt
  constructor
  case handle => exact h.handle
  case nodes => simpa [Graph.setNode] using h.nodes
  case params => exact h.params
  case oldNodes =>
    intro m hm
    have hne : m ≠ n := by
      rintro rfl
      exact absurd h.handle (Nat.ne_of_lt hm)
    rw [node_setNode_of_ne g v hne]
    exact h.oldNodes m hm
  case oldParams => exact h.oldParams
  case canvas => exact h.canvas
  case ids => exact h.ids
  case plain => rwa [hself]
  case own => rwa [hself]
  case parted => rwa [hself]
  case fresh => exact h.fresh

/-- The new node is retouched. -/
theorem retouch (h : g₀.Builds n k g) {v : Node} (hv : (g.node n).Retouched v) :
    g₀.Builds n k (g.setNode n v) := by
  refine h.setNode (hv.plain h.plain) ?_ (hv.parted h.parted)
  rw [hv.params]
  exact h.own

theorem updateNode (h : g₀.Builds n k g) {f : Node → Node} (hplain : (f (g.node n)).Plain k)
    (hinputs : (f (g.node n)).inputs ⊆ (g.node n).inputs)
    (houtputs : (f (g.node n)).outputs ⊆ (g.node n).outputs) :
    g₀.Builds n k (g.updateNode n f) := by
  refine h.setNode hplain (fun p hp => h.own p ?_) (h.parted.mono hinputs houtputs)
  rcases List.mem_append.mp hp with hp | hp
  · exact List.mem_append_left _ (hinputs hp)
  · exact List.mem_append_right _ (houtputs hp)

/-- A new parameter is changed and stays fresh. -/
theorem updateParam (h : g₀.Builds n k g) {p : ParamRef} {f : Parameter → Parameter}
    (hp : g₀.params.length ≤ p.index) (hlt : p.index < g.params.length)
    (hfresh : (f (g.param p)).Fresh) : g₀.Builds n k (g.updateParam p f) := by
  have hlength := g.length_updateParam p f
  constructor
  case handle => exact h.handle
  case nodes => exact h.nodes
  case params => rw [hlength]; exact h.params
  case oldNodes => exact h.oldNodes
  case oldParams =>
    intro q hq
    have hne : q ≠ p := by
      rintro rfl
      exact absurd hp (Nat.not_le_of_lt hq)
    rw [Graph.updateParam, param_setParam_of_ne g _ hne]
    exact h.oldParams q hq
  case canvas => exact h.canvas
  case ids => exact h.ids
  case plain => exact h.plain
  case own => rw [hlength]; exact h.own
  case parted => exact h.parted
  case fresh =>
    intro q hq hlt'
    rw [hlength] at hlt'
    by_cases hne : q = p
    · subst hne
      rw [Graph.updateParam, param_setParam_self g _ hlt]
      exact hfresh
    · rw [Graph.updateParam, param_setParam_of_ne g _ hne]
      exact h.fresh q hq hlt'

theorem newParam (h : g₀.Builds n k g) {v : Parameter} (hv : v.Fresh) :
    g₀.Builds n k (g.newParam v).2 := by
  have hlength := g.length_newParam v
  constructor
  case handle => exact h.handle
  case nodes => exact h.nodes
  case params => rw [hlength]; exact Nat.le_succ_of_le h.params
  case oldNodes => exact h.oldNodes
  case oldParams =>
    intro q hq
    rw [g.param_newParam v (Nat.lt_of_lt_of_le hq h.params)]
    exact h.oldParams q hq
  case canvas => exact h.canvas
  case ids => exact h.ids
  case plain => exact h.plain
  case own =>
    intro q hq
    rw [hlength]
    obtain ⟨hle, hlt⟩ := h.own q hq
    exact ⟨hle, Nat.lt_succ_of_lt hlt⟩
  case parted => exact h.parted
  case fresh =>
    intro q hq hlt
    rw [hlength] at hlt
    rcases Nat.lt_succ_iff_lt_or_eq.mp hlt with hlt | heq
    · rw [g.param_newParam v hlt]
      exact h.fresh q hq hlt
    · obtain rfl : q = ⟨g.params.length⟩ := congrArg ParamRef.mk heq
      rwa [g.param_newParam_self v]

/-! ### Parameters of scripts -/

theorem adopt (h : g₀.Builds n k g) {p : ParamRef} (hp : g₀.params.length ≤ p.index)
    (hlt : p.index < g.params.length) :
    g₀.Builds n k (g.updateParam p fun v => { v with owner := .node n }) := by
  obtain ⟨hsources, hrecipients, hnamed⟩ := h.fresh p hp hlt
  exact h.updateParam hp hlt ⟨hsources, hrecipients, hnamed⟩

/-- A new parameter that is on no other side is registered. -/
theorem register (h : g₀.Builds n k g) (side : Side) {p : ParamRef} (hp : g₀.params.length ≤ p.index)
    (hlt : p.index < g.params.length) (hnew : ∀ side' ≠ side, p ∉ side'.params (g.node n)) :
    g₀.Builds n k (side.register g n p) := by
  have hadopted := h.adopt hp hlt
  have hlength := Nat.lt_of_lt_of_eq hlt (g.length_updateParam p fun v => { v with owner := .node n }).symm
  change ∀ side' ≠ side, p ∉ side'.params ((g.updateParam p fun v => { v with owner := .node n }).node n) at hnew
  rw [side.register_eq]
  generalize (g.updateParam p fun v => { v with owner := .node n }) = g' at hadopted hlength hnew ⊢
  refine hadopted.setNode ?_ ?_ ?_ <;> dsimp only <;> split
  · exact hadopted.plain
  · exact hadopted.plain.extend side p
  · exact hadopted.own
  · intro q hq
    rcases List.mem_cons.mp ((side.perm_params_extend _ p).mem_iff.mp hq) with rfl | hq
    · exact ⟨hp, hlength⟩
    · exact hadopted.own q hq
  · exact hadopted.parted
  · exact hadopted.parted.extend hnew

/-- A node loses parameters, and nothing is added. -/
structure Sheds (n : NodeRef) (g g' : Graph) : Prop where
  params : g'.params = g.params
  inputs : (g'.node n).inputs ⊆ (g.node n).inputs
  outputs : (g'.node n).outputs ⊆ (g.node n).outputs

theorem Sheds.refl (n : NodeRef) (g : Graph) : Sheds n g g :=
  ⟨rfl, List.Subset.refl _, List.Subset.refl _⟩

theorem Sheds.trans {g g' g'' : Graph} (h : Sheds n g g') (h' : Sheds n g' g'') : Sheds n g g'' :=
  ⟨h'.params.trans h.params, List.Subset.trans h'.inputs h.inputs,
    List.Subset.trans h'.outputs h.outputs⟩

/-- A parameter without wires has none to lose. -/
theorem isolate_eq_self (h : g₀.Builds n k g) {p : ParamRef} (hp : p ∈ (g.node n).params) :
    g.isolate p = g := by
  obtain ⟨hle, hlt⟩ := h.own p hp
  have hfresh := h.fresh p hle hlt
  unfold Graph.isolate
  rw [hfresh.sources]
  dsimp only [List.foldl_nil]
  rw [hfresh.recipients, List.foldl_nil]

/-- The new node keeps all but some of its parameters. -/
theorem shed (h : g₀.Builds n k g) {f : Node → Node} (hplain : (f (g.node n)).Plain k)
    (hinputs : (f (g.node n)).inputs ⊆ (g.node n).inputs)
    (houtputs : (f (g.node n)).outputs ⊆ (g.node n).outputs) :
    g₀.Builds n k (g.updateNode n f) ∧ Sheds n g (g.updateNode n f) := by
  have hself : (g.updateNode n f).node n = f (g.node n) := node_setNode_self g _ h.index_lt
  exact ⟨h.updateNode hplain hinputs houtputs, rfl, hself ▸ hinputs, hself ▸ houtputs⟩

theorem unregisterInput (h : g₀.Builds n k g) (p : ParamRef) :
    g₀.Builds n k (g.unregisterInput n p) ∧ Sheds n g (g.unregisterInput n p) := by
  unfold Graph.unregisterInput
  split
  · next hp =>
    rw [h.isolate_eq_self (List.mem_append_left _ hp)]
    exact h.shed ⟨h.plain.kind, h.plain.known, h.plain.principal, h.plain.runs⟩ List.erase_subset
      (List.Subset.refl _)
  · exact ⟨h, .refl n g⟩

theorem unregisterOutput (h : g₀.Builds n k g) (p : ParamRef) :
    g₀.Builds n k (g.unregisterOutput n p) ∧ Sheds n g (g.unregisterOutput n p) := by
  unfold Graph.unregisterOutput
  split
  · next hp =>
    rw [h.isolate_eq_self (List.mem_append_right _ hp)]
    exact h.shed ⟨h.plain.kind, h.plain.known, h.plain.principal, h.plain.runs⟩ (List.Subset.refl _)
      List.erase_subset
  · exact ⟨h, .refl n g⟩

/-- A step that keeps the invariant and takes parameters away does so over a whole list. -/
theorem foldl_sheds {step : Graph → ParamRef → Graph}
    (hstep : ∀ g, g₀.Builds n k g → ∀ p, g₀.Builds n k (step g p) ∧ Sheds n g (step g p))
    (h : g₀.Builds n k g) (ps : List ParamRef) :
    g₀.Builds n k (ps.foldl step g) ∧ Sheds n g (ps.foldl step g) := by
  induction ps generalizing g with
  | nil => exact ⟨h, .refl n g⟩
  | cons p rest ih =>
      obtain ⟨hp, hsheds⟩ := hstep g h p
      obtain ⟨hrest, hsheds'⟩ := ih hp
      exact ⟨hrest, hsheds.trans hsheds'⟩

theorem unregisterAll (h : g₀.Builds n k g) :
    g₀.Builds n k (g.unregisterAll n) ∧ Sheds n g (g.unregisterAll n) := by
  obtain ⟨hin, hsheds⟩ := foldl_sheds (fun g h p => unregisterInput h p) h (g.node n).inputs
  obtain ⟨hout, hsheds'⟩ := foldl_sheds (fun g h p => unregisterOutput h p) hin (g.node n).outputs
  exact ⟨hout, hsheds.trans hsheds'⟩

theorem nameParams (h : g₀.Builds n k g) : g₀.Builds n k (g.nameParams n) := by
  have hname : ∀ ps : List ParamRef, ∀ g, g₀.Builds n k g →
      (∀ p ∈ ps, g₀.params.length ≤ p.index ∧ p.index < g.params.length) →
      g₀.Builds n k (ps.foldl (fun g p => g.updateParam p nameParam) g) := by
    intro ps
    induction ps with
    | nil => exact fun g h _ => h
    | cons p rest ih =>
        intro g h hps
        obtain ⟨hle, hlt⟩ := hps p (by simp)
        have hfresh : (nameParam (g.param p)).Fresh := by
          obtain ⟨hsources, hrecipients, hnamed⟩ := h.fresh p hle hlt
          unfold nameParam
          split <;> exact ⟨hsources, hrecipients, hnamed⟩
        refine ih _ (h.updateParam hle hlt hfresh) fun q hq => ?_
        simpa [Graph.updateParam, Graph.setParam] using hps q (by simp [hq])
  exact hname _ g h h.own

end Builds

end Graph

end Patchbay
