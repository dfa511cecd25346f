import Patchbay.Proofs.Canvas.Building
import Patchbay.Proofs.Canvas.Wiring
import Patchbay.Proofs.Distinct

/-!
# Editing a live graph

Whatever is done to a graph by hand, its wires stay recorded at both ends.

* `Edit` — what can be done to nodes, parameters and wires; `Graph.edit` is the graph after it
* `Graph.Reachable` — the graphs that edits lead to, from one without nodes
* **`Graph.Tidy`** is the invariant: the graph is wired, and no list has an element twice.  Each edit
  keeps it (`Edit.keeps`), and the only edit that is refused is a wire from a parameter to itself
  (`Edit.result_connect_self`).
* **`Graph.Reachable.wiring`** — the invariant in every reachable graph, and what a removal leaves
-/

namespace Patchbay

/-! ## Edits -/

/-- What can be done to nodes, parameters and wires. -/
inductive Edit
  | make (t : NodeType)
  /-- A new parameter that belongs to no node yet. -/
  | create (p : Parameter)
  | connect (source target : ParamRef)
  | disconnect (source target : ParamRef)
  | isolate (p : ParamRef)
  | registerInput (n : NodeRef) (p : ParamRef)
  | registerOutput (n : NodeRef) (p : ParamRef)
  | unregisterInput (n : NodeRef) (p : ParamRef)
  | unregisterOutput (n : NodeRef) (p : ParamRef)
  | place (n : NodeRef) (spot : Position Float)
  | remove (n : NodeRef)
  | clear

namespace Edit

/-- The computation that makes the edit. -/
def perform : Edit → Work Unit
  | make t => Work.update fun g => (g.make t).2
  | create p => Work.update fun g => (g.newParam p).2
  | connect s t => Work.feed (some s) (some t)
  | disconnect s t => Work.unfeed (some s) (some t)
  | isolate p => Work.isolate p
  | registerInput n p => Work.update fun g => g.registerInput n p
  | registerOutput n p => Work.update fun g => g.registerOutput n p
  | unregisterInput n p => Work.unregisterInput n p
  | unregisterOutput n p => Work.unregisterOutput n p
  | place n spot => Work.update fun g => g.place n spot
  | remove n => Work.remove n
  | clear => Work.clear

/-- The edit is about nodes and parameters that were made before, and a parameter that it makes has no
wires. -/
def Known (g : Graph) : Edit → Prop
  | make _ | clear => True
  | create p => p.sources = [] ∧ p.recipients = [] ∧ p.gap = none
  | connect s t | disconnect s t => s.index < g.params.length ∧ t.index < g.params.length
  | isolate p => p.index < g.params.length
  | registerInput n p | registerOutput n p | unregisterInput n p | unregisterOutput n p =>
    n.index < g.nodes.length ∧ p.index < g.params.length
  | place n _ | remove n => n.index < g.nodes.length

end Edit

namespace Graph

/-- The graph after an edit; after a refused one, the graph as the refusal left it. -/
def edit (g : Graph) (e : Edit) : Graph := (e.perform.result g).2

/-- The graphs that edits lead to, one after the other. -/
inductive Reachable : Graph → Prop
  | start (ids : IdSupply) : Reachable (.empty ids)
  | step {g : Graph} {e : Edit} (h : Reachable g) (he : e.Known g) : Reachable (g.edit e)

/-! ## The invariant -/

/-- The graph is wired, and no list has an element twice. -/
structure Tidy (g : Graph) : Prop extends Wired g where
  inputs_nodup : ∀ n, (g.node n).inputs.Nodup
  outputs_nodup : ∀ n, (g.node n).outputs.Nodup
  canvas_nodup : g.canvas.Nodup

variable {g g' : Graph} {n : NodeRef} {p : ParamRef}

/-- What holds of every node holds of every node still when it holds of the one that was changed. -/
theorem forall_node_updateNode {P : Node → Prop} {f : Node → Node} (h : ∀ m, P (g.node m))
    (hf : P (f (g.node n))) (m : NodeRef) : P ((g.updateNode n f).node m) := by
  unfold updateNode
  by_cases hm : m = n
  · subst hm
    by_cases hlt : m.index < g.nodes.length
    · rwa [node_setNode_self g _ hlt]
    · have hsame : g.setNode m (f (g.node m)) = g := by
        unfold setNode
        rw [List.set_eq_of_length_le (Nat.le_of_not_lt hlt)]
      rw [hsame]
      exact h m
  · rw [node_setNode_of_ne g _ hm]
    exact h m

/-- What holds of every node holds of every node still when it holds of a new one. -/
theorem forall_node_append {P : Node → Prop} {ps : List Parameter} {v : Node} (h : ∀ m, P (g.node m))
    (hv : P v) (m : NodeRef) : P (Graph.node { g with params := ps, nodes := g.nodes ++ [v] } m) := by
  have hcases : Graph.node { g with params := ps, nodes := g.nodes ++ [v] } m = g.node m ∨
      Graph.node { g with params := ps, nodes := g.nodes ++ [v] } m = v := by
    unfold node
    simp only [List.getD_eq_getElem?_getD]
    rcases Nat.lt_trichotomy m.index g.nodes.length with hlt | heq | hgt
    · exact Or.inl (by rw [List.getElem?_append_left hlt])
    · exact Or.inr (by rw [heq, List.getElem?_concat_length, Option.getD_some])
    · left
      have hlength : (g.nodes ++ [v]).length ≤ m.index := by simpa using Nat.succ_le_of_lt hgt
      rw [List.getElem?_eq_none hlength, List.getElem?_eq_none (Nat.le_of_lt hgt)]
  rcases hcases with heq | heq
  · rw [heq]
    exact h m
  · rw [heq]
    exact hv

/-- New parameters without wires change no wire. -/
theorem Wired.append (h : g.Wired) {new : List Parameter} (hparams : g'.params = g.params ++ new)
    (hnew : ∀ p ∈ new, p.sources = [] ∧ p.recipients = [] ∧ p.gap = none) : g'.Wired := by
  refine h.congr fun p => ?_
  by_cases hold : p.index < g.params.length
  · have hparam : g'.param p = g.param p := by
      unfold param
      rw [hparams, List.getD_eq_getElem?_getD, List.getElem?_append_left hold, ← List.getD_eq_getElem?_getD]
    rw [hparam]
    exact ⟨rfl, rfl, rfl⟩
  · rw [param_of_length_le (Nat.le_of_not_lt hold)]
    by_cases hlt : p.index < g'.params.length
    · have hget : g'.params[p.index]? = new[p.index - g.params.length]? := by
        rw [hparams, List.getElem?_append_right (Nat.le_of_not_lt hold)]
      have hparam : g'.params[p.index]? = some (g'.param p) := by
        unfold param
        rw [List.getD_eq_getElem?_getD, List.getElem?_eq_getElem hlt, Option.getD_some]
      exact hnew _ (List.mem_of_getElem? (hget.symm.trans hparam))
    · rw [param_of_length_le (Nat.le_of_not_lt hlt)]
      exact ⟨rfl, rfl, rfl⟩

/-- A parameter is changed, but not its wires. -/
theorem Wired.updateParam (h : g.Wired) (p : ParamRef) {f : Parameter → Parameter}
    (hf : ∀ v, (f v).sources = v.sources ∧ (f v).recipients = v.recipients ∧ (f v).gap = v.gap) :
    (g.updateParam p f).Wired := by
  refine h.congr fun q => ?_
  by_cases hlt : p.index < g.params.length
  · rw [param_updateParam _ hlt]
    split
    · next hq =>
      rw [hq]
      exact hf _
    · exact ⟨rfl, rfl, rfl⟩
  · have hsame : (g.updateParam p f).params = g.params := List.set_eq_of_length_le (Nat.le_of_not_lt hlt)
    unfold param
    rw [hsame]
    exact ⟨rfl, rfl, rfl⟩

namespace Tidy

theorem cut {stays : ParamRef → ParamRef → Prop} (h : g.Tidy) (hcut : Cut stays g g') : g'.Tidy where
  toWired := hcut.wired
  inputs_nodup := fun n => by rw [hcut.node]; exact h.inputs_nodup n
  outputs_nodup := fun n => by rw [hcut.node]; exact h.outputs_nodup n
  canvas_nodup := by rw [hcut.canvas]; exact h.canvas_nodup

theorem updateNode (h : g.Tidy) {f : Node → Node} (hinputs : (f (g.node n)).inputs.Nodup)
    (houtputs : (f (g.node n)).outputs.Nodup) : (g.updateNode n f).Tidy where
  toWired := h.toWired.congr fun _ => ⟨rfl, rfl, rfl⟩
  inputs_nodup := forall_node_updateNode (P := fun v => v.inputs.Nodup) h.inputs_nodup hinputs
  outputs_nodup := forall_node_updateNode (P := fun v => v.outputs.Nodup) h.outputs_nodup houtputs
  canvas_nodup := h.canvas_nodup

theorem updateOwner (h : g.Tidy) (p : ParamRef) (owner : Owner) :
    (g.updateParam p fun v => { v with owner }).Tidy where
  toWired := h.toWired.updateParam p fun _ => ⟨rfl, rfl, rfl⟩
  inputs_nodup := h.inputs_nodup
  outputs_nodup := h.outputs_nodup
  canvas_nodup := h.canvas_nodup

theorem withCanvas (h : g.Tidy) {canvas : List NodeRef} (hcanvas : canvas.Nodup) :
    ({ g with canvas } : Graph).Tidy where
  toWired := h.toWired.congr fun _ => ⟨rfl, rfl, rfl⟩
  inputs_nodup := h.inputs_nodup
  outputs_nodup := h.outputs_nodup
  canvas_nodup := hcanvas

theorem empty (ids : IdSupply) : (Graph.empty ids).Tidy where
  symmetric := by simp [Graph.empty, param, default, instInhabitedParameter.default]
  sources_nodup := fun _ => List.nodup_nil
  recipients_nodup := fun _ => List.nodup_nil
  irreflexive := fun _ => List.not_mem_nil
  whole := fun _ => rfl
  inputs_nodup := fun _ => List.nodup_nil
  outputs_nodup := fun _ => List.nodup_nil
  canvas_nodup := List.nodup_nil

theorem make (h : g.Tidy) (t : NodeType) : (g.make t).2.Tidy := by
  rw [make_eq]
  have hnode : ∀ {P : Node → Prop} {ps : List Parameter} {v : Node}, (∀ m, P (g.node m)) → P v →
      ∀ m, P (Graph.node { g with params := ps, nodes := g.nodes ++ [v] } m) :=
    forall_node_append
  constructor
  case toWired =>
    refine h.toWired.append rfl fun p hp => ?_
    obtain ⟨spec, -, rfl⟩ := List.mem_map.mp hp
    exact ⟨rfl, rfl, rfl⟩
  case inputs_nodup => exact hnode (P := fun v => v.inputs.Nodup) h.inputs_nodup (nodup_handles _ _)
  case outputs_nodup => exact hnode (P := fun v => v.outputs.Nodup) h.outputs_nodup (nodup_handles _ _)
  case canvas_nodup => exact h.canvas_nodup

theorem newParam (h : g.Tidy) {p : Parameter} (hp : p.sources = [] ∧ p.recipients = [] ∧ p.gap = none) :
    (g.newParam p).2.Tidy where
  toWired := h.toWired.append rfl fun _ hq => List.mem_singleton.mp hq ▸ hp
  inputs_nodup := h.inputs_nodup
  outputs_nodup := h.outputs_nodup
  canvas_nodup := h.canvas_nodup

theorem registerInput (h : g.Tidy) (n : NodeRef) (p : ParamRef) : (g.registerInput n p).Tidy := by
  refine (h.updateOwner p (.node n)).updateNode ?_ ?_
  · change (if p ∈ (g.node n).inputs then g.node n
      else { g.node n with inputs := (g.node n).inputs ++ [p] }).inputs.Nodup
    rw [apply_ite Node.inputs]
    exact nodup_added (h.inputs_nodup n) p
  · split <;> exact h.outputs_nodup n

theorem registerOutput (h : g.Tidy) (n : NodeRef) (p : ParamRef) : (g.registerOutput n p).Tidy := by
  refine (h.updateOwner p (.node n)).updateNode ?_ ?_
  · split <;> exact h.inputs_nodup n
  · change (if p ∈ (g.node n).outputs then g.node n
      else { g.node n with outputs := (g.node n).outputs ++ [p] }).outputs.Nodup
    rw [apply_ite Node.outputs]
    exact nodup_added (h.outputs_nodup n) p

theorem place (h : g.Tidy) (n : NodeRef) (spot : Position Float) : (g.place n spot).Tidy := by
  have hids : ({ g with ids := g.ids.next.2 } : Graph).Tidy :=
    ⟨h.toWired.congr fun _ => ⟨rfl, rfl, rfl⟩, h.inputs_nodup, h.outputs_nodup, h.canvas_nodup⟩
  have hnode := hids.updateNode (f := fun v => { v with id := g.ids.next.1, pivot := .spot spot.x spot.y })
    (h.inputs_nodup n) (h.outputs_nodup n)
  unfold Graph.place
  dsimp only
  split
  · exact hnode
  · next hn =>
    have hcanvas : (g.canvas.concat n).Nodup := h.canvas_nodup.concat hn
    rw [List.concat_eq_append] at hcanvas
    exact hnode.withCanvas hcanvas

end Tidy

end Graph

/-! ## What edits do -/

namespace Edit

open Procedure

variable {g : Graph} {n : NodeRef} {p : ParamRef}

/-- A wire from a parameter to itself is refused, and everything stays as it was. -/
theorem result_connect_self (g : Graph) (p : ParamRef) :
    (connect p p).perform.result g = (.error (.selfWire (g.param p).name.text), g) := by
  have hconnect : g.connect p p = .error (.selfWire (g.param p).name.text) := if_pos rfl
  change Procedure.result (ofResult (g.connect p p) >>= fun g' => set g') g = _
  rw [hconnect]
  rfl

theorem keeps_unregisterInput (h : g.Tidy) (n : NodeRef) (p : ParamRef) :
    (Work.unregisterInput n p).Succeeds g fun _ g' => g'.Tidy := by
  refine Work.unregisterInput_keeps h.toWired h fun cut hcut => ?_
  have htidy := h.cut hcut
  exact htidy.updateNode ((htidy.inputs_nodup n).erase p) (htidy.outputs_nodup n)

theorem keeps_unregisterOutput (h : g.Tidy) (n : NodeRef) (p : ParamRef) :
    (Work.unregisterOutput n p).Succeeds g fun _ g' => g'.Tidy := by
  refine Work.unregisterOutput_keeps h.toWired h fun cut hcut => ?_
  have htidy := h.cut hcut
  exact htidy.updateNode (htidy.inputs_nodup n) ((htidy.outputs_nodup n).erase p)

theorem keeps_remove (h : g.Tidy) (n : NodeRef) : (Work.remove n).Succeeds g fun _ g' => g'.Tidy := by
  refine Work.remove_keeps h.toWired h fun cut hcut => ?_
  have htidy := h.cut hcut
  exact htidy.withCanvas (htidy.canvas_nodup.erase n)

theorem keeps_connect (h : g.Tidy) {s t : ParamRef} (hne : s ≠ t) (hs : s.index < g.params.length)
    (ht : t.index < g.params.length) :
    (connect s t).perform.Succeeds g fun _ g' => g'.Tidy := by
  refine Work.succeeds_graph_bind ?_
  obtain ⟨g', hconnect⟩ := g.exists_connect hne
  have hnode := Graph.node_connect hconnect
  refine succeeds_ofResult_bind hconnect (succeeds_set ?_)
  constructor
  case toWired => exact h.toWired.connect hconnect hs ht
  case inputs_nodup => exact fun n => hnode n ▸ h.inputs_nodup n
  case outputs_nodup => exact fun n => hnode n ▸ h.outputs_nodup n
  case canvas_nodup => exact (Graph.frame_connect hconnect).2.1 ▸ h.canvas_nodup

/-- Every edit of known nodes and parameters succeeds and keeps the graph tidy, if it is not the wire
that is refused. -/
theorem keeps (h : g.Tidy) {e : Edit} (he : e.Known g) (hself : ∀ p, e ≠ connect p p) :
    e.perform.Succeeds g fun _ g' => g'.Tidy := by
  cases e with
  | make t => exact Work.succeeds_update (h.make t)
  | create p => exact Work.succeeds_update (h.newParam he)
  | connect s t =>
      refine keeps_connect h ?_ he.1 he.2
      rintro rfl
      exact hself s rfl
  | disconnect s t => exact Work.succeeds_update (h.cut (Graph.cut_disconnect h.toWired s t))
  | isolate p =>
      refine (Work.succeeds_isolate h.toWired p).mono fun _ g' hg' => ?_
      subst hg'
      exact h.cut (Graph.cut_isolate h.toWired p)
  | registerInput n p => exact Work.succeeds_update (h.registerInput n p)
  | registerOutput n p => exact Work.succeeds_update (h.registerOutput n p)
  | unregisterInput n p => exact keeps_unregisterInput h n p
  | unregisterOutput n p => exact keeps_unregisterOutput h n p
  | place n spot => exact Work.succeeds_update (h.place n spot)
  | remove n => exact keeps_remove h n
  | clear =>
      refine Work.succeeds_graph_bind ?_
      exact succeeds_forM (fun n _ g' h' => keeps_remove h' n) h

end Edit

/-! ## Reachable graphs -/

namespace Graph

variable {g : Graph}

theorem tidy_edit (h : g.Tidy) {e : Edit} (he : e.Known g) : (g.edit e).Tidy := by
  unfold edit
  by_cases hself : ∃ p, e = .connect p p
  · obtain ⟨p, rfl⟩ := hself
    rw [Edit.result_connect_self]
    exact h
  · obtain ⟨_, g', hresult, htidy⟩ := Edit.keeps h he fun p hp => hself ⟨p, hp⟩
    rw [hresult]
    exact htidy

theorem Reachable.tidy (h : g.Reachable) : g.Tidy := by
  induction h with
  | start ids => exact .empty ids
  | step _ he ih => exact tidy_edit ih he

/-! ### What a removal leaves -/

variable {n : NodeRef} {p : ParamRef}

theorem node_of_length_le (h : g.nodes.length ≤ n.index) : g.node n = default := by
  unfold node
  rw [List.getD_eq_getElem?_getD, List.getElem?_eq_none h, Option.getD_none]

/-- A node with a parameter was made before. -/
theorem index_lt_of_mem_params (h : p ∈ (g.node n).params) : n.index < g.nodes.length := by
  refine Nat.lt_of_not_le fun hle => ?_
  rw [node_of_length_le hle] at h
  exact List.not_mem_nil h

theorem edit_remove (h : g.Tidy) (hn : n ∈ g.canvas) :
    n ∉ (g.edit (.remove n)).canvas ∧ ∀ p ∈ (g.node n).params, (g.edit (.remove n)).Detached p := by
  obtain ⟨_, g', hresult, cut, hcut, hg'⟩ := Work.succeeds_remove h.toWired hn
  have hedit : g.edit (.remove n) = { cut with canvas := cut.canvas.erase n } :=
    (congrArg Prod.snd hresult).trans hg'
  rw [hedit]
  constructor
  · exact (h.cut hcut).canvas_nodup.not_mem_erase
  · intro p hp
    have hdetached := hcut.detached (fun _ hstays => hstays.1 hp) fun _ hstays => hstays.2 hp
    exact ⟨hdetached.sources, hdetached.recipients, hdetached.unfed, hdetached.unfeeding⟩

theorem edit_unregisterInput (h : g.Tidy) (hp : p ∈ (g.node n).inputs) :
    p ∉ ((g.edit (.unregisterInput n p)).node n).inputs ∧ (g.edit (.unregisterInput n p)).Detached p := by
  obtain ⟨_, g', hresult, cut, hcut, hg'⟩ := Work.succeeds_unregisterInput h.toWired hp
  have hn : n.index < cut.nodes.length := by
    rw [hcut.nodes]
    exact index_lt_of_mem_params (List.mem_append_left _ hp)
  have hedit : g.edit (.unregisterInput n p) =
      cut.updateNode n fun v => { v with inputs := v.inputs.erase p } :=
    (congrArg Prod.snd hresult).trans hg'
  rw [hedit]
  constructor
  · rw [updateNode, node_setNode_self _ _ hn]
    exact ((h.cut hcut).inputs_nodup n).not_mem_erase
  · have hdetached := hcut.detached (p := p) (fun _ hstays => hstays.1 rfl) fun _ hstays => hstays.2 rfl
    exact ⟨hdetached.sources, hdetached.recipients, hdetached.unfed, hdetached.unfeeding⟩

theorem edit_unregisterOutput (h : g.Tidy) (hp : p ∈ (g.node n).outputs) :
    p ∉ ((g.edit (.unregisterOutput n p)).node n).outputs ∧
      (g.edit (.unregisterOutput n p)).Detached p := by
  obtain ⟨_, g', hresult, cut, hcut, hg'⟩ := Work.succeeds_unregisterOutput h.toWired hp
  have hn : n.index < cut.nodes.length := by
    rw [hcut.nodes]
    exact index_lt_of_mem_params (List.mem_append_right _ hp)
  have hedit : g.edit (.unregisterOutput n p) =
      cut.updateNode n fun v => { v with outputs := v.outputs.erase p } :=
    (congrArg Prod.snd hresult).trans hg'
  rw [hedit]
  constructor
  · rw [updateNode, node_setNode_self _ _ hn]
    exact ((h.cut hcut).outputs_nodup n).not_mem_erase
  · have hdetached := hcut.detached (p := p) (fun _ hstays => hstays.1 rfl) fun _ hstays => hstays.2 rfl
    exact ⟨hdetached.sources, hdetached.recipients, hdetached.unfed, hdetached.unfeeding⟩

/-- However a graph was edited, its wires are recorded at both ends, once, and none leads from a
parameter to itself; what is removed from it has no wires and is not referred to; and the only edit that
is refused leaves everything as it was. -/
theorem Reachable.wiring (h : g.Reachable) :
    (∀ p q, q ∈ (g.param p).sources ↔ p ∈ (g.param q).recipients) ∧
    (∀ p, (g.param p).sources.Nodup ∧ (g.param p).recipients.Nodup) ∧
    (∀ p, p ∉ (g.param p).sources) ∧
    g.canvas.Nodup ∧
    (∀ n ∈ g.canvas, n ∉ (g.edit (.remove n)).canvas ∧
      ∀ p ∈ (g.node n).params, (g.edit (.remove n)).Detached p) ∧
    (∀ n, ∀ p ∈ (g.node n).inputs, p ∉ ((g.edit (.unregisterInput n p)).node n).inputs ∧
      (g.edit (.unregisterInput n p)).Detached p) ∧
    (∀ n, ∀ p ∈ (g.node n).outputs, p ∉ ((g.edit (.unregisterOutput n p)).node n).outputs ∧
      (g.edit (.unregisterOutput n p)).Detached p) ∧
    ∀ e : Edit, e.Known g → (e.perform.result g).1 = .ok () ∨
      ∃ p, e = .connect p p ∧ e.perform.result g = (.error (.selfWire (g.param p).name.text), g) := by
  have htidy := h.tidy
  refine ⟨fun p q => htidy.symmetric q p, fun p => ⟨htidy.sources_nodup p, htidy.recipients_nodup p⟩,
    htidy.irreflexive, htidy.canvas_nodup, fun n hn => edit_remove htidy hn,
    fun n p hp => edit_unregisterInput htidy hp, fun n p hp => edit_unregisterOutput htidy hp,
    fun e he => ?_⟩
  by_cases hself : ∃ p, e = .connect p p
  · obtain ⟨p, rfl⟩ := hself
    exact Or.inr ⟨p, rfl, Edit.result_connect_self g p⟩
  · obtain ⟨_, g', hresult, -⟩ := Edit.keeps htidy he fun p hp => hself ⟨p, hp⟩
    exact Or.inl (congrArg Prod.fst hresult)

/-- A sum that is fed by itself. -/
theorem Reachable.wiring_fedBack :
    let t : NodeType := {
      key := "sum", name := "Sum", kind := .generic, language := none, category := "Maths"
      inputs := [.item "A" "Number" false, .item "B" "Number" false]
      outputs := [.item "R" "Number" false] }
    let g := (((Graph.empty .counter).edit (.make t)).edit (.place ⟨0⟩ ⟨0, 0⟩)).edit (.connect ⟨2⟩ ⟨0⟩)
    (g.param ⟨0⟩).sources = [⟨2⟩] ∧ ⟨0⟩ ∈ (g.param ⟨2⟩).recipients ∧
      (g.edit (.remove ⟨0⟩)).Detached ⟨2⟩ := by
  intro t g
  have hmade : ((Graph.empty .counter).edit (.make t)).Reachable := .step (.start _) trivial
  have hplaced := hmade.step (e := .place ⟨0⟩ ⟨0, 0⟩) Nat.zero_lt_one
  have hwired : g.Reachable := hplaced.step (e := .connect ⟨2⟩ ⟨0⟩) ⟨by decide, by decide⟩
  have hsources : (g.param ⟨0⟩).sources = [⟨2⟩] := rfl
  obtain ⟨hsymmetric, -, -, -, hremove, -⟩ := hwired.wiring
  refine ⟨hsources, (hsymmetric ⟨0⟩ ⟨2⟩).mp (by rw [hsources]; simp), (hremove ⟨0⟩ ?_).2 ⟨2⟩ ?_⟩
  · have hcanvas : g.canvas = [⟨0⟩] := rfl
    rw [hcanvas]
    exact List.mem_cons_self
  · have hparams : (g.node ⟨0⟩).params = [⟨0⟩, ⟨1⟩, ⟨2⟩] := rfl
    rw [hparams]
    decide

end Graph

end Patchbay
