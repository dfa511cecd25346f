import Patchbay.Proofs.Canvas.Identifying
import Patchbay.Proofs.Capture

/-!
# Captured wires

Capture reads wires at the outputs of the nodes it is given; what it finds are the wires between them.

* `Graph.wires`, `Graph.wiresAmong`, `Graph.incoming` — all wires, those between some nodes, and those
  that the inputs of these nodes know of
* `Graph.Registered` — the wires run between registered parameters
* `Graph.distinct_eq_eraseDups` — nodes that are told apart by their ids are captured once each, in the
  order in which they come first
* `Graph.connectionsAmong_perm`, `Graph.incoming_perm` — the two ways to read the wires.  Both lists of
  wires are without repetitions, so that they are compared by their members.
* **`Graph.capture_wires`** — the components and the connections of a captured document, and those of
  any part of it.  It is about tidy graphs (`Graph.Reachable.tidy`) and nodes that their ids tell apart, as
  those on a canvas are (`Graph.Reachable.identified`).
-/

namespace Patchbay

/-- The part of a document at some ids: the components that have them, and the connections between
these. -/
def Document.restrict (d : Document) (ids : List String) : Document where
  components := d.components.filter fun c => ids.contains c.id
  connections := d.connections.filter fun c => ids.contains c.source.id && ids.contains c.target.id

namespace Graph

/-! ## Wires -/

/-- All wires, each as its source and its target. -/
def wires (g : Graph) : List (ParamRef × ParamRef) :=
  (handles 0 g.params.length).flatMap fun s => (g.param s).recipients.map (Prod.mk s)

/-- Whether a parameter belongs to one of some nodes. -/
def belongs (g : Graph) (nodes : List NodeRef) (p : ParamRef) : Bool :=
  nodes.any fun n => (g.param p).owner = .node n

/-- The wires with both ends at some nodes. -/
def wiresAmong (g : Graph) (nodes : List NodeRef) : List (ParamRef × ParamRef) :=
  g.wires.filter fun w => g.belongs nodes w.1 && g.belongs nodes w.2

/-- The wires between some nodes as their outputs know them. -/
def outgoing (g : Graph) (nodes : List NodeRef) : List (ParamRef × ParamRef) :=
  nodes.flatMap fun n => (g.node n).outputs.flatMap fun s =>
    ((g.param s).recipients.filter (g.belongs nodes)).map fun t => (s, t)

/-- The wires between some nodes as their inputs know them. -/
def incoming (g : Graph) (nodes : List NodeRef) : List (ParamRef × ParamRef) :=
  nodes.flatMap fun n => (g.node n).inputs.flatMap fun t =>
    ((g.param t).sources.filter (g.belongs nodes)).map fun s => (s, t)

/-- A wire as a connection: the ids of the nodes and the names of the parameters at its ends. -/
def connectionOfWire (g : Graph) (w : ParamRef × ParamRef) : Connection :=
  g.connectionOf (g.ownerOf w.1) w.1 w.2

/-- Parameters belong to the node that lists them, and every wire leads from an output to an input. -/
structure Registered (g : Graph) : Prop where
  owned : ∀ n, ∀ p ∈ (g.node n).params, (g.param p).owner = .node n
  source : ∀ s t, t ∈ (g.param s).recipients → ∃ n, s ∈ (g.node n).outputs
  target : ∀ s t, t ∈ (g.param s).recipients → ∃ n, t ∈ (g.node n).inputs

variable {g : Graph} {nodes part : List NodeRef} {n : NodeRef} {p s t : ParamRef}

theorem mem_wires : (s, t) ∈ g.wires ↔ t ∈ (g.param s).recipients := by
  simp only [wires, List.mem_flatMap, List.mem_map, Prod.mk.injEq, mem_handles]
  constructor
  · rintro ⟨a, -, b, hb, rfl, rfl⟩
    exact hb
  · exact fun h => ⟨s, ⟨Nat.zero_le _, (Nat.zero_add _).symm ▸ index_lt_of_mem_recipients h⟩, t, h, rfl, rfl⟩

theorem mem_wiresAmong : (s, t) ∈ g.wiresAmong nodes ↔
    t ∈ (g.param s).recipients ∧ g.belongs nodes s = true ∧ g.belongs nodes t = true := by
  unfold wiresAmong
  rw [List.mem_filter, mem_wires, Bool.and_eq_true]

/-- No wire is listed twice. -/
theorem Wired.nodup_wires (h : g.Wired) : g.wires.Nodup :=
  nodup_flatMap_map (fun _ _ _ _ => Prod.mk.inj) (nodup_handles _ _) fun s _ => h.recipients_nodup s

theorem Wired.nodup_wiresAmong (h : g.Wired) : (g.wiresAmong nodes).Nodup := h.nodup_wires.filter _

theorem belongs_eq_true : g.belongs nodes p = true ↔ ∃ n ∈ nodes, (g.param p).owner = .node n := by
  simp [belongs]

/-- Repetitions do not matter. -/
theorem wiresAmong_eraseDups : g.wiresAmong nodes.eraseDups = g.wiresAmong nodes := by
  have hbelongs : ∀ p, g.belongs nodes.eraseDups p = g.belongs nodes p := fun p => by
    rw [Bool.eq_iff_iff, belongs_eq_true, belongs_eq_true]
    simp only [List.mem_eraseDups]
  unfold wiresAmong
  simp only [hbelongs]

/-- Only nodes and parameters that were made can be registered and wired. -/
theorem Registered.of_made
    (howned : ∀ i < g.nodes.length, ∀ p ∈ (g.node ⟨i⟩).params, (g.param p).owner = .node ⟨i⟩)
    (hwires : ∀ i < g.params.length, ∀ t ∈ (g.param ⟨i⟩).recipients,
      (∃ j < g.nodes.length, ⟨i⟩ ∈ (g.node ⟨j⟩).outputs) ∧ ∃ j < g.nodes.length, t ∈ (g.node ⟨j⟩).inputs) :
    g.Registered where
  owned := fun ⟨i⟩ p hp => howned i (index_lt_of_mem_params hp) p hp
  source := fun ⟨i⟩ t ht =>
    let ⟨⟨j, _, hj⟩, _⟩ := hwires i (index_lt_of_mem_recipients ht) t ht
    ⟨⟨j⟩, hj⟩
  target := fun ⟨i⟩ t ht =>
    let ⟨_, j, _, hj⟩ := hwires i (index_lt_of_mem_recipients ht) t ht
    ⟨⟨j⟩, hj⟩

/-! ## The wires of registered parameters -/

namespace Registered

/-- A parameter that a node lists belongs to one of some nodes if its node is one of them. -/
theorem belongs_iff (h : g.Registered) (hp : p ∈ (g.node n).params) : g.belongs nodes p = true ↔ n ∈ nodes := by
  rw [belongs_eq_true, h.owned n p hp]
  constructor
  · rintro ⟨m, hm, heq⟩
    cases heq
    exact hm
  · exact fun hn => ⟨n, hn, rfl⟩

/-- No parameter is listed by two nodes. -/
theorem eq_of_mem (h : g.Registered) {m : NodeRef} (hn : p ∈ (g.node n).params) (hm : p ∈ (g.node m).params) :
    n = m := by
  have howner := (h.owned n p hn).symm.trans (h.owned m p hm)
  cases howner
  rfl

theorem plainWires (h : g.Registered) (n : NodeRef) : g.hasPlainWires n = true := by
  refine List.all_eq_true.mpr fun s _ => List.all_eq_true.mpr fun t ht => ?_
  obtain ⟨m, hm⟩ := h.target s t ht
  rw [h.owned m t (List.mem_append_left _ hm)]
  rfl

theorem mem_outgoing (h : g.Registered) : (s, t) ∈ g.outgoing nodes ↔
    t ∈ (g.param s).recipients ∧ g.belongs nodes s = true ∧ g.belongs nodes t = true := by
  simp only [outgoing, List.mem_flatMap, List.mem_map, List.mem_filter, Prod.mk.injEq]
  constructor
  · rintro ⟨n, hn, a, ha, b, ⟨hb, hbelongs⟩, rfl, rfl⟩
    exact ⟨hb, (h.belongs_iff (List.mem_append_right _ ha)).mpr hn, hbelongs⟩
  · rintro ⟨ht, hs, hbelongs⟩
    obtain ⟨n, hn⟩ := h.source s t ht
    exact ⟨n, (h.belongs_iff (List.mem_append_right _ hn)).mp hs, s, hn, t, ⟨ht, hbelongs⟩, rfl, rfl⟩

theorem mem_incoming (h : g.Registered) (hwired : g.Wired) : (s, t) ∈ g.incoming nodes ↔
    t ∈ (g.param s).recipients ∧ g.belongs nodes s = true ∧ g.belongs nodes t = true := by
  simp only [incoming, List.mem_flatMap, List.mem_map, List.mem_filter, Prod.mk.injEq]
  constructor
  · rintro ⟨n, hn, b, hb, a, ⟨ha, hbelongs⟩, rfl, rfl⟩
    exact ⟨(hwired.symmetric _ _).mp ha, hbelongs, (h.belongs_iff (List.mem_append_left _ hb)).mpr hn⟩
  · rintro ⟨ht, hs, hbelongs⟩
    obtain ⟨n, hn⟩ := h.target s t ht
    exact ⟨n, (h.belongs_iff (List.mem_append_left _ hn)).mp hbelongs, t, hn, s,
      ⟨(hwired.symmetric _ _).mpr ht, hs⟩, rfl, rfl⟩

theorem nodup_outputs (h : g.Registered) (htidy : g.Tidy) (hnodes : nodes.Nodup) :
    (nodes.flatMap fun n => (g.node n).outputs).Nodup := by
  refine List.nodup_flatMap.mpr ⟨fun n _ => htidy.outputs_nodup n, hnodes.imp fun hne p hp hp' => hne ?_⟩
  exact h.eq_of_mem (List.mem_append_right _ hp) (List.mem_append_right _ hp')

theorem nodup_inputs (h : g.Registered) (htidy : g.Tidy) (hnodes : nodes.Nodup) :
    (nodes.flatMap fun n => (g.node n).inputs).Nodup := by
  refine List.nodup_flatMap.mpr ⟨fun n _ => htidy.inputs_nodup n, hnodes.imp fun hne p hp hp' => hne ?_⟩
  exact h.eq_of_mem (List.mem_append_left _ hp) (List.mem_append_left _ hp')

/-- The outputs of some nodes know of each wire between these nodes, once. -/
theorem outgoing_perm (h : g.Registered) (htidy : g.Tidy) (hnodes : nodes.Nodup) :
    (g.outgoing nodes).Perm (g.wiresAmong nodes) := by
  have houtgoing : (g.outgoing nodes).Nodup := by
    unfold outgoing
    rw [← List.flatMap_assoc]
    exact nodup_flatMap_map (fun _ _ _ _ => Prod.mk.inj) (h.nodup_outputs htidy hnodes) fun s _ =>
      (htidy.recipients_nodup s).filter _
  refine (List.perm_ext_iff_of_nodup houtgoing (htidy.nodup_wiresAmong)).mpr fun ⟨s, t⟩ => ?_
  rw [h.mem_outgoing, mem_wiresAmong]

/-- The inputs of some nodes know of each wire between these nodes, once. -/
theorem incoming_perm (h : g.Registered) (htidy : g.Tidy) (hnodes : nodes.Nodup) :
    (g.incoming nodes).Perm (g.wiresAmong nodes) := by
  have hincoming : (g.incoming nodes).Nodup := by
    unfold incoming
    rw [← List.flatMap_assoc]
    refine nodup_flatMap_map (fun _ _ _ _ heq => ?_) (h.nodup_inputs htidy hnodes) fun t _ =>
      (htidy.sources_nodup t).filter _
    exact (Prod.mk.inj heq).symm
  refine (List.perm_ext_iff_of_nodup hincoming (htidy.nodup_wiresAmong)).mpr fun ⟨s, t⟩ => ?_
  rw [h.mem_incoming htidy.toWired, mem_wiresAmong]

end Registered

/-! ## Nodes that are told apart -/

namespace Identified

theorem subset (h : g.Identified nodes) (hpart : part ⊆ nodes) : g.Identified part :=
  fun n hn => h n (hpart hn)

theorem mem_ids (h : g.Identified nodes) : (g.node n).id ∈ nodes.map (fun m => (g.node m).id) ↔ n ∈ nodes := by
  rw [List.mem_map]
  constructor
  · rintro ⟨m, hm, hid⟩
    exact h m hm n hid.symm ▸ hm
  · exact fun hn => ⟨n, hn, rfl⟩

/-- The nodes that are captured are the given ones, each where it comes first. -/
theorem distinct_eq (h : g.Identified nodes) (seen : List String) :
    g.distinct seen nodes = (nodes.filter fun n => !seen.contains (g.node n).id).eraseDups := by
  induction nodes generalizing seen with
  | nil => rfl
  | cons n rest ih =>
      have hrest : g.Identified rest := h.subset (List.subset_cons_self _ _)
      cases hseen : seen.contains (g.node n).id with
      | true => rw [distinct, hseen, if_pos rfl, ih hrest, List.filter_cons, hseen]; rfl
      | false =>
          rw [distinct, hseen, if_neg Bool.false_ne_true, ih hrest, List.filter_cons, hseen, Bool.not_false,
            if_pos rfl, List.eraseDups_cons, List.filter_filter]
          refine congrArg (fun l => n :: List.eraseDups l) (List.filter_congr fun m _ => ?_)
          have hsame : ((g.node m).id == (g.node n).id) = (m == n) := by
            rw [Bool.eq_iff_iff, beq_iff_eq, beq_iff_eq]
            exact ⟨h n List.mem_cons_self m, fun heq => heq ▸ rfl⟩
          rw [List.contains_cons, hsame, Bool.not_or]

theorem distinct_eq_eraseDups (h : g.Identified nodes) : g.distinct [] nodes = nodes.eraseDups := by
  rw [h.distinct_eq]
  simp

/-- The connections among some nodes are the wires that their outputs know of. -/
theorem connectionsAmong_eq (h : g.Identified nodes) (hregistered : g.Registered) :
    g.connectionsAmong nodes = (g.outgoing nodes).map g.connectionOfWire := by
  unfold connectionsAmong outgoing
  rw [List.map_flatMap]
  refine List.flatMap_congr fun n hn => ?_
  unfold connectionsOf
  rw [List.map_flatMap]
  refine List.flatMap_congr fun s hs => ?_
  rw [List.map_map]
  refine Eq.trans ?_ (congrFun List.filterMap_eq_map _)
  rw [List.filterMap_filter]
  refine List.filterMap_congr fun t ht => ?_
  obtain ⟨m, hm⟩ := hregistered.target s t ht
  have hsource := hregistered.owned n s (List.mem_append_right _ hs)
  have htarget := hregistered.owned m t (List.mem_append_left _ hm)
  have hbelongs : (nodes.map fun n => (g.node n).id).contains (g.node m).id = g.belongs nodes t := by
    rw [Bool.eq_iff_iff, List.contains_iff_mem, h.mem_ids, hregistered.belongs_iff (List.mem_append_left _ hm)]
  simp only [connection?, htarget, Owner.node?, Option.bind_eq_bind, Option.bind_some, hbelongs,
    Function.comp_apply, connectionOfWire, connectionOf, ownerOf_eq hsource, ownerOf_eq htarget]

/-- The connections at the ids of a part of the nodes are the wires among this part. -/
theorem filter_wiresAmong (h : g.Identified part) (hregistered : g.Registered) (hpart : part ⊆ nodes) :
    (((g.wiresAmong nodes).map g.connectionOfWire).filter fun c =>
      (part.map fun n => (g.node n).id).contains c.source.id &&
        (part.map fun n => (g.node n).id).contains c.target.id) =
      (g.wiresAmong part).map g.connectionOfWire := by
  unfold wiresAmong
  rw [List.filter_map, List.filter_filter]
  refine congrArg _ (List.filter_congr fun ⟨s, t⟩ hw => ?_)
  obtain ⟨n, hn⟩ := hregistered.source s t (mem_wires.mp hw)
  obtain ⟨m, hm⟩ := hregistered.target s t (mem_wires.mp hw)
  have hs := List.mem_append_right (g.node n).inputs hn
  have ht := List.mem_append_left (g.node m).outputs hm
  have hsource : (g.connectionOfWire (s, t)).source.id = (g.node n).id :=
    congrArg (fun n => (g.node n).id) (ownerOf_eq (hregistered.owned n s hs))
  have htarget : (g.connectionOfWire (s, t)).target.id = (g.node m).id :=
    congrArg (fun n => (g.node n).id) (ownerOf_eq (hregistered.owned m t ht))
  rw [Bool.eq_iff_iff]
  simp only [Function.comp_apply, Bool.and_eq_true, List.contains_iff_mem, hsource, htarget, h.mem_ids,
    hregistered.belongs_iff hs, hregistered.belongs_iff ht]
  exact ⟨And.left, fun hmem => ⟨hmem, hpart hmem.1, hpart hmem.2⟩⟩

/-- The components of captured nodes. -/
theorem components_eq (h : g.Identified nodes) {o : CaptureOptions} {t : PropertyTable} {d : Document}
    (hd : (g.capture o t nodes).outcome.value = .ok d) :
    d.components.map Except.ok = nodes.eraseDups.map fun n => (g.captureNode o t n).outcome.value := by
  obtain ⟨-, -, hcomponents, -⟩ := capture_eq_ok_iff.mp hd
  rw [hcomponents, h.distinct_eq_eraseDups]

/-- The connections of captured nodes. -/
theorem connections_perm (h : g.Identified nodes) (htidy : g.Tidy) (hregistered : g.Registered)
    {o : CaptureOptions} {t : PropertyTable} {d : Document} (hd : (g.capture o t nodes).outcome.value = .ok d) :
    d.connections.Perm ((g.wiresAmong nodes).map g.connectionOfWire) := by
  obtain ⟨-, -, -, hconnections⟩ := capture_eq_ok_iff.mp hd
  rw [hconnections, h.distinct_eq_eraseDups,
    (h.subset fun n hn => List.mem_eraseDups.mp hn).connectionsAmong_eq hregistered, ← wiresAmong_eraseDups]
  exact (hregistered.outgoing_perm htidy (nodup_eraseDups nodes)).map _

/-- Nodes can be captured together if each of them can. -/
theorem exists_capture (h : g.Identified nodes) {o : CaptureOptions} {t : PropertyTable} :
    (∃ d, (g.capture o t nodes).outcome.value = .ok d) ↔ ∀ n ∈ nodes, g.Capturable o t n := by
  rw [exists_capture_iff, h.distinct_eq_eraseDups]
  simp only [List.mem_eraseDups]

/-- The components of captured nodes, if it is known what each of these gives. -/
theorem components_eq_map (h : g.Identified nodes) {o : CaptureOptions} {t : PropertyTable} {d : Document}
    (hd : (g.capture o t nodes).outcome.value = .ok d) {component : NodeRef → Component}
    (hcomponent : ∀ n ∈ nodes, (g.captureNode o t n).outcome.value = .ok (component n)) :
    d.components = nodes.eraseDups.map component := by
  have hinjective : Function.Injective (Except.ok (ε := Fault) (α := Component)) := fun _ _ => Except.ok.inj
  refine hinjective.list_map ((h.components_eq hd).trans ?_)
  rw [List.map_map]
  exact List.map_congr_left fun n hn => hcomponent n (List.mem_eraseDups.mp hn)

/-- What is captured of a part of the nodes is the part of the document at their ids. -/
theorem capture_part (h : g.Identified nodes) (htidy : g.Tidy) (hregistered : g.Registered)
    {o : CaptureOptions} {t : PropertyTable} {d : Document} (hd : (g.capture o t nodes).outcome.value = .ok d)
    (hpart : part ⊆ nodes) : ∃ d', (g.capture o t part).outcome.value = .ok d' ∧
      d'.components.Perm (d.restrict (part.map fun n => (g.node n).id)).components ∧
      d'.connections.Perm (d.restrict (part.map fun n => (g.node n).id)).connections := by
  have hpartial := h.subset hpart
  have hcapturable := h.exists_capture.mp ⟨d, hd⟩
  obtain ⟨d', hd'⟩ := hpartial.exists_capture.mpr fun n hn => hcapturable n (hpart hn)
  refine ⟨d', hd', ?_, ?_⟩
  · choose! component hcomponent using fun n hn => (hcapturable n hn).component
    have hinside : ∀ n ∈ nodes,
        ((part.map fun m => (g.node m).id).contains (component n).id = true ↔ n ∈ part) := by
      intro n hn
      rw [List.contains_iff_mem, captureNode_id (hcomponent n hn), hpartial.mem_ids]
    unfold Document.restrict
    rw [hpartial.components_eq_map hd' fun n hn => hcomponent n (hpart hn), h.components_eq_map hd hcomponent,
      List.filter_map]
    refine .map _ ((List.perm_ext_iff_of_nodup (nodup_eraseDups _)
      ((nodup_eraseDups _).filter _)).mpr fun n => ?_)
    rw [List.mem_filter, List.mem_eraseDups, List.mem_eraseDups]
    constructor
    · exact fun hn => ⟨hpart hn, (hinside n (hpart hn)).mpr hn⟩
    · exact fun hn => (hinside n hn.1).mp hn.2
  · have hfiltered := (h.connections_perm htidy hregistered hd).filter fun c =>
      (part.map fun n => (g.node n).id).contains c.source.id &&
        (part.map fun n => (g.node n).id).contains c.target.id
    rw [hpartial.filter_wiresAmong hregistered hpart] at hfiltered
    exact (hpartial.connections_perm htidy hregistered hd').trans hfiltered.symm

end Identified

/-- Nodes whose ids tell them apart, of a graph whose wires lead from outputs to inputs, are captured if
each of them can be.  The components are those of the nodes, once each and in the order in which the nodes
come first; the connections are the wires between the nodes, each once, from whichever end these are read;
and what is captured of some of the nodes is the part of the document that is about these. -/
theorem capture_wires (htidy : g.Tidy) (hregistered : g.Registered) (hids : g.Identified nodes)
    (o : CaptureOptions) (t : PropertyTable) :
    ((∃ d, (g.capture o t nodes).outcome.value = .ok d) ↔
      ∀ n ∈ nodes, ∃ d, (g.capture o t [n]).outcome.value = .ok d) ∧
    ∀ d, (g.capture o t nodes).outcome.value = .ok d →
      d.components.map Component.id = nodes.eraseDups.map (fun n => (g.node n).id) ∧
      d.components.map Except.ok = nodes.eraseDups.map (fun n => (g.captureNode o t n).outcome.value) ∧
      (g.wiresAmong nodes).Nodup ∧
      d.connections.Perm ((g.wiresAmong nodes).map g.connectionOfWire) ∧
      d.connections.Perm ((g.incoming nodes.eraseDups).map g.connectionOfWire) ∧
      ∀ part ⊆ nodes, ∃ d', (g.capture o t part).outcome.value = .ok d' ∧
        d'.components.Perm (d.restrict (part.map fun n => (g.node n).id)).components ∧
        d'.connections.Perm (d.restrict (part.map fun n => (g.node n).id)).connections := by
  constructor
  · have halone : ∀ n ∈ nodes,
        ((∃ d, (g.capture o t [n]).outcome.value = .ok d) ↔ g.Capturable o t n) := by
      intro n hn
      rw [(hids.subset fun m hm => List.mem_singleton.mp hm ▸ hn).exists_capture]
      exact List.forall_mem_singleton
    rw [hids.exists_capture]
    exact forall₂_congr fun n hn => (halone n hn).symm
  · intro d hd
    have hconnections := hids.connections_perm htidy hregistered hd
    refine ⟨?_, hids.components_eq hd, htidy.nodup_wiresAmong, hconnections, ?_, fun part hpart =>
      hids.capture_part htidy hregistered hd hpart⟩
    · choose! component hcomponent using fun n hn => (hids.exists_capture.mp ⟨d, hd⟩ n hn).component
      rw [hids.components_eq_map hd hcomponent, List.map_map]
      exact List.map_congr_left fun n hn => captureNode_id (hcomponent n (List.mem_eraseDups.mp hn))
    · rw [← wiresAmong_eraseDups] at hconnections
      exact hconnections.trans ((hregistered.incoming_perm htidy (nodup_eraseDups nodes)).symm.map _)

/-- The sum of two numbers. -/
def sumType : NodeType := {
  key := "sum", name := "Sum", kind := .generic, language := none, category := "Maths"
  inputs := [.item "A" "Number" false, .item "B" "Number" false]
  outputs := [.item "R" "Number" false] }

/-- Two sums, the first of which feeds the second, which feeds itself. -/
def fedSums : Graph :=
  [.make sumType, .place ⟨0⟩ ⟨0, 0⟩, .make sumType, .place ⟨1⟩ ⟨0, 0⟩, .connect ⟨2⟩ ⟨3⟩, .connect ⟨5⟩ ⟨4⟩].foldl edit
    (.empty .counter)

/-- The second sum, named twice, is captured once and first. -/
theorem capture_wires_fedSums : ∃ d, (fedSums.capture .full .standard [⟨1⟩, ⟨0⟩, ⟨1⟩]).outcome.value = .ok d ∧
    d.components.map Component.id = [IdSupply.guidOf 2, IdSupply.guidOf 1] ∧
    d.connections.Perm [⟨⟨IdSupply.guidOf 1, .str "R"⟩, ⟨IdSupply.guidOf 2, .str "A"⟩⟩,
      ⟨⟨IdSupply.guidOf 2, .str "R"⟩, ⟨IdSupply.guidOf 2, .str "B"⟩⟩] := by
  have hmade : (((Graph.empty .counter).edit (.make sumType)).edit (.place ⟨0⟩ ⟨0, 0⟩)).Reachable :=
    .step (.step (.start _) trivial) (by decide : 0 < 1)
  have hplaced := (hmade.step (e := .make sumType) trivial).step (e := .place ⟨1⟩ ⟨0, 0⟩) (by decide : 1 < 2)
  have hreachable : fedSums.Reachable :=
    (hplaced.step (e := .connect ⟨2⟩ ⟨3⟩) (by decide : 2 < 6 ∧ 3 < 6)).step (e := .connect ⟨5⟩ ⟨4⟩)
      (by decide : 5 < 6 ∧ 4 < 6)
  have hregistered : fedSums.Registered := .of_made (by decide +kernel) (by decide +kernel)
  have hids : fedSums.Identified [⟨1⟩, ⟨0⟩, ⟨1⟩] :=
    hreachable.identified ⟨IdSupply.counter_distinct.injective, IdSupply.counter_distinct.nonempty⟩ (by decide)
  have halone : ∀ n ∈ [(⟨1⟩ : NodeRef), ⟨0⟩, ⟨1⟩],
      (fedSums.capture .full .standard [n]).outcome.value.isOk = true := by decide +kernel
  obtain ⟨hcapture, hdocument⟩ := capture_wires hreachable.tidy hregistered hids .full .standard
  obtain ⟨d, hd⟩ := hcapture.mpr fun n hn => exists_of_isOk (halone n hn)
  obtain ⟨hcomponents, -, -, hconnections, -⟩ := hdocument d hd
  exact ⟨d, hd, hcomponents, hconnections⟩

end Graph

end Patchbay
