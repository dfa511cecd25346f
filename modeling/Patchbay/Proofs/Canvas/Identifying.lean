import Patchbay.Proofs.Canvas.Editing
import Patchbay.Proofs.IdSupply

/-!
# Ids of nodes

A canvas names its nodes itself, so their ids tell them apart.

* `Graph.Identified` — no other node has the id of one of some nodes
* `Graph.Labelled` — the invariant: ids were issued, and to one node each.  Placing a node issues a new
  id (`Labelled.place`); no other edit changes any (`Edit.leaves`).
* **`Graph.Reachable.identified`** — however a graph was edited, the nodes on its canvas are told apart,
  as long as the supply issues no id twice.
-/

namespace Patchbay

namespace Graph

/-- No other node has the id of one of some nodes. -/
def Identified (g : Graph) (nodes : List NodeRef) : Prop :=
  ∀ n ∈ nodes, ∀ m, (g.node m).id = (g.node n).id → m = n

/-- The ids of nodes were issued, each to one node; and every node on the canvas has one. -/
structure Labelled (g : Graph) : Prop where
  issued : ∀ n, (g.node n).id ≠ "" → ∃ i ≤ g.ids.issued, (g.node n).id = g.ids.name i
  distinct : ∀ n m, (g.node n).id ≠ "" → (g.node m).id = (g.node n).id → m = n
  named : ∀ n ∈ g.canvas, (g.node n).id ≠ ""

/-- Nodes may have left the canvas, but none came to it, and no id changed. -/
structure Leaves (g g' : Graph) : Prop where
  id : ∀ n, (g'.node n).id = (g.node n).id
  ids : g'.ids = g.ids
  canvas : g'.canvas ⊆ g.canvas

variable {g g' g'' : Graph} {n : NodeRef}

/-! ## Edits that give no id -/

namespace Leaves

theorem refl (g : Graph) : g.Leaves g := ⟨fun _ => rfl, rfl, List.Subset.refl _⟩

theorem trans (h : g.Leaves g') (h' : g'.Leaves g'') : g.Leaves g'' where
  id := fun n => (h'.id n).trans (h.id n)
  ids := h'.ids.trans h.ids
  canvas := List.Subset.trans h'.canvas h.canvas

theorem cut {stays : ParamRef → ParamRef → Prop} (h : Cut stays g g') : g.Leaves g' where
  id := fun n => congrArg Node.id (h.node n)
  ids := h.ids
  canvas := h.canvas ▸ List.Subset.refl _

theorem updateParam (g : Graph) (p : ParamRef) (f : Parameter → Parameter) : g.Leaves (g.updateParam p f) :=
  ⟨fun _ => rfl, rfl, List.Subset.refl _⟩

theorem updateNode (n : NodeRef) {f : Node → Node} (hf : (f (g.node n)).id = (g.node n).id) :
    g.Leaves (g.updateNode n f) where
  id := fun m => by
    unfold Graph.updateNode
    by_cases hm : m = n
    · subst hm
      by_cases hlt : m.index < g.nodes.length
      · rw [node_setNode_self g _ hlt, hf]
      · rw [setNode, List.set_eq_of_length_le (Nat.le_of_not_lt hlt)]
    · rw [node_setNode_of_ne g _ hm]
  ids := rfl
  canvas := List.Subset.refl _

theorem registerInput (g : Graph) (n : NodeRef) (p : ParamRef) : g.Leaves (g.registerInput n p) := by
  refine (updateParam g p fun v => { v with owner := .node n }).trans (updateNode n ?_)
  split <;> rfl

theorem registerOutput (g : Graph) (n : NodeRef) (p : ParamRef) : g.Leaves (g.registerOutput n p) := by
  refine (updateParam g p fun v => { v with owner := .node n }).trans (updateNode n ?_)
  split <;> rfl

/-- A new node has no id yet, like a node that was never made. -/
theorem make (g : Graph) (t : NodeType) : g.Leaves (g.make t).2 := by
  rw [make_eq]
  refine ⟨fun m => ?_, rfl, List.Subset.refl _⟩
  unfold node
  simp only [List.getD_eq_getElem?_getD]
  rcases Nat.lt_trichotomy m.index g.nodes.length with hlt | heq | hgt
  · rw [List.getElem?_append_left hlt]
  · rw [heq, List.getElem?_concat_length, List.getElem?_eq_none (Nat.le_refl _)]
    rfl
  · have hlength : (g.nodes ++ [Node.ofType t (handles g.params.length t.inputs.length)
        (handles (g.params.length + t.inputs.length) t.outputs.length)]).length ≤ m.index := by
      simpa using Nat.succ_le_of_lt hgt
    rw [List.getElem?_eq_none hlength, List.getElem?_eq_none (Nat.le_of_lt hgt)]

end Leaves

end Graph

namespace Edit

open Procedure

variable {g : Graph} {n : NodeRef} {p : ParamRef}

theorem leaves_of_succeeds {e : Edit} (h : e.perform.Succeeds g fun _ g' => g.Leaves g') :
    g.Leaves (g.edit e) := by
  obtain ⟨_, g', hresult, hleaves⟩ := h
  unfold Graph.edit
  rw [hresult]
  exact hleaves

theorem leaves_connect (g : Graph) (s t : ParamRef) : g.Leaves (g.edit (.connect s t)) := by
  change g.Leaves (Procedure.result (ofResult (g.connect s t) >>= fun g' => set g') g).2
  cases hconnect : g.connect s t with
  | error fault => exact .refl g
  | ok g' =>
      change g.Leaves g'
      obtain ⟨-, hcanvas, hids⟩ := Graph.frame_connect hconnect
      refine ⟨fun m => ?_, hids, hcanvas ▸ List.Subset.refl _⟩
      rw [Graph.node_connect hconnect m]

theorem leaves_remove (h : g.Tidy) (n : NodeRef) : (Work.remove n).Succeeds g fun _ g' => g.Leaves g' :=
  Work.remove_keeps h.toWired (.refl g) fun _ hcut =>
    (Graph.Leaves.cut hcut).trans ⟨fun _ => rfl, rfl, List.erase_subset⟩

theorem leaves_clear (h : g.Tidy) : Work.clear.Succeeds g fun _ g' => g.Leaves g' := by
  have hround : ∀ n ∈ g.canvas, ∀ g', (g'.Tidy ∧ g.Leaves g') →
      (Work.remove n).Succeeds g' fun _ g'' => g''.Tidy ∧ g.Leaves g'' := fun n _ g' ⟨htidy, hleaves⟩ =>
    ((keeps_remove htidy n).and (leaves_remove htidy n)).mono fun _ _ h' => ⟨h'.1, hleaves.trans h'.2⟩
  refine Work.succeeds_graph_bind ?_
  exact (succeeds_forM hround ⟨h, .refl g⟩).mono fun _ _ h' => h'.2

/-- Only placing a node gives it an id, and brings it to the canvas. -/
theorem leaves (h : g.Tidy) {e : Edit} (hplace : ∀ n spot, e ≠ place n spot) : g.Leaves (g.edit e) := by
  cases e with
  | make t => exact .make g t
  | create p => exact ⟨fun _ => rfl, rfl, List.Subset.refl _⟩
  | connect s t => exact leaves_connect g s t
  | disconnect s t => exact .cut (Graph.cut_disconnect h.toWired s t)
  | isolate p =>
      refine leaves_of_succeeds ((Work.succeeds_isolate h.toWired p).mono fun _ g' hg' => ?_)
      subst hg'
      exact .cut (Graph.cut_isolate h.toWired p)
  | registerInput n p => exact .registerInput g n p
  | registerOutput n p => exact .registerOutput g n p
  | unregisterInput n p =>
      exact leaves_of_succeeds (Work.unregisterInput_keeps h.toWired (.refl g) fun _ hcut =>
        (Graph.Leaves.cut hcut).trans (.updateNode n rfl))
  | unregisterOutput n p =>
      exact leaves_of_succeeds (Work.unregisterOutput_keeps h.toWired (.refl g) fun _ hcut =>
        (Graph.Leaves.cut hcut).trans (.updateNode n rfl))
  | place n spot => exact absurd rfl (hplace n spot)
  | remove n => exact leaves_of_succeeds (leaves_remove h n)
  | clear => exact leaves_of_succeeds (leaves_clear h)

end Edit

/-! ## The invariant -/

namespace Graph

variable {g g' : Graph} {n : NodeRef} {nodes : List NodeRef}

/-! ### Placing a node -/

theorem ids_place (g : Graph) (n : NodeRef) (spot : Position Float) : (g.place n spot).ids = g.ids.next.2 := by
  unfold place
  dsimp only
  split <;> rfl

theorem node_placed (g : Graph) (n m : NodeRef) (spot : Position Float) :
    (g.place n spot).node m =
      (g.updateNode n fun v => { v with id := g.ids.next.1, pivot := .spot spot.x spot.y }).node m := by
  unfold place
  dsimp only
  split <;> rfl

theorem id_place_self (hn : n.index < g.nodes.length) (spot : Position Float) :
    ((g.place n spot).node n).id = g.ids.next.1 := by
  rw [node_placed, updateNode, node_setNode_self g _ hn]

theorem id_place_of_ne {m : NodeRef} (hm : m ≠ n) (spot : Position Float) :
    ((g.place n spot).node m).id = (g.node m).id := by
  rw [node_placed, updateNode, node_setNode_of_ne g _ hm]

theorem mem_canvas_of_place {m : NodeRef} {spot : Position Float} (h : m ∈ (g.place n spot).canvas)
    (hm : m ≠ n) : m ∈ g.canvas := by
  unfold place at h
  dsimp only at h
  split at h
  · exact h
  · rcases List.mem_append.mp h with h | h
    · exact h
    · exact absurd (List.mem_singleton.mp h) hm

namespace Labelled

theorem empty (ids : IdSupply) : (Graph.empty ids).Labelled where
  issued := fun _ h => absurd rfl h
  distinct := fun _ _ h => absurd rfl h
  named := fun _ h => absurd h List.not_mem_nil

theorem leaves (h : g.Labelled) (hleaves : g.Leaves g') : g'.Labelled where
  issued := fun n => by
    rw [hleaves.id, hleaves.ids]
    exact h.issued n
  distinct := fun n m => by
    rw [hleaves.id, hleaves.id]
    exact h.distinct n m
  named := fun n hn => by
    rw [hleaves.id]
    exact h.named n (hleaves.canvas hn)

/-- The next id is one that no node has. -/
theorem id_ne_next (h : g.Labelled) (hids : g.ids.Distinct) (n : NodeRef) : (g.node n).id ≠ g.ids.next.1 := by
  intro heq
  obtain ⟨i, hi, hname⟩ := h.issued n (heq ▸ hids.nonempty _)
  have hsame : i = g.ids.issued + 1 := hids.injective (hname.symm.trans heq)
  omega

theorem place (h : g.Labelled) (hids : g.ids.Distinct) (hn : n.index < g.nodes.length) (spot : Position Float) :
    (g.place n spot).Labelled := by
  have hself := id_place_self hn spot
  constructor
  case issued =>
    intro m hm
    rw [ids_place]
    by_cases hmn : m = n
    · exact ⟨_, Nat.le_refl _, hmn ▸ hself⟩
    · rw [id_place_of_ne hmn] at hm ⊢
      obtain ⟨i, hi, hname⟩ := h.issued m hm
      exact ⟨i, Nat.le_succ_of_le hi, hname⟩
  case distinct =>
    intro m k hm hk
    by_cases hmn : m = n
    · subst hmn
      by_contra hkm
      rw [id_place_of_ne hkm, hself] at hk
      exact h.id_ne_next hids k hk
    · rw [id_place_of_ne hmn] at hm hk
      by_cases hkn : k = n
      · subst hkn
        rw [hself] at hk
        exact absurd hk.symm (h.id_ne_next hids m)
      · rw [id_place_of_ne hkn] at hk
        exact h.distinct m k hm hk
  case named =>
    intro m hm
    by_cases hmn : m = n
    · subst hmn
      rw [hself]
      exact hids.nonempty _
    · rw [id_place_of_ne hmn]
      exact h.named m (mem_canvas_of_place hm hmn)

end Labelled

/-- Edits go on with the same supply. -/
theorem name_edit (h : g.Tidy) (e : Edit) : (g.edit e).ids.name = g.ids.name := by
  by_cases hplace : ∃ n spot, e = .place n spot
  · obtain ⟨n, spot, rfl⟩ := hplace
    have hnext := congrArg IdSupply.name (ids_place g n spot)
    exact hnext
  · rw [(Edit.leaves h fun n spot heq => hplace ⟨n, spot, heq⟩).ids]

theorem Reachable.labelled (h : g.Reachable) (hids : g.ids.Distinct) : g.Labelled := by
  induction h with
  | start ids => exact .empty ids
  | @step g e h he ih =>
      have hname := name_edit h.tidy e
      have hbefore : g.ids.Distinct := ⟨hname ▸ hids.injective, hname ▸ hids.nonempty⟩
      have hlabelled := ih hbefore
      by_cases hplace : ∃ n spot, e = .place n spot
      · obtain ⟨n, spot, rfl⟩ := hplace
        exact hlabelled.place hbefore he spot
      · exact hlabelled.leaves (Edit.leaves h.tidy fun n spot heq => hplace ⟨n, spot, heq⟩)

/-- The nodes on a canvas are told apart by the ids that it gave them. -/
theorem Reachable.identified (h : g.Reachable) (hids : g.ids.Distinct) (hnodes : nodes ⊆ g.canvas) :
    g.Identified nodes := by
  have hlabelled := h.labelled hids
  exact fun n hn m hm => hlabelled.distinct n m (hlabelled.named n (hnodes hn)) hm

end Graph

end Patchbay
