import Patchbay.Proofs.Rebuild.Wires
import Mathlib.Data.Set.Card

/-!
# How many wires a rebuilt document has

Every connection that means an output and an input counts as made.  The wire between the two is made
for the first of them only, since a host keeps each wire once, **so that the count is the number of wires
exactly if no two connections mean the same**.

* `Graph.wiresBetween` — the wires between some nodes
* `Document.meant` — the ends that the connections of a document mean, as often as they are meant
* **`Work.rebuild_counts`** — the result.  Both numbers are read off the list of meant ends: the
  connections that count are its length (`Rebuilt.Follows.made_eq`), the wires its members
  (`Rebuilt.Follows.wiresBetween_eq`).
-/

namespace Patchbay

/-- The wires between some nodes: an output of one of them is a source of an input of one of them. -/
def Graph.wiresBetween (g : Graph) (nodes : List NodeRef) : Set (ParamRef × ParamRef) :=
  {w | (∃ n ∈ nodes, w.1 ∈ (g.node n).outputs) ∧ (∃ n ∈ nodes, w.2 ∈ (g.node n).inputs) ∧
    w.1 ∈ (g.param w.2).sources}

/-- The ends that the connections of a document mean on placed nodes, as often as they are meant. -/
def Document.meant (d : Document) (g : Graph) (nodes : List (String × NodeRef)) : List (ParamRef × ParamRef) :=
  d.connections.filterMap fun c => c.ends? g nodes

namespace Rebuilt.Follows

variable {catalog : Catalog} {d : Document} {before after : Graph} {r : Rebuilt}

/-- The connections that were made are those that mean something. -/
theorem made_eq (h : r.Follows catalog d before after) : r.made = (d.meant after r.nodes).length := by
  rw [h.made, Document.meant, List.length_filterMap_eq_countP]

/-- The wires between placed nodes are those that are meant. -/
theorem wiresBetween_eq (h : r.Follows catalog d before after) :
    after.wiresBetween (r.nodes.map Prod.snd) = ((d.meant after r.nodes).toFinset : Set (ParamRef × ParamRef)) := by
  ext ⟨s, t⟩
  rw [List.coe_toFinset, Set.mem_ofPred_eq, Document.meant, List.mem_filterMap]
  constructor
  · rintro ⟨-, ⟨n, hn, ht⟩, hs⟩
    exact (h.sources n hn t (List.mem_append_left _ ht) s).mp hs
  · rintro ⟨c, hc, hends⟩
    obtain ⟨hs, n, hn, ht⟩ := Connection.mem_of_ends? hends
    exact ⟨hs, ⟨n, hn, ht⟩, (h.sources n hn t (List.mem_append_left _ ht) s).mpr ⟨c, hc, hends⟩⟩

theorem ncard_wiresBetween (h : r.Follows catalog d before after) :
    (after.wiresBetween (r.nodes.map Prod.snd)).ncard = (d.meant after r.nodes).toFinset.card := by
  rw [h.wiresBetween_eq, Set.ncard_coe_finset]

/-- The count is right if no two connections mean the same. -/
theorem made_eq_ncard_iff (h : r.Follows catalog d before after) :
    r.made = (after.wiresBetween (r.nodes.map Prod.snd)).ncard ↔ (d.meant after r.nodes).Nodup := by
  rw [h.made_eq, h.ncard_wiresBetween, eq_comm]
  exact Multiset.toFinset_card_eq_card_iff_nodup

end Rebuilt.Follows

namespace Work

open Procedure

/-- **How many connections of a rebuilt document count as made, and how many wires there are**: the former
are the connections that mean something, the latter what they mean.  There are as many wires as connections
that were made exactly if no two of these mean the same. -/
theorem rebuild_counts (catalog : Catalog) {d : Document} {g : Graph} (hlive : g.Live) (htyped : d.Typed)
    (hids : (d.components.map Component.id).Nodup) (hfresh : g.ids.FreshFor d.usedIds) :
    (rebuild ⟨catalog, .live, .full, .standard⟩ d).Succeeds g fun r g' =>
      r.made = (d.meant g' r.nodes).length ∧
      (∀ w, w ∈ g'.wiresBetween (r.nodes.map Prod.snd) ↔ w ∈ d.meant g' r.nodes) ∧
      (g'.wiresBetween (r.nodes.map Prod.snd)).ncard = (d.meant g' r.nodes).toFinset.card ∧
      (r.made = (g'.wiresBetween (r.nodes.map Prod.snd)).ncard ↔ (d.meant g' r.nodes).Nodup) := by
  refine (rebuild_follows catalog hlive (fun c hc => (htyped c hc).typedFor catalog) hids hfresh).mono
    fun r g' h => ⟨h.made_eq, fun w => ?_, h.ncard_wiresBetween, h.made_eq_ncard_iff⟩
  rw [h.wiresBetween_eq, Finset.mem_coe, List.mem_toFinset]

/-- A number feeds an addition, as two connections say. -/
def repeatedWire : Document where
  components :=
    [{ name := .str "Number", typeKey := .str "number", id := "number", pivot := none, selected := false,
       properties := [], inputs := [], outputs := [], warnings := [], errors := [] },
     { name := .str "Addition", typeKey := .str "addition", id := "sum", pivot := none,
       selected := false, properties := [], inputs := [], outputs := [], warnings := [], errors := [] }]
  connections := List.replicate 2 ⟨⟨"number", .str "Number"⟩, ⟨"sum", .str "A"⟩⟩

theorem repeatedWire_typed : repeatedWire.Typed := Document.typed_of_bare (by decide)

theorem rebuild_counts_repeatedWire :
    (rebuild ⟨numberTypes, .live, .full, .standard⟩ repeatedWire).Succeeds occupied fun r g' =>
      (g'.wiresBetween (r.nodes.map Prod.snd)).ncard = (repeatedWire.meant g' r.nodes).toFinset.card :=
  (rebuild_counts numberTypes occupied_live repeatedWire_typed (by decide) (occupied_freshFor (by decide))).mono
    fun _ _ h => h.2.2.1

/-- A connection that is repeated counts twice and makes one wire. -/
theorem repeatedWire_made :
    (rebuild ⟨numberTypes, .live, .full, .standard⟩ repeatedWire).Succeeds occupied fun r g' =>
      r.made = 2 ∧ (g'.wiresBetween (r.nodes.map Prod.snd)).ncard = 1 := by
  have hmade : (((rebuild ⟨numberTypes, .live, .full, .standard⟩ repeatedWire).result
      occupied).1.toOption.map Rebuilt.made) = some 2 := by decide +kernel
  obtain ⟨r, g', hresult, hfollows⟩ :=
    rebuild_follows numberTypes occupied_live
      (fun c hc => (repeatedWire_typed c hc).typedFor numberTypes) (by decide) (occupied_freshFor (by decide))
  rw [hresult] at hmade
  have htwo : r.made = 2 := Option.some.inj hmade
  refine ⟨r, g', hresult, htwo, ?_⟩
  have hlength := hfollows.made_eq.symm.trans htwo
  rw [hfollows.ncard_wiresBetween]
  unfold Document.meant repeatedWire at hlength ⊢
  dsimp only at hlength ⊢
  rw [List.filterMap_replicate] at hlength ⊢
  split at hlength
  · cases hlength
  · rw [List.toFinset_replicate_of_ne_zero (by decide)]
    exact Finset.card_singleton _

end Work

end Patchbay
