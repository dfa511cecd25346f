import Patchbay.Proofs.Rebuild.Wiring

/-!
# Rebuilding accounts for everything

A document is rebuilt to the end, and the answer accounts for all of it.

* **`Rebuilt.Accounts`** is what the answer says about the document and the graph before and after:
  which components were placed, under which ids; how many connections were made and given up; where
  the placed nodes stand; and that nothing else was touched.
* **`Work.repair_succeeds`** — the repaired document has the ids of its table of replacements.
* **`Rebuilt.lookup_restoreKeys`** — an answer is found under the id of the document exactly if it was
  found under the id that replaced it.
* `Work.rebuild_of_phases` puts the phases of rebuilding together: repair, layout, placing and wiring.
* **`Work.rebuild_accounts`** — the whole of it, on every live graph, for every catalog, with a supply
  of fresh ids.  The graph is live afterwards, so that documents can be rebuilt on it again.
-/

namespace Patchbay

/-- The settings of all components have texts for names, variables and hints. -/
def Document.Typed (d : Document) : Prop := ∀ c ∈ d.components, c.Typed

/-- Where no settings are recorded, there is nothing that would have to be a text. -/
theorem Document.typed_of_bare {d : Document} (h : ∀ c ∈ d.components, c.inputs = [] ∧ c.outputs = []) :
    d.Typed := by
  intro c hc
  constructor
  · rw [(h c hc).1]
    exact fun _ hs => nomatch hs
  · rw [(h c hc).2]
    exact fun _ hs => nomatch hs

/-- What became of a document, and of the graph on which it was rebuilt. -/
structure Rebuilt.Accounts (d : Document) (before : Graph) (r : Rebuilt) (after : Graph) : Prop where
  /-- Every component was either placed or skipped, under the id that the document has for it. -/
  partition : (r.nodes.map Prod.fst ++ r.skipped).Perm (d.components.map Component.id)
  /-- Where there is a node under an id, there is the id of that node, and nowhere else. -/
  liveIds : r.ids = r.nodes.map fun (id, n) => (id, (after.node n).id)
  connections : r.made + r.dropped = d.connections.length
  /-- The placed nodes come after those that were there, in the order of the document. -/
  canvas : after.canvas = before.canvas ++ d.components.filterMap fun c => r.nodes.lookup c.id
  fresh : ∀ n ∈ r.nodes.map Prod.snd, n ∉ before.canvas
  /-- What was on the canvas keeps everything it had, its wires included. -/
  undisturbed : ∀ n ∈ before.canvas, after.node n = before.node n ∧
    ∀ p ∈ (before.node n).params, after.param p = before.param p
  live : after.Live

/-! ## Repairing -/

namespace Document

theorem withGuids_value (d : Document) (r : Renamer) : (d.withGuids r).value = d.rename r := by
  unfold withGuids
  generalize d.rename r = out
  dsimp only
  split <;> rfl

/-- Dropping pivots changes neither ids nor settings. -/
theorem withUniformPivots_value (d : Document) :
    ∃ pivots : Component → Option (Position Float), d.withUniformPivots.value =
      { d with components := d.components.map fun c => { c with pivot := pivots c } } := by
  unfold withUniformPivots
  split
  · refine ⟨Component.pivot, ?_⟩
    change d = { d with components := d.components.map id }
    rw [List.map_id]
  · exact ⟨fun _ => none, rfl⟩

end Document

namespace Work

open Procedure

/-- What repairing does to a document: ids are replaced as a table says, and pivots may be dropped. -/
theorem repair_renames {d : Document} {g : Graph} {used : List String}
    (hused : d.components.map Component.id ⊆ used) (hfresh : g.ids.FreshFor used) :
    (repair .full d).Succeeds g fun (d', renamed) g' =>
      renamed.Proper used ∧ (∀ c ∈ d.components, Renamer.Settles ⟨renamed, g'.ids⟩ c.id) ∧
      (∃ pivots : Component → Option (Position Float), d'.components = d.components.map fun c =>
        { c with id := newId renamed c.id, pivot := pivots c }) ∧
      d'.connections = d.connections.map (·.rename renamed) ∧ ∃ ids, g' = { g with ids } := by
  have hmem : ∀ c ∈ d.components, c.id ∈ used := fun c hc => hused (List.mem_map_of_mem hc)
  have hsound := Renamer.components_sound hmem (Renamer.sound_nil hfresh)
  obtain ⟨-, -, hsettles, hcomponents⟩ :=
    Renamer.components_settles (Renamer.sound_nil hfresh).strange d.components
  have hvalue : (d.withGuids ⟨[], g.ids⟩).value =
      ({ components := (Renamer.components ⟨[], g.ids⟩ d.components).1
         connections := d.connections.map
          (·.rename (Renamer.components ⟨[], g.ids⟩ d.components).2.renamed) },
        (Renamer.components ⟨[], g.ids⟩ d.components).2) := by
    rw [Document.withGuids_value]
    rfl
  generalize Renamer.components ⟨[], g.ids⟩ d.components = out at hsound hcomponents hsettles hvalue
  obtain ⟨components, r⟩ := out
  dsimp only at hsound hcomponents hsettles hvalue
  obtain ⟨pivots, hpivots⟩ := Document.withUniformPivots_value
    ⟨components, d.connections.map (·.rename r.renamed)⟩
  unfold repair
  refine succeeds_graph_bind ?_
  refine (succeeds_logged (Q := fun out s => out = (d.withGuids ⟨[], g.ids⟩).value ∧ s = g)
    ⟨rfl, rfl⟩).bind fun out s ⟨hout, hs⟩ => ?_
  rw [hvalue] at hout
  subst hout hs
  refine (succeeds_update (Q := fun _ s' => s' = { s with ids := r.ids }) rfl).andThen
    fun s' hs' => ?_
  subst hs'
  refine (succeeds_logged (Q := fun d' s' => d' = (Document.withUniformPivots ⟨components, d.connections.map (·.rename r.renamed)⟩).value ∧
    s' = { s with ids := r.ids }) ⟨rfl, rfl⟩).bind fun d' s' ⟨hd', hs'⟩ => ?_
  rw [hpivots] at hd'
  subst hd' hs'
  refine succeeds_pure ⟨hsound.proper, hsettles, ?_, rfl, r.ids, rfl⟩
  refine ⟨fun c => pivots { c with id := newId r.renamed c.id }, ?_⟩
  rw [hcomponents, List.map_map]
  rfl

/-- A repaired document has another id for each id, and is otherwise as good as it was. -/
theorem repair_succeeds {d : Document} {g : Graph} (htyped : d.Typed)
    (hfresh : g.ids.FreshFor (d.components.map Component.id)) :
    (repair .full d).Succeeds g fun (d', renamed) g' =>
      renamed.Proper (d.components.map Component.id) ∧
      d'.components.map Component.id = (d.components.map Component.id).map (newId renamed) ∧
      d'.Typed ∧ d'.connections.length = d.connections.length ∧ ∃ ids, g' = { g with ids } := by
  refine (repair_renames (List.Subset.refl _) hfresh).mono
    fun (d', renamed) g' ⟨hproper, _, ⟨pivots, hcomponents⟩, hconnections, hg'⟩ => ?_
  refine ⟨hproper, ?_, ?_, ?_, hg'⟩
  · rw [hcomponents, List.map_map, List.map_map]
    rfl
  · intro c hc
    rw [hcomponents] at hc
    obtain ⟨c', hc', rfl⟩ := List.mem_map.mp hc
    exact ⟨(htyped c' hc').inputs, (htyped c' hc').outputs⟩
  · rw [hconnections, List.length_map]

end Work

/-! ## Answering under the ids of the document -/

namespace Rebuilt

/-- What is found under an id was found under the id that replaced it. -/
theorem lookup_restoreKeys {α : Type} {used : List String} {renamed : Renaming}
    (h : renamed.Proper used) {pairs : List (String × α)} (hnodup : (pairs.map Prod.fst).Nodup)
    (hkeys : ∀ k ∈ pairs.map Prod.fst, ∃ id ∈ used, k = newId renamed id) {id : String}
    (hid : id ∈ used) : (restoreKeys pairs renamed).lookup id = pairs.lookup (newId renamed id) := by
  have hdisjoint : ∀ old ∈ renamed.map Prod.fst, old ∉ pairs.map Prod.fst := by
    intro old hold hmem
    obtain ⟨id', -, rfl⟩ := hkeys old hmem
    exact h.newId_notMem_olds id' hold
  have hperm := restoreKeys_perm h hnodup hdisjoint
  have hrestored : ((restoreKeys pairs renamed).map Prod.fst).Nodup := by
    rw [(hperm.map Prod.fst).nodup_iff, List.map_map]
    change (pairs.map (originalId renamed ∘ Prod.fst)).Nodup
    rw [← List.map_map]
    refine hnodup.map_on fun k hk k' hk' heq => ?_
    obtain ⟨i, hi, rfl⟩ := hkeys k hk
    obtain ⟨j, hj, rfl⟩ := hkeys k' hk'
    rw [h.originalId_newId hi, h.originalId_newId hj] at heq
    rw [heq]
  ext value
  rw [Keyed.lookup_eq_some_iff hrestored, Keyed.lookup_eq_some_iff hnodup, hperm.mem_iff,
    List.mem_map]
  constructor
  · rintro ⟨⟨k, v⟩, hmem, heq⟩
    obtain ⟨i, hi, rfl⟩ := hkeys k (List.mem_map_of_mem hmem)
    rw [h.originalId_newId hi] at heq
    cases heq
    exact hmem
  · intro hmem
    exact ⟨_, hmem, by rw [h.originalId_newId hid]⟩

end Rebuilt

/-! ### What was placed -/

namespace Placing

variable {before g : Graph} {used ids : List String} {renamed : Renaming} {r : Rebuilt}

/-- Where the ids in use are different, those that replace them are. -/
theorem nodup_newIds (hproper : renamed.Proper used) (hused : ids ⊆ used) (hids : ids.Nodup) :
    (ids.map (newId renamed)).Nodup :=
  hids.map_on fun _ h _ h' => hproper.newId_injOn (hused h) (hused h')

theorem nodup_keys (h : Placing before renamed (ids.map (newId renamed)) r g)
    (hproper : renamed.Proper used) (hused : ids ⊆ used) (hids : ids.Nodup) :
    (r.nodes.map Prod.fst).Nodup := h.order.nodup (nodup_newIds hproper hused hids)

theorem exists_id (h : Placing before renamed (ids.map (newId renamed)) r g) (hused : ids ⊆ used) :
    ∀ k ∈ r.nodes.map Prod.fst, ∃ id ∈ used, k = newId renamed id := by
  intro k hk
  obtain ⟨id, hid, rfl⟩ := List.mem_map.mp (h.order.subset hk)
  exact ⟨id, hused hid, rfl⟩

/-- The answer under the old ids has the same nodes. -/
theorem restored_perm (h : Placing before renamed (ids.map (newId renamed)) r g)
    (hproper : renamed.Proper used) (hused : ids ⊆ used) (hids : ids.Nodup) :
    (Rebuilt.restoreKeys r.nodes renamed).Perm
      (r.nodes.map fun pair => (originalId renamed pair.1, pair.2)) :=
  Rebuilt.restoreKeys_perm hproper (h.nodup_keys hproper hused hids) fun old hold hmem => by
    obtain ⟨id, -, rfl⟩ := h.exists_id hused old hmem
    exact hproper.newId_notMem_olds id hold

theorem mem_restored (h : Placing before renamed (ids.map (newId renamed)) r g)
    (hproper : renamed.Proper used) (hused : ids ⊆ used) (hids : ids.Nodup) {n : NodeRef} :
    n ∈ (Rebuilt.restoreKeys r.nodes renamed).map Prod.snd ↔ n ∈ r.nodes.map Prod.snd := by
  rw [((h.restored_perm hproper hused hids).map Prod.snd).mem_iff, List.map_map]
  rfl

/-- Wires between the placed nodes leave everything as it was that was on the canvas before. -/
theorem undisturbed (h : Placing before renamed ids r g) (hlive : before.Live) {after : Graph}
    (hrewired : g.Rewired before.params.length after) {n : NodeRef} (hn : n ∈ before.canvas) :
    after.node n = before.node n ∧ ∀ p ∈ (before.node n).params, after.param p = before.param p := by
  refine ⟨(hrewired.node n).trans (h.grows.oldNodes n (hlive.nodes n hn)), fun p hp => ?_⟩
  have hlt := hlive.params n hn p hp
  exact (hrewired.params p hlt).trans (h.grows.oldParams p hlt)

/-- A node is answered for under an old id exactly if it was placed under the new one. -/
theorem lookup_restored (h : Placing before renamed (ids.map (newId renamed)) r g)
    (hproper : renamed.Proper used) (hused : ids ⊆ used) (hids : ids.Nodup) {id : String}
    (hid : id ∈ used) :
    (Rebuilt.restoreKeys r.nodes renamed).lookup id = r.nodes.lookup (newId renamed id) :=
  Rebuilt.lookup_restoreKeys hproper (h.nodup_keys hproper hused hids) (h.exists_id hused) hid

/-- What was not skipped was placed. -/
theorem exists_lookup_restored (h : Placing before renamed (ids.map (newId renamed)) r g)
    (hproper : renamed.Proper used) (hused : ids ⊆ used) (hids : ids.Nodup) {id : String} (hid : id ∈ ids)
    (hkept : id ∉ r.skipped) : ∃ n, (Rebuilt.restoreKeys r.nodes renamed).lookup id = some n := by
  rw [h.lookup_restored hproper hused hids (hused hid)]
  refine Keyed.exists_lookup_eq_some ?_
  obtain ⟨skipped, hskipped, hperm⟩ := h.partition
  have hmem : newId renamed id ∈ r.nodes.map Prod.fst ++ skipped :=
    hperm.mem_iff.mpr (List.mem_map_of_mem hid)
  refine (List.mem_append.mp hmem).resolve_right fun hmem => hkept ?_
  rw [hskipped, ← hproper.originalId_newId (hused hid)]
  exact List.mem_map_of_mem hmem

end Placing

/-! ## The whole document -/

namespace Rebuilt

/-- What is known after placing and wiring a repaired document, said of the document itself. -/
theorem accounts {d d' : Document} {before placedOn after : Graph} {renamed : Renaming}
    {placed : Rebuilt} {made dropped : Nat} (hlive : before.Live)
    (hids : (d.components.map Component.id).Nodup)
    (hproper : renamed.Proper (d.components.map Component.id))
    (hnewIds : d'.components.map Component.id =
      (d.components.map Component.id).map (newId renamed))
    (hplacing : Placing before renamed (d'.components.map Component.id) placed placedOn)
    (hrewired : placedOn.Rewired before.params.length after)
    (hcount : made + dropped = d.connections.length) :
    ({ placed with made, dropped }.restoreIds renamed).Accounts d before after := by
  rw [restoreIds_eq]
  rw [hnewIds] at hplacing
  have hused := List.Subset.refl (d.components.map Component.id)
  have hperm := hplacing.restored_perm hproper hused hids
  constructor
  case partition =>
    obtain ⟨skipped, hskipped, hpartition⟩ := hplacing.partition
    have hfirst : ((restoreKeys placed.nodes renamed).map Prod.fst).Perm
        ((placed.nodes.map Prod.fst).map (originalId renamed)) := by
      refine (hperm.map Prod.fst).trans (List.Perm.of_eq ?_)
      rw [List.map_map, List.map_map]
      rfl
    dsimp only
    rw [hskipped]
    refine (hfirst.append_right _).trans ?_
    rw [← List.map_append]
    refine (hpartition.map _).trans (List.Perm.of_eq ?_)
    rw [List.map_map]
    have hback : ∀ id ∈ d.components.map Component.id,
        (originalId renamed ∘ newId renamed) id = id := fun id hid => hproper.originalId_newId hid
    exact (List.map_congr_left hback).trans (List.map_id _)
  case liveIds =>
    dsimp only
    rw [hplacing.liveIds, restoreKeys_map]
    refine List.map_congr_left fun pair _ => ?_
    rw [hrewired.node pair.2]
    rfl
  case connections => exact hcount
  case canvas =>
    have hlookup : (d.components.filterMap fun c => (restoreKeys placed.nodes renamed).lookup c.id) =
        ((d.components.map Component.id).map (newId renamed)).filterMap (placed.nodes.lookup ·) := by
      rw [List.map_map, List.filterMap_map]
      refine List.filterMap_congr fun c hc => ?_
      exact hplacing.lookup_restored hproper hused hids (List.mem_map_of_mem hc)
    rw [hrewired.canvas, hplacing.canvas]
    dsimp only
    rw [hlookup, Keyed.filterMap_lookup (Placing.nodup_newIds hproper hused hids) hplacing.order]
  case fresh =>
    intro n hn hmem
    have hplaced := (hplacing.mem_restored hproper hused hids).mp hn
    exact absurd (hlive.nodes n hmem) (Nat.not_lt_of_le (hplacing.fresh n hplaced).1)
  case undisturbed => exact fun n hn => hplacing.undisturbed hlive hrewired hn
  case live => exact hrewired.live hplacing.live

end Rebuilt

namespace Work

open Procedure

/-- Rebuilding is repair, a layout below what is on the canvas, placing and wiring: what they give one after
the other is what becomes of the document. -/
theorem rebuild_of_phases {catalog : Catalog} {d : Document} {g : Graph}
    {Repaired : Document × Renaming → Graph → Prop} {Q : Rebuilt → Graph → Prop}
    (hrepair : (repair .full d).Succeeds g Repaired)
    (hrest : ∀ d' renamed s, Repaired (d', renamed) s → ∃ bounds, s.bounds? = .ok bounds ∧
      (placeAll ⟨catalog, .live, .full, .standard⟩ renamed (d'.placement .default bounds).value .none
        d'.components).Succeeds s fun placed s' =>
          (wireAll .live placed d'.connections).Succeeds s' fun wired after => Q (wired.restoreIds renamed) after) :
    (rebuild ⟨catalog, .live, .full, .standard⟩ d).Succeeds g Q := by
  unfold rebuild
  refine hrepair.bind fun (d', renamed) s hrepaired => ?_
  obtain ⟨bounds, hbounds, hplaces⟩ := hrest d' renamed s hrepaired
  refine succeeds_graph_bind (succeeds_ofResult_bind hbounds ?_)
  refine (succeeds_logged (Q := fun positions s' =>
    positions = (d'.placement .default bounds).value ∧ s' = s) ⟨rfl, rfl⟩).bind
    fun positions s' ⟨hpositions, hs'⟩ => ?_
  subst hpositions hs'
  refine hplaces.bind fun placed placedOn hwires => hwires.bind fun wired after hwired => ?_
  exact (succeeds_report (Q := fun _ => Q (wired.restoreIds renamed)) hwired).andThen
    fun _ h => succeeds_pure h

/-- A document of components with different ids is rebuilt on any live graph, with any catalog, as
long as the ids to come are fresh; and the answer accounts for all of it. -/
theorem rebuild_accounts (catalog : Catalog) {d : Document} {g : Graph} (hlive : g.Live)
    (htyped : d.Typed) (hids : (d.components.map Component.id).Nodup)
    (hfresh : g.ids.FreshFor (d.components.map Component.id)) :
    (rebuild ⟨catalog, .live, .full, .standard⟩ d).Succeeds g fun r g' => r.Accounts d g g' := by
  refine rebuild_of_phases (repair_succeeds htyped hfresh)
    fun d' renamed s ⟨hproper, hnewIds, htyped', hconnections, ids, hs⟩ => ?_
  subst hs
  have hlive' := hlive.withIds ids
  have hnodup : ([] ++ d'.components.map Component.id).Nodup := by
    rw [List.nil_append, hnewIds]
    exact Placing.nodup_newIds hproper (List.Subset.refl _) hids
  obtain ⟨bounds, hbounds⟩ := hlive'.bounds
  refine ⟨bounds, hbounds, (placeAll_succeeds PropertyTable.isOpen_standard rfl renamed htyped'
    (fun c hc => d'.exists_placement_lookup _ _ hc) hnodup (Placing.none hlive' renamed)).mono
      fun placed s hplacing => ?_⟩
  rw [List.nil_append] at hplacing
  refine (wireAll_succeeds placed d'.connections fun n hn => (hplacing.fresh n hn).2).mono
    fun wired s' ⟨hrewired, made, dropped, hcount, hwired⟩ => ?_
  subst hwired
  have hcount' : made + dropped = d.connections.length := by
    rw [hcount, hplacing.counts.1, hplacing.counts.2, hconnections, Nat.zero_add]
  exact Rebuilt.accounts hlive hids hproper hnewIds hplacing.forgetIds hrewired hcount'

/-- A slider, a component of no known type, and a connection between them. -/
def sliderAndStranger : Document where
  components :=
    [{ name := .str "Number Slider", typeKey := .str "", id := "slider", pivot := none,
       selected := true, properties := [("CurrentValue", ⟨.str "5<0,10>", "String", .null⟩)],
       inputs := [], outputs := [.named (.str "Number")], warnings := [], errors := [] },
     { name := .str "Stranger", typeKey := .str "unknown", id := "stranger", pivot := none,
       selected := false, properties := [], inputs := [.named (.str "A")], outputs := [],
       warnings := [], errors := [] }]
  connections := [⟨⟨"slider", .str "Number"⟩, ⟨"stranger", .str "A"⟩⟩]

/-- A canvas with a floating parameter on it. -/
def occupied : Graph :=
  ((Graph.empty .counter).make (Catalog.floatingType "3e8ca6be-fda8-4aaf-b5c0-3c54c8bb7312"
    "Number")).2.place ⟨0⟩ .origin

theorem occupied_live : occupied.Live :=
  (Graph.builds_make (.empty .counter) _).live_place (Graph.live_empty _) .origin

/-- Ids that are shorter than GUIDs are none of those to come on that canvas. -/
theorem occupied_freshFor {used : List String} (h : ∀ id ∈ used, id.length < 24) :
    occupied.ids.FreshFor used :=
  (IdSupply.counter_freshFor h).next.mono (List.subset_append_left _ _)

theorem rebuild_accounts_occupied :
    (rebuild ⟨.standard, .live, .full, .standard⟩ sliderAndStranger).Succeeds occupied
      fun r g' => r.Accounts sliderAndStranger occupied g' := by
  have htyped : sliderAndStranger.Typed := by
    have hnamed : ∀ name, (ParameterSettings.named (.str name)).Typed := fun name =>
      ⟨⟨name, rfl⟩, Or.inl rfl, Or.inl rfl⟩
    intro c hc
    rcases List.mem_cons.mp hc with rfl | hc
    · refine ⟨(fun s hs => nomatch hs), fun s hs => ?_⟩
      rw [List.mem_singleton.mp hs]
      exact hnamed "Number"
    · rw [List.mem_singleton.mp hc]
      refine ⟨fun s hs => ?_, fun s hs => nomatch hs⟩
      rw [List.mem_singleton.mp hs]
      exact hnamed "A"
  exact rebuild_accounts .standard occupied_live htyped (by decide) (occupied_freshFor (by decide))

end Work

end Patchbay
