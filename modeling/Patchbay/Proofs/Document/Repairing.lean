import Patchbay.Proofs.Rebuild.Imaging
import Mathlib.Data.List.Range

/-!
# Replaced ids keep the graph

A document that gets new ids is the same graph as before.  Its components keep all but their ids and go on
sharing these, and each end of a connection means the component that it meant, or none.

* `IdSupply.upcoming`, `IdSupply.FreshGuids` — the next ids of a supply, and what is asked of them
* `Document.SameGraph` — documents that differ in their ids only.  Components are known by their places in
  the list here, since several may have one id and an end means the first of these (`Document.place?`).
* **`Renamer.Follows`** is the invariant of replacing: the table has the ids seen so far that are no GUIDs,
  each with an upcoming id, in order.
* **`Document.withGuids_sameGraph`** — the result.
-/

namespace Patchbay

/-! ## Upcoming ids -/

namespace IdSupply

/-- The next ids of a supply. -/
def upcoming (s : IdSupply) (count : Nat) : List String :=
  (List.range count).map fun i => s.name (s.issued + i + 1)

/-- The next ids are GUIDs that differ from each other and from the ids in use. -/
structure FreshGuids (s : IdSupply) (count : Nat) (used : List String) : Prop where
  guids : ∀ id ∈ s.upcoming count, isGuid id = true
  distinct : (s.upcoming count).Nodup
  unused : ∀ id ∈ s.upcoming count, id ∉ used

theorem upcoming_succ (s : IdSupply) (count : Nat) :
    s.upcoming (count + 1) = s.upcoming count ++ [s.name (s.issued + count + 1)] := by
  rw [upcoming, List.range_succ, List.map_append]
  rfl

theorem FreshGuids.of_le {s : IdSupply} {count fewer : Nat} {used : List String} (h : s.FreshGuids count used)
    (hfewer : fewer ≤ count) : s.FreshGuids fewer used := by
  have hsublist : (s.upcoming fewer).Sublist (s.upcoming count) := (List.range_sublist.mpr hfewer).map _
  exact ⟨fun id hid => h.guids id (hsublist.subset hid), h.distinct.sublist hsublist,
    fun id hid => h.unused id (hsublist.subset hid)⟩

end IdSupply

/-! ## The table -/

namespace Renamer

variable {s : IdSupply} {seen used : List String} {r : Renamer}

/-- After the ids `seen`, the table has those that are no GUIDs, each once, with as many upcoming ids of the
supply as there were at the beginning. -/
structure Follows (s : IdSupply) (seen : List String) (r : Renamer) : Prop where
  olds : ∀ id, id ∈ r.renamed.map Prod.fst ↔ id ∈ seen ∧ isGuid id = false
  nodup : (r.renamed.map Prod.fst).Nodup
  news : r.renamed.map Prod.snd = s.upcoming r.renamed.length
  ids : r.ids = ⟨s.name, s.issued + r.renamed.length⟩

theorem follows_nil (s : IdSupply) : Follows s [] ⟨[], s⟩ where
  olds := fun id => by simp
  nodup := List.nodup_nil
  news := rfl
  ids := rfl

/-- One more id. -/
theorem Follows.rename (h : Follows s seen r) (id : String) : Follows s (seen ++ [id]) (r.rename id).2 := by
  have hseen : ∀ other, other ∈ seen ++ [id] ↔ other ∈ seen ∨ other = id := by simp
  obtain ⟨hguid, hrename⟩ | ⟨hguid, new, hlookup, hrename⟩ | ⟨hguid, hlookup, hrename⟩ := rename_cases r id
  · rw [hrename]
    refine ⟨fun other => ?_, h.nodup, h.news, h.ids⟩
    rw [h.olds, hseen, or_and_right]
    refine (or_iff_left ?_).symm
    rintro ⟨rfl, hstrange⟩
    exact absurd (hstrange.symm.trans hguid) (by decide)
  · rw [hrename]
    refine ⟨fun other => ?_, h.nodup, h.news, h.ids⟩
    rw [h.olds, hseen, or_and_right]
    refine (or_iff_left_of_imp ?_).symm
    rintro ⟨rfl, -⟩
    exact (h.olds _).mp (Keyed.mem_keys_of_lookup hlookup)
  · have hold : id ∉ r.renamed.map Prod.fst := Keyed.lookup_eq_none_iff.mp hlookup
    have hnext : r.ids.next = (s.name (s.issued + r.renamed.length + 1),
        ⟨s.name, s.issued + r.renamed.length + 1⟩) := by
      rw [h.ids]
      rfl
    rw [hrename, hnext]
    refine ⟨fun other => ?_, ?_, ?_, ?_⟩
    · rw [List.map_append, List.mem_append, h.olds, hseen, or_and_right]
      refine or_congr_right ?_
      rw [List.map_cons, List.map_nil, List.mem_singleton]
      exact (and_iff_left_of_imp fun hother => hother ▸ hguid).symm
    · rw [List.map_append]
      exact h.nodup.append (List.nodup_singleton _) (List.disjoint_singleton.mpr hold)
    · rw [List.map_append, h.news, List.length_append, List.length_singleton, IdSupply.upcoming_succ]
      rfl
    · rw [List.length_append, List.length_singleton]
      rfl

/-- All components of a list. -/
theorem Follows.components (h : Follows s seen r) (cs : List Component) :
    Follows s (seen ++ cs.map Component.id) (r.components cs).2 := by
  induction cs generalizing seen r with
  | nil =>
      rw [List.map_nil, List.append_nil]
      exact h
  | cons c rest ih =>
      have hrest := ih (h.rename c.id)
      rw [List.append_assoc] at hrest
      rw [components_cons]
      exact hrest

/-- There are no more replacements than ids. -/
theorem Follows.length_le (h : Follows s seen r) : r.renamed.length ≤ seen.length := by
  have hsubset : r.renamed.map Prod.fst ⊆ seen := fun id hid => ((h.olds id).mp hid).1
  simpa using (h.nodup.subperm hsubset).length_le

/-- Where the upcoming ids are fresh, no two ids share a replacement. -/
theorem Follows.proper (h : Follows s seen r) (hseen : seen ⊆ used)
    (hfresh : s.FreshGuids r.renamed.length used) : r.renamed.Proper used where
  olds := h.nodup
  news := h.news ▸ hfresh.distinct
  within := fun old hold => hseen ((h.olds old).mp hold).1
  fresh := fun new hnew => hfresh.unused new (h.news ▸ hnew)

/-- Every id that was seen is a GUID afterwards. -/
theorem Follows.isGuid_newId (h : Follows s seen r) (hfresh : s.FreshGuids r.renamed.length used) {id : String}
    (hid : id ∈ seen) : isGuid (newId r.renamed id) = true := by
  unfold newId
  cases hlookup : r.renamed.lookup id with
  | some new =>
      refine hfresh.guids new ?_
      rw [← h.news]
      exact Keyed.mem_values_of_lookup hlookup
  | none =>
      have hold := mt (h.olds id).mpr (Keyed.lookup_eq_none_iff.mp hlookup)
      rw [not_and, Bool.not_eq_false] at hold
      exact hold hid

end Renamer

/-! ## The graph -/

theorem findIdx?_congr {α : Type} {p q : α → Bool} {items : List α} (h : ∀ a ∈ items, p a = q a) :
    items.findIdx? p = items.findIdx? q := by
  induction items with
  | nil => rfl
  | cons a rest ih =>
      rw [List.forall_mem_cons] at h
      rw [List.findIdx?_cons, List.findIdx?_cons, h.1, ih h.2]

namespace Document

variable {d : Document}

/-- The place of the component that an id means, the first one that has it. -/
def place? (d : Document) (id : String) : Option Nat := d.components.findIdx? (·.id == id)

theorem component?_eq_place? (d : Document) (id : String) :
    d.component? id = (d.place? id).bind fun i => d.components[i]? :=
  List.find?_eq_bind_findIdx?_getElem?

/-- An end of a connection has the name of another one, and means the component at the same place. -/
structure SameEnd (d' d : Document) (e' e : Endpoint) : Prop where
  name : e'.name = e.name
  place : d'.place? e'.id = d.place? e.id

/-- Two documents differ in their ids only: component by component they agree in all else, ids are shared by
the same components, and connection by connection both ends mean the same component. -/
structure SameGraph (d' d : Document) : Prop where
  components : List.Forall₂ (fun c' c => { c' with id := c.id } = c) d'.components d.components
  shared : ∀ i j : Nat, d'.components[i]?.map Component.id = d'.components[j]?.map Component.id ↔
    d.components[i]?.map Component.id = d.components[j]?.map Component.id
  connections : List.Forall₂ (fun c' c => SameEnd d' d c'.source c.source ∧ SameEnd d' d c'.target c.target)
    d'.connections d.connections

/-- An id means the component at the same place under its replacement. -/
theorem place?_map_newId {renamed : Renaming} (hproper : renamed.Proper d.usedIds) (connections : List Connection)
    {id : String} (hid : id ∈ d.usedIds) :
    (Document.mk (d.components.map fun c => { c with id := newId renamed c.id }) connections).place?
      (newId renamed id) = d.place? id := by
  unfold place?
  rw [List.findIdx?_map]
  refine findIdx?_congr fun c hc => ?_
  rw [Function.comp_apply, Bool.eq_iff_iff, beq_iff_eq, beq_iff_eq]
  exact ⟨hproper.newId_injOn (d.componentIds_subset (List.mem_map_of_mem hc)) hid, congrArg (newId renamed)⟩

/-- Two components share an id under a proper table if they did before. -/
theorem newId_eq_iff_of_mem {renamed : Renaming} (hproper : renamed.Proper d.usedIds) {c c' : Component}
    (hc : c ∈ d.components) (hc' : c' ∈ d.components) :
    newId renamed c.id = newId renamed c'.id ↔ c.id = c'.id :=
  ⟨hproper.newId_injOn (d.componentIds_subset (List.mem_map_of_mem hc))
    (d.componentIds_subset (List.mem_map_of_mem hc')), congrArg _⟩

/-- Replacing ids by a proper table changes nothing but ids. -/
theorem sameGraph_of_proper {renamed : Renaming} (hproper : renamed.Proper d.usedIds) :
    SameGraph ⟨d.components.map fun c => { c with id := newId renamed c.id }, d.connections.map (·.rename renamed)⟩
      d where
  components := by
    rw [List.forall₂_map_left_iff]
    exact List.forall₂_same.mpr fun _ _ => rfl
  shared := fun i j => by
    rw [List.getElem?_map, List.getElem?_map]
    cases hi : d.components[i]? with
    | none => cases hj : d.components[j]? <;> simp
    | some c =>
        cases hj : d.components[j]? with
        | none => simp
        | some c' =>
            simpa using newId_eq_iff_of_mem hproper (List.mem_of_getElem? hi) (List.mem_of_getElem? hj)
  connections := by
    rw [List.forall₂_map_left_iff]
    refine List.forall₂_same.mpr fun c hc => ⟨⟨rfl, ?_⟩, ⟨rfl, ?_⟩⟩
    · exact place?_map_newId hproper _ (source_mem_usedIds hc)
    · exact place?_map_newId hproper _ (target_mem_usedIds hc)

/-- A document whose components have GUIDs for ids is left as it is, and nothing is reported. -/
theorem withGuids_of_isGuid (h : ∀ c ∈ d.components, isGuid c.id = true) (ids : IdSupply) :
    d.withGuids ⟨[], ids⟩ = pure (d, ⟨[], ids⟩) := by
  unfold withGuids
  rw [rename_of_isGuid h]
  rfl

/-- **A document gets GUIDs and keeps its graph**: where the upcoming ids are fresh, all components have GUIDs
afterwards, the document is the same but for ids, the table has the ids of components that were no GUIDs,
and a second time changes nothing. -/
theorem withGuids_sameGraph {d : Document} {ids : IdSupply}
    (hfresh : ids.FreshGuids d.components.length d.usedIds) :
    let (d', r) := (d.withGuids ⟨[], ids⟩).value
    (∀ c ∈ d'.components, isGuid c.id = true) ∧ SameGraph d' d ∧
      (r.renamed.map Prod.fst).Nodup ∧
      (∀ id, id ∈ r.renamed.map Prod.fst ↔ id ∈ d.components.map Component.id ∧ isGuid id = false) ∧
      ∀ again : IdSupply, d'.withGuids ⟨[], again⟩ = pure (d', ⟨[], again⟩) := by
  rw [withGuids_value]
  unfold rename
  have hfollows := (Renamer.follows_nil ids).components d.components
  obtain ⟨-, -, -, hcomponents⟩ :=
    Renamer.components_settles (r := ⟨[], ids⟩) (fun _ h => nomatch h) d.components
  rw [List.nil_append] at hfollows
  dsimp only
  rw [hcomponents]
  generalize (Renamer.components ⟨[], ids⟩ d.components).2 = r at hfollows
  have hfresh' := hfresh.of_le (by simpa using hfollows.length_le)
  have hguids : ∀ c ∈ d.components.map fun c => { c with id := newId r.renamed c.id }, isGuid c.id = true := by
    intro c' hc'
    obtain ⟨c, hc, rfl⟩ := List.mem_map.mp hc'
    exact hfollows.isGuid_newId hfresh' (List.mem_map_of_mem hc)
  exact ⟨hguids, sameGraph_of_proper (hfollows.proper d.componentIds_subset hfresh'), hfollows.nodup,
    hfollows.olds, withGuids_of_isGuid hguids⟩

/-- Two components that share a readable id, one with a GUID, and connections to all of these and to none. -/
def readableIds : Document where
  components := ["slider", "11111111-1111-1111-1111-111111111111", "slider"].map fun id =>
    { name := .str "Panel", typeKey := .str "panel", id, pivot := none, selected := false, properties := [],
      inputs := [], outputs := [], warnings := [], errors := [] }
  connections :=
    [⟨⟨"slider", .str "N"⟩, ⟨"11111111-1111-1111-1111-111111111111", .str "A"⟩⟩,
      ⟨⟨"nobody", .str "N"⟩, ⟨"22222222-2222-2222-2222-222222222222", .str "B"⟩⟩]

theorem withGuids_sameGraph_readableIds :
    IdSupply.counter.FreshGuids readableIds.components.length readableIds.usedIds ∧
      SameGraph (readableIds.withGuids ⟨[], .counter⟩).value.1 readableIds := by
  have hfresh : IdSupply.counter.FreshGuids readableIds.components.length readableIds.usedIds :=
    ⟨by decide +kernel, by decide +kernel, by decide +kernel⟩
  exact ⟨hfresh, (withGuids_sameGraph hfresh).2.1⟩

end Document

end Patchbay
