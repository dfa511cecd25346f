import Patchbay.Proofs.Document.Renaming
import Patchbay.Proofs.Rebuild.Configuring
import Patchbay.Layout.Placement

/-!
# Placing all components

* **`Graph.Live`** — the handles on the canvas are good, and every node there is somewhere.
* **`Graph.Grows`** — everything that was there before is as it was.  This is what remains of
  `Graph.Builds` once a node is placed, and it can be composed.
* **`Document.exists_placement_lookup`** — the layout has a position for every component.
* **`Placing`** is the invariant of placing components one after the other, with respect to the ids
  that were looked at: each of them is either placed or skipped, and the placed nodes stand at the
  end of the canvas in that order.  They are not wired, and no output of theirs is an input: this is
  what makes room for every wire.  `Placing.skip` and `Placing.add` are its two steps, and
  **`Work.placeAll_keeps`** is the induction over the components, for it and whatever else the two steps
  keep.
* **`Work.placeAll_places`** — which components are skipped
-/

namespace Patchbay

/-! ## Live graphs -/

/-- The handles on the canvas are good, and every node there is somewhere. -/
structure Graph.Live (g : Graph) : Prop where
  nodes : ∀ n ∈ g.canvas, n.index < g.nodes.length
  params : ∀ n ∈ g.canvas, ∀ p ∈ (g.node n).params, p.index < g.params.length
  pivots : ∀ n ∈ g.canvas, ∃ p, (g.node n).position = .ok p

theorem Graph.live_empty (ids : IdSupply) : (empty ids).Live :=
  ⟨(fun _ h => nomatch h), (fun _ h => nomatch h), fun _ h => nomatch h⟩

theorem Graph.Live.withIds {g : Graph} (h : g.Live) (ids : IdSupply) : Graph.Live { g with ids } :=
  ⟨h.nodes, h.params, h.pivots⟩

theorem Graph.Live.bounds {g : Graph} (h : g.Live) : ∃ frame, g.bounds? = .ok frame := by
  have hframes : ∃ frames,
      g.canvas.mapM (fun n => Frame.ofPivot <$> (g.node n).position) = .ok frames := by
    refine exists_mapM_eq_ok fun n hn => ?_
    obtain ⟨p, hp⟩ := h.pivots n hn
    rw [hp]
    exact ⟨_, rfl⟩
  obtain ⟨frames, hframes⟩ := hframes
  refine ⟨Frame.aroundAll frames, ?_⟩
  unfold bounds?
  rw [hframes]
  rfl

/-- Everything that was there is as it was. -/
structure Graph.Grows (g g' : Graph) : Prop where
  nodes : g.nodes.length ≤ g'.nodes.length
  params : g.params.length ≤ g'.params.length
  oldNodes : ∀ n : NodeRef, n.index < g.nodes.length → g'.node n = g.node n
  oldParams : ∀ p : ParamRef, p.index < g.params.length → g'.param p = g.param p

namespace Graph.Grows

variable {g g' g'' : Graph}

theorem refl (g : Graph) : g.Grows g :=
  ⟨Nat.le_refl _, Nat.le_refl _, fun _ _ => rfl, fun _ _ => rfl⟩

theorem trans (h : g.Grows g') (h' : g'.Grows g'') : g.Grows g'' where
  nodes := Nat.le_trans h.nodes h'.nodes
  params := Nat.le_trans h.params h'.params
  oldNodes := fun n hn =>
    (h'.oldNodes n (Nat.lt_of_lt_of_le hn h.nodes)).trans (h.oldNodes n hn)
  oldParams := fun p hp =>
    (h'.oldParams p (Nat.lt_of_lt_of_le hp h.params)).trans (h.oldParams p hp)

end Graph.Grows

/-- The nodes differ in their ids and places only. -/
def Node.SameButPlace (v w : Node) : Prop := w = { v with id := w.id, pivot := w.pivot }

theorem Node.SameButPlace.of_eq {v w : Node} (h : w = v) : v.SameButPlace w := by
  rw [h]
  rfl

namespace Graph.Builds

variable {g₀ g : Graph} {n : NodeRef} {k : NodeKind}

theorem notMem_canvas (h : g₀.Builds n k g) (hlive : g₀.Live) : n ∉ g.canvas := by
  intro hmem
  rw [h.canvas] at hmem
  exact absurd h.handle (Nat.ne_of_lt (hlive.nodes n hmem))

theorem place_eq (h : g₀.Builds n k g) (hlive : g₀.Live) (p : Position Float) :
    g.place n p =
      { g.updateNode n fun v => { v with id := g.ids.next.1, pivot := .spot p.x p.y } with
        ids := g.ids.next.2
        canvas := g.canvas ++ [n] } := by
  unfold Graph.place
  dsimp only
  rw [if_neg]
  · rfl
  · exact h.notMem_canvas hlive

theorem canvas_place (h : g₀.Builds n k g) (hlive : g₀.Live) (p : Position Float) :
    (g.place n p).canvas = g₀.canvas ++ [n] := by
  rw [h.place_eq hlive, ← h.canvas]

theorem node_place (h : g₀.Builds n k g) (hlive : g₀.Live) (p : Position Float) :
    (g.place n p).node n = { g.node n with id := g.ids.next.1, pivot := .spot p.x p.y } := by
  rw [h.place_eq hlive]
  exact node_setNode_self g _ h.index_lt

theorem sameButPlace_place (h : g₀.Builds n k g) (hlive : g₀.Live) (p : Position Float) :
    (g.node n).SameButPlace ((g.place n p).node n) := by
  rw [h.node_place hlive]
  rfl

theorem grows_place (h : g₀.Builds n k g) (hlive : g₀.Live) (p : Position Float) :
    g₀.Grows (g.place n p) := by
  rw [h.place_eq hlive]
  refine ⟨?_, h.params, fun m hm => ?_, h.oldParams⟩
  · simp only [Graph.updateNode, Graph.setNode, List.length_set]
    rw [h.nodes]
    exact Nat.le_succ _
  · have hne : m ≠ n := by
      rintro rfl
      exact absurd h.handle (Nat.ne_of_lt hm)
    exact (node_setNode_of_ne g _ hne).trans (h.oldNodes m hm)

/-- A graph stays live when a node is placed. -/
theorem live_place (h : g₀.Builds n k g) (hlive : g₀.Live) (p : Position Float) :
    (g.place n p).Live := by
  have hgrows := h.grows_place hlive p
  have hnode := h.node_place hlive p
  have hcanvas := h.canvas_place hlive p
  have hparams : (g.place n p).params = g.params := by rw [h.place_eq hlive]; rfl
  have hnodes : (g.place n p).nodes.length = g₀.nodes.length + 1 := by
    rw [h.place_eq hlive, ← h.nodes]
    simp [Graph.updateNode, Graph.setNode]
  refine ⟨fun m hm => ?_, fun m hm => ?_, fun m hm => ?_⟩ <;>
    rw [hcanvas, List.mem_append, List.mem_singleton] at hm <;> rcases hm with hm | rfl
  · exact Nat.lt_of_lt_of_le (hlive.nodes m hm) hgrows.nodes
  · rw [hnodes, h.handle]
    exact Nat.lt_succ_self _
  · rw [hgrows.oldNodes m (hlive.nodes m hm)]
    exact fun q hq => Nat.lt_of_lt_of_le (hlive.params m hm q hq) hgrows.params
  · rw [hnode, hparams]
    exact fun q hq => (h.own q hq).2
  · rw [hgrows.oldNodes m (hlive.nodes m hm)]
    exact hlive.pivots m hm
  · rw [hnode]
    exact ⟨p, rfl⟩

theorem own_place (h : g₀.Builds n k g) (hlive : g₀.Live) (p : Position Float) :
    ∀ q ∈ ((g.place n p).node n).params, g₀.params.length ≤ q.index := by
  rw [h.node_place hlive]
  exact fun q hq => (h.own q hq).1

/-- A node that was built and placed has no wires yet. -/
theorem bare_place (h : g₀.Builds n k g) (hlive : g₀.Live) (p : Position Float) :
    ∀ q ∈ ((g.place n p).node n).params,
      ((g.place n p).param q).sources = [] ∧ ((g.place n p).param q).recipients = [] := by
  intro q hq
  rw [h.node_place hlive] at hq
  have hparam : (g.place n p).param q = g.param q := by
    rw [h.place_eq hlive]
    rfl
  obtain ⟨hle, hlt⟩ := h.own q hq
  rw [hparam]
  exact ⟨(h.fresh q hle hlt).sources, (h.fresh q hle hlt).recipients⟩

theorem parted_place (h : g₀.Builds n k g) (hlive : g₀.Live) (p : Position Float) :
    ∀ q ∈ ((g.place n p).node n).outputs, q ∉ ((g.place n p).node n).inputs := by
  rw [h.node_place hlive]
  exact fun q hq hq' => h.parted q hq' hq

end Graph.Builds

/-! ## Positions -/

/-- The layout has a position for every component. -/
theorem Document.exists_placement_lookup (d : Document) (s : Layout.Settings Float)
    (bounds : Option (Frame Float)) {c : Component} (hc : c ∈ d.components) :
    ∃ p, (d.placement s bounds).value.lookup c.id = some p := by
  refine Keyed.exists_lookup_eq_some ?_
  rw [value_placement]
  unfold Layout.place
  rw [List.map_map]
  change c.id ∈ (Layout.localPositions s d.grid.value d.items).map Prod.fst
  unfold Layout.localPositions
  rw [Keyed.mem_keys_ofList, List.map_map, List.mem_map]
  refine ⟨⟨c.id, c.pivot⟩, List.mem_map.mpr ⟨c, hc, rfl⟩, ?_⟩
  rw [Function.comp_apply]
  cases c.pivot <;> rfl

/-! ## Placing -/

/-- What is known after some components were looked at, in the order of their ids: each was placed
or skipped, and the graph is the one before with the placed nodes at the end of its canvas. -/
structure Placing (g₀ : Graph) (renamed : Renaming) (ids : List String) (r : Rebuilt) (g : Graph) :
    Prop where
  grows : g₀.Grows g
  live : g.Live
  canvas : g.canvas = g₀.canvas ++ r.nodes.map Prod.snd
  placed : ∀ n ∈ r.nodes.map Prod.snd, n.index < g.nodes.length
  fresh : ∀ n ∈ r.nodes.map Prod.snd, g₀.nodes.length ≤ n.index ∧
    ∀ p ∈ (g.node n).params, g₀.params.length ≤ p.index
  /-- Nothing is wired yet … -/
  bare : ∀ n ∈ r.nodes.map Prod.snd, ∀ p ∈ (g.node n).params,
    (g.param p).sources = [] ∧ (g.param p).recipients = []
  /-- … and what is going to be a source is never the input it would feed. -/
  apart : ∀ n ∈ r.nodes.map Prod.snd, ∀ m ∈ r.nodes.map Prod.snd, ∀ p ∈ (g.node n).outputs,
    p ∉ (g.node m).inputs
  liveIds : r.ids = r.nodes.map (Prod.map id fun n => (g.node n).id)
  order : (r.nodes.map Prod.fst).Sublist ids
  partition : ∃ skipped, r.skipped = skipped.map (originalId renamed) ∧
    (r.nodes.map Prod.fst ++ skipped).Perm ids
  counts : r.made = 0 ∧ r.dropped = 0

namespace Placing

variable {g₀ g : Graph} {renamed : Renaming} {ids : List String} {r : Rebuilt}

theorem none (h : g.Live) (renamed : Renaming) : Placing g renamed [] .none g where
  grows := .refl g
  live := h
  canvas := (List.append_nil _).symm
  placed := fun _ h => nomatch h
  fresh := fun _ h => nomatch h
  bare := fun _ h => nomatch h
  apart := fun _ h => nomatch h
  liveIds := rfl
  order := List.Sublist.refl _
  partition := ⟨[], rfl, List.Perm.refl _⟩
  counts := ⟨rfl, rfl⟩

/-- The ids that were in supply before do not matter. -/
theorem forgetIds {supply : IdSupply} (h : Placing { g₀ with ids := supply } renamed ids r g) :
    Placing g₀ renamed ids r g :=
  ⟨⟨h.grows.nodes, h.grows.params, h.grows.oldNodes, h.grows.oldParams⟩, h.live, h.canvas, h.placed,
    h.fresh, h.bare, h.apart, h.liveIds, h.order, h.partition, h.counts⟩

/-- The parameters of the placed nodes are there. -/
theorem params_lt (h : Placing g₀ renamed ids r g) : ∀ n ∈ r.nodes.map Prod.snd, ∀ p ∈ (g.node n).params,
    p.index < g.params.length :=
  fun n hn => h.live.params n (h.canvas ▸ List.mem_append_right _ hn)

/-- The next component is skipped. -/
theorem skip (h : Placing g₀ renamed ids r g) (id : String) :
    Placing g₀ renamed (ids ++ [id]) (r.skip (originalId renamed id)) g where
  grows := h.grows
  live := h.live
  canvas := h.canvas
  placed := h.placed
  fresh := h.fresh
  bare := h.bare
  apart := h.apart
  liveIds := h.liveIds
  order := h.order.trans (List.sublist_append_left _ _)
  partition := by
    obtain ⟨skipped, hskipped, hperm⟩ := h.partition
    refine ⟨skipped ++ [id], ?_, ?_⟩
    · rw [Rebuilt.skip, hskipped, List.map_append]
      rfl
    · rw [← List.append_assoc]
      exact hperm.append_right [id]
  counts := h.counts

/-- The next component is placed, as a node that was built for it. -/
theorem add (h : Placing g₀ renamed ids r g) {n : NodeRef} {k : NodeKind} {g' : Graph}
    (hbuilds : g.Builds n k g') {c : Component} (hid : c.id ∉ ids) (p : Position Float) :
    Placing g₀ renamed (ids ++ [c.id]) (r.add c n ((g'.place n p).node n).id) (g'.place n p) := by
  have hgrows := hbuilds.grows_place h.live p
  have hown := hbuilds.own_place h.live p
  have hkey : c.id ∉ r.nodes.map Prod.fst := fun hmem => hid (h.order.subset hmem)
  have hidkey : c.id ∉ r.ids.map Prod.fst := by
    rw [h.liveIds, List.map_map]
    exact hkey
  have hnodes : (r.add c n ((g'.place n p).node n).id).nodes = r.nodes ++ [(c.id, n)] :=
    Keyed.put_of_notMem n hkey
  have hids : (r.add c n ((g'.place n p).node n).id).ids =
      r.ids ++ [(c.id, ((g'.place n p).node n).id)] := Keyed.put_of_notMem _ hidkey
  -- nodes placed earlier are among what was there before this one
  have hsame : ∀ pair ∈ r.nodes, (g'.place n p).node pair.2 = g.node pair.2 := by
    intro pair hpair
    exact hgrows.oldNodes _ (h.placed pair.2 (List.mem_map_of_mem hpair))
  have hold : ∀ m ∈ r.nodes.map Prod.snd, (g'.place n p).node m = g.node m := fun m hm =>
    hgrows.oldNodes m (h.placed m hm)
  have hmem : ∀ m ∈ (r.add c n ((g'.place n p).node n).id).nodes.map Prod.snd,
      m ∈ r.nodes.map Prod.snd ∨ m = n := by
    intro m hm
    rw [hnodes, List.map_append, List.mem_append] at hm
    exact hm.imp_right List.mem_singleton.mp
  constructor
  case grows => exact h.grows.trans hgrows
  case live => exact hbuilds.live_place h.live p
  case canvas =>
    rw [hbuilds.canvas_place h.live, hnodes, List.map_append, ← List.append_assoc, ← h.canvas]
    rfl
  case placed =>
    intro m hm
    rcases hmem m hm with hm | rfl
    · exact Nat.lt_of_lt_of_le (h.placed m hm) hgrows.nodes
    · rw [hbuilds.place_eq h.live]
      simpa [Graph.updateNode, Graph.setNode] using hbuilds.index_lt
  case fresh =>
    intro m hm
    rcases hmem m hm with hm | rfl
    · rw [hold m hm]
      exact h.fresh m hm
    · exact ⟨hbuilds.handle ▸ h.grows.nodes, fun q hq => Nat.le_trans h.grows.params (hown q hq)⟩
  case bare =>
    intro m hm q hq
    rcases hmem m hm with hm | rfl
    · rw [hold m hm] at hq
      rw [hgrows.oldParams q (h.params_lt m hm q hq)]
      exact h.bare m hm q hq
    · exact hbuilds.bare_place h.live p q hq
  case apart =>
    -- parameters of the new node come after all others
    intro source hsource target htarget q hq hq'
    rcases hmem source hsource with hs | rfl <;> rcases hmem target htarget with ht | rfl
    · rw [hold source hs] at hq
      rw [hold target ht] at hq'
      exact h.apart source hs target ht q hq hq'
    · rw [hold source hs] at hq
      have hlt := h.params_lt source hs q (List.mem_append_right _ hq)
      exact absurd hlt (Nat.not_lt_of_le (hown q (List.mem_append_left _ hq')))
    · rw [hold target ht] at hq'
      have hlt := h.params_lt target ht q (List.mem_append_left _ hq')
      exact absurd hlt (Nat.not_lt_of_le (hown q (List.mem_append_right _ hq)))
    · exact hbuilds.parted_place h.live p q hq hq'
  case liveIds =>
    rw [hids, hnodes, h.liveIds, List.map_append]
    congr 1
    refine List.map_congr_left fun pair hpair => ?_
    rw [Prod.map, Prod.map, hsame pair hpair]
  case order =>
    rw [hnodes, List.map_append]
    exact h.order.append (List.Sublist.refl [c.id])
  case partition =>
    obtain ⟨skipped, hskipped, hperm⟩ := h.partition
    refine ⟨skipped, hskipped, ?_⟩
    rw [hnodes, List.map_append, List.append_assoc]
    refine (List.Perm.append_left _ List.perm_append_comm).trans ?_
    rw [← List.append_assoc]
    exact hperm.append_right [c.id]
  case counts => exact h.counts

end Placing

/-! ## All components -/

namespace Work

open Procedure

/-- Components with different ids are placed or skipped one after the other.  What is kept when one is skipped
and when one is placed is kept by all of it; it may depend on what is known of the nodes that are made. -/
theorem placeAll_keeps {b : Rebuilder} (hb : ∀ d ∈ b.properties, d.source.isOpen = true)
    (hhost : b.host = .live) {positions : List (String × Position Float)} {g₀ : Graph} {renamed : Renaming}
    {I : List Component → Rebuilt → Graph → Prop} {M : Component → NodeRef → Graph → Prop}
    (hmade : ∀ c, c.TypedFor b.catalog → ∀ g, (makeNode b c).Succeeds g fun made g' => ∀ n, made = some n → M c n g')
    (hskip : ∀ done c r g, I done r g → c.type? b.catalog = none →
      I (done ++ [c]) (r.skip (originalId renamed c.id)) g)
    (hadd : ∀ done ids c r g n k g' p, I done r g → Placing g₀ renamed ids r g → (∀ c' ∈ done, c'.id ≠ c.id) →
      (c.type? b.catalog).isSome = true → g.Builds n k g' → M c n g' →
      I (done ++ [c]) (r.add c n ((g'.place n p).node n).id) (g'.place n p))
    {cs : List Component} (hcs : ∀ c ∈ cs, c.TypedFor b.catalog)
    (hpositions : ∀ c ∈ cs, ∃ p, positions.lookup c.id = some p) {ids : List String}
    (hnodup : (ids ++ cs.map Component.id).Nodup) (done : List Component) (hdone : ∀ c ∈ done, c.id ∈ ids)
    {r : Rebuilt} {g : Graph} (hplacing : Placing g₀ renamed ids r g) (h : I done r g) :
    (placeAll b renamed positions r cs).Succeeds g fun r' g' =>
      Placing g₀ renamed (ids ++ cs.map Component.id) r' g' ∧ I (done ++ cs) r' g' := by
  induction cs generalizing ids done r g with
  | nil =>
      rw [List.map_nil, List.append_nil, List.append_nil]
      exact succeeds_pure ⟨hplacing, h⟩
  | cons c rest ih =>
      rw [List.map_cons, List.append_cons] at hnodup ⊢
      rw [List.append_cons done]
      have hid : c.id ∉ ids := by
        intro hmem
        have hdisjoint := (List.nodup_append.mp (List.Nodup.of_append_left hnodup)).2.2
        exact hdisjoint c.id hmem c.id (by simp) rfl
      have hdone' : ∀ c' ∈ done ++ [c], c'.id ∈ ids ++ [c.id] := by
        intro c' hc'
        rcases List.mem_append.mp hc' with hc' | hc'
        · exact List.mem_append_left _ (hdone c' hc')
        · rw [List.mem_singleton.mp hc']
          exact List.mem_append_right _ (List.mem_singleton_self _)
      -- what is left to do after this component, whatever became of it
      have hrest := fun r g (hplacing : Placing g₀ renamed (ids ++ [c.id]) r g) (h : I (done ++ [c]) r g) =>
        ih (fun c' hc' => hcs c' (by simp [hc'])) (fun c' hc' => hpositions c' (by simp [hc'])) hnodup _ hdone'
          hplacing h
      unfold placeAll
      refine ((makeNode_succeeds hb hhost (hcs c (by simp)) g).and (hmade c (hcs c (by simp)) g)).bind
        fun made g' h' => ?_
      obtain ⟨hbuilt, hmade'⟩ := h'
      cases made with
      | none =>
          obtain ⟨htype, hg'⟩ := hbuilt
          subst hg'
          exact hrest _ _ (hplacing.skip c.id) (hskip done c r g' h (by simpa using htype))
      | some n =>
          obtain ⟨htype, k, hbuilds⟩ := hbuilt
          obtain ⟨p, hp⟩ := hpositions c (by simp)
          refine succeeds_ofResult_bind (a := p) ?_ ?_
          · unfold positionOf
            rw [hp]
          refine (succeeds_update (Q := fun _ s' => s' = g'.place n p) rfl).andThen fun s' hs' => ?_
          subst hs'
          refine succeeds_graph_bind ?_
          have hnew : ∀ c' ∈ done, c'.id ≠ c.id := fun c' hc' heq => hid (heq ▸ hdone c' hc')
          exact hrest _ _ (hplacing.add hbuilds hid p)
            (hadd done ids c r g n k g' p h hplacing hnew htype hbuilds (hmade' n rfl))

/-- Those components are skipped whose type the catalog does not know. -/
theorem placeAll_places {b : Rebuilder} (hb : ∀ d ∈ b.properties, d.source.isOpen = true)
    (hhost : b.host = .live) {positions : List (String × Position Float)} {g₀ : Graph}
    (renamed : Renaming) {cs : List Component} (hcs : ∀ c ∈ cs, c.TypedFor b.catalog)
    (hpositions : ∀ c ∈ cs, ∃ p, positions.lookup c.id = some p) {ids : List String}
    (hnodup : (ids ++ cs.map Component.id).Nodup) {r : Rebuilt} {g : Graph}
    (h : Placing g₀ renamed ids r g) :
    (placeAll b renamed positions r cs).Succeeds g fun r' g' =>
      Placing g₀ renamed (ids ++ cs.map Component.id) r' g' ∧
        r'.skipped = r.skipped ++
          (cs.filter fun c => (c.type? b.catalog).isNone).map fun c => originalId renamed c.id := by
  refine placeAll_keeps (M := fun _ _ _ => True) (I := fun done r' _ => r'.skipped = r.skipped ++
      (done.filter fun c => (c.type? b.catalog).isNone).map fun c => originalId renamed c.id) hb hhost
    (fun c hc g => (makeNode_succeeds hb hhost hc g).mono fun _ _ _ _ _ => trivial) ?_ ?_ hcs hpositions hnodup
    [] (fun _ h => nomatch h) h (List.append_nil _).symm
  · intro done c r' g h htype
    rw [Rebuilt.skip, h, List.filter_append, List.map_append, List.append_assoc, List.filter_singleton, htype]
    rfl
  · intro done ids c r' g n k g' p h _ _ htype _ _
    rw [List.filter_append, List.filter_singleton, Option.isNone_eq_false_iff.mpr htype, cond_false, List.append_nil]
    exact h

theorem placeAll_succeeds {b : Rebuilder} (hb : ∀ d ∈ b.properties, d.source.isOpen = true)
    (hhost : b.host = .live) {positions : List (String × Position Float)} {g₀ : Graph}
    (renamed : Renaming) {cs : List Component} (hcs : ∀ c ∈ cs, c.Typed)
    (hpositions : ∀ c ∈ cs, ∃ p, positions.lookup c.id = some p) {ids : List String}
    (hnodup : (ids ++ cs.map Component.id).Nodup) {r : Rebuilt} {g : Graph}
    (h : Placing g₀ renamed ids r g) :
    (placeAll b renamed positions r cs).Succeeds g fun r' g' =>
      Placing g₀ renamed (ids ++ cs.map Component.id) r' g' :=
  (placeAll_places hb hhost renamed (fun c hc => (hcs c hc).typedFor b.catalog) hpositions hnodup
    h).mono fun _ _ h => h.1

end Work

end Patchbay
