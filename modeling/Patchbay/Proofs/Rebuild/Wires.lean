import Patchbay.Proofs.Canvas.Wiring
import Patchbay.Proofs.Distinct
import Patchbay.Proofs.Rebuild.Accounts
import Patchbay.Proofs.Rebuild.Labelling

/-!
# The wires of a rebuilt document

A rebuilt document is wired exactly as its connections say.

* `Connection.ends?` — the output and the input that a connection means
* **`Graph.Ready`** is what placing leaves behind: no placed node has a wire, and no output of one is
  an input of another.  The latter is load-bearing, since the one wire that a live host refuses is
  that of a parameter to itself.
* **`Wires`** is the invariant of wiring.  Names do not change on the way, so every endpoint means
  what it meant before the first wire was made (`Wires.ends?_eq`).
* **`Work.rebuild_follows`** follows a document through repair, placing and wiring, and says how each
  went (`Rebuilt.Follows`).
* **`Work.rebuild_wires`** — the result, said of the ids that the document has.
-/

namespace Patchbay

/-! ## What a connection means -/

/-- The output and the input that a connection means: its ends have names, its components were
placed, and their nodes have such parameters. -/
def Connection.ends? (c : Connection) (g : Graph) (nodes : List (String × NodeRef)) :
    Option (ParamRef × ParamRef) :=
  if c.source.name.truthy && c.target.name.truthy then do
    let source ← nodes.lookup c.source.id
    let target ← nodes.lookup c.target.id
    let s ← g.findSource? source c.source.paramName
    let t ← g.findTarget? target c.target.paramName
    return (s, t)
  else none

theorem Graph.mem_outputs_of_findSource? {g : Graph} {n : NodeRef} {name : String} {p : ParamRef}
    (h : g.findSource? n name = some p) : p ∈ (g.node n).outputs := by
  unfold findSource? at h
  rcases Option.or_eq_some_iff.mp h with h | ⟨-, h⟩
  · exact mem_of_findParam? h
  · exact mem_of_onlyParam? h

theorem Graph.mem_inputs_of_findTarget? {g : Graph} {n : NodeRef} {name : String} {p : ParamRef}
    (h : g.findTarget? n name = some p) : p ∈ (g.node n).inputs := by
  unfold findTarget? at h
  rcases Option.or_eq_some_iff.mp h with h | ⟨-, h⟩
  · exact mem_of_findParam? h
  · exact mem_of_onlyParam? h

namespace Connection

variable {c : Connection} {g : Graph} {nodes : List (String × NodeRef)} {s t : ParamRef}

theorem ends?_eq_some_iff : c.ends? g nodes = some (s, t) ↔
    c.source.name.truthy = true ∧ c.target.name.truthy = true ∧
      ∃ source target, nodes.lookup c.source.id = some source ∧
        nodes.lookup c.target.id = some target ∧ g.findSource? source c.source.paramName = some s ∧
        g.findTarget? target c.target.paramName = some t := by
  unfold ends?
  constructor
  · intro h
    split at h
    · next hnamed =>
      simp only [Option.bind_eq_bind, Option.bind_eq_some_iff, Option.pure_def, Option.some.injEq,
        Prod.mk.injEq] at h
      obtain ⟨source, hsource, target, htarget, s', hs, t', ht, rfl, rfl⟩ := h
      rw [Bool.and_eq_true] at hnamed
      exact ⟨hnamed.1, hnamed.2, source, target, hsource, htarget, hs, ht⟩
    · cases h
  · rintro ⟨hsource, htarget, source, target, hs, ht, hs', ht'⟩
    rw [hsource, htarget, hs, ht]
    simp [hs', ht']

/-- A connection means an output and an input of placed nodes. -/
theorem mem_of_ends? (h : c.ends? g nodes = some (s, t)) :
    (∃ n ∈ nodes.map Prod.snd, s ∈ (g.node n).outputs) ∧
      ∃ n ∈ nodes.map Prod.snd, t ∈ (g.node n).inputs := by
  obtain ⟨-, -, source, target, hsource, htarget, hs, ht⟩ := ends?_eq_some_iff.mp h
  exact ⟨⟨source, Keyed.mem_values_of_lookup hsource, Graph.mem_outputs_of_findSource? hs⟩,
    target, Keyed.mem_values_of_lookup htarget, Graph.mem_inputs_of_findTarget? ht⟩

/-- A connection between placed nodes that means something is complete: ids that are keys are not empty. -/
theorem isValid_of_ends? (hnamed : "" ∉ nodes.map Prod.fst) (h : c.ends? g nodes = some (s, t)) :
    c.isValid = true := by
  obtain ⟨hsource, htarget, source, target, hs, ht, -, -⟩ := ends?_eq_some_iff.mp h
  have hkey : ∀ {key : String} {n : NodeRef}, nodes.lookup key = some n → key.isEmpty = false := by
    intro key n hlookup
    refine Bool.eq_false_iff.mpr fun hempty => hnamed ?_
    rw [← String.isEmpty_iff.mp hempty]
    exact Keyed.mem_keys_of_lookup hlookup
  simp [isValid, Endpoint.isValid, hsource, htarget, hkey hs, hkey ht]

end Connection

/-- The inputs to which connections lead from an output, in the order of the connections. -/
def Connection.targets (g : Graph) (nodes : List (String × NodeRef)) (connections : List Connection)
    (s : ParamRef) : List ParamRef :=
  connections.filterMap fun c => (c.ends? g nodes).bind fun ends => if ends.1 = s then some ends.2 else none

namespace Connection

variable {g : Graph} {nodes : List (String × NodeRef)} {connections : List Connection} {s t : ParamRef}

theorem mem_targets : t ∈ targets g nodes connections s ↔ ∃ c ∈ connections, c.ends? g nodes = some (s, t) := by
  unfold targets
  simp only [List.mem_filterMap, Option.bind_eq_some_iff, Option.ite_none_right_eq_some, Option.some.injEq]
  constructor
  · rintro ⟨c, hc, ⟨a, b⟩, hends, rfl, rfl⟩
    exact ⟨c, hc, hends⟩
  · rintro ⟨c, hc, hends⟩
    exact ⟨c, hc, (s, t), hends, rfl, rfl⟩

theorem targets_concat (c : Connection) : targets g nodes (connections ++ [c]) s =
    targets g nodes connections s ++
      ((c.ends? g nodes).bind fun ends => if ends.1 = s then some ends.2 else none).toList := by
  unfold targets
  rw [List.filterMap_append]
  congr 1

/-- One more connection adds its target at the end, if it is no repetition. -/
theorem eraseDups_targets_concat {c : Connection} (hc : c.ends? g nodes = some (s, t)) (a : ParamRef) :
    (targets g nodes (connections ++ [c]) a).eraseDups = (targets g nodes connections a).eraseDups ++
      if a = s ∧ t ∉ targets g nodes connections s then [t] else [] := by
  rw [targets_concat, hc, Option.bind_some]
  by_cases ha : s = a
  · subst ha
    simp [eraseDups_concat]
  · simp [ha, Ne.symm ha]

end Connection

/-- The outputs from which connections lead to an input, in the order of the connections. -/
def Connection.origins (g : Graph) (nodes : List (String × NodeRef)) (connections : List Connection)
    (t : ParamRef) : List ParamRef :=
  connections.filterMap fun c => (c.ends? g nodes).bind fun ends => if ends.2 = t then some ends.1 else none

namespace Connection

variable {g : Graph} {nodes : List (String × NodeRef)} {connections : List Connection} {s t : ParamRef}

theorem mem_origins : s ∈ origins g nodes connections t ↔ ∃ c ∈ connections, c.ends? g nodes = some (s, t) := by
  unfold origins
  simp only [List.mem_filterMap, Option.bind_eq_some_iff, Option.ite_none_right_eq_some, Option.some.injEq]
  constructor
  · rintro ⟨c, hc, ⟨a, b⟩, hends, rfl, rfl⟩
    exact ⟨c, hc, hends⟩
  · rintro ⟨c, hc, hends⟩
    exact ⟨c, hc, (s, t), hends, rfl, rfl⟩

theorem origins_concat (c : Connection) : origins g nodes (connections ++ [c]) t =
    origins g nodes connections t ++
      ((c.ends? g nodes).bind fun ends => if ends.2 = t then some ends.1 else none).toList := by
  unfold origins
  rw [List.filterMap_append]
  congr 1

/-- One more connection adds its source at the end, if it is no repetition. -/
theorem eraseDups_origins_concat {c : Connection} (hc : c.ends? g nodes = some (s, t)) (b : ParamRef) :
    (origins g nodes (connections ++ [c]) b).eraseDups = (origins g nodes connections b).eraseDups ++
      if b = t ∧ s ∉ origins g nodes connections b then [s] else [] := by
  rw [origins_concat, hc, Option.bind_some]
  by_cases hb : t = b
  · subst hb
    simp [eraseDups_concat]
  · simp [hb, Ne.symm hb]

end Connection

/-! ## The invariant of wiring -/

namespace Graph

/-- Nodes that are ready to be wired: they have no wires yet, and no parameter is an output of one and
an input of another. -/
structure Ready (g : Graph) (nodes : List (String × NodeRef)) : Prop where
  named : "" ∉ nodes.map Prod.fst
  range : ∀ n ∈ nodes.map Prod.snd, ∀ p ∈ (g.node n).params, p.index < g.params.length
  bare : ∀ n ∈ nodes.map Prod.snd, ∀ p ∈ (g.node n).params,
    (g.param p).sources = [] ∧ (g.param p).recipients = []
  apart : ∀ n ∈ nodes.map Prod.snd, ∀ m ∈ nodes.map Prod.snd, ∀ p ∈ (g.node n).outputs,
    p ∉ (g.node m).inputs

end Graph

/-- The graph has exactly the wires of some connections more than the one before. -/
structure Wires (before : Graph) (placed : List (String × NodeRef)) (done : List Connection)
    (g : Graph) : Prop where
  nodes : g.nodes = before.nodes
  length : g.params.length = before.params.length
  same : ∀ p, (before.param p).SameButWires (g.param p)
  sources : ∀ s t, s ∈ (g.param t).sources ↔
    s ∈ (before.param t).sources ∨ ∃ c ∈ done, c.ends? before placed = some (s, t)
  recipients : ∀ s t, t ∈ (g.param s).recipients ↔
    t ∈ (before.param s).recipients ∨ ∃ c ∈ done, c.ends? before placed = some (s, t)
  /-- Wires keep the order of the connections, each being made once. -/
  order : ∀ s, (g.param s).recipients =
    (before.param s).recipients ++ (Connection.targets before placed done s).eraseDups
  /-- And so they do at their other ends. -/
  sourceOrder : ∀ t, (g.param t).sources =
    (before.param t).sources ++ (Connection.origins before placed done t).eraseDups

namespace Wires

variable {before g g' : Graph} {nodes : List (String × NodeRef)} {done : List Connection}

theorem refl (g : Graph) (nodes : List (String × NodeRef)) : Wires g nodes [] g where
  nodes := rfl
  length := rfl
  same := fun p => .refl _
  sources := fun s t => by simp
  recipients := fun s t => by simp
  order := fun s => (List.append_nil _).symm
  sourceOrder := fun t => (List.append_nil _).symm

theorem node (h : Wires before nodes done g) (n : NodeRef) : g.node n = before.node n := by
  unfold Graph.node
  rw [h.nodes]

/-- Every connection means what it meant before. -/
theorem ends?_eq (h : Wires before nodes done g) (c : Connection) :
    c.ends? g nodes = c.ends? before nodes := by
  have hfind : ∀ params name, g.findParam? params name = before.findParam? params name := by
    intro params name
    unfold Graph.findParam?
    simp only [(h.same _).name, (h.same _).nickName]
  have hsource : ∀ n name, g.findSource? n name = before.findSource? n name := by
    intro n name
    unfold Graph.findSource? Graph.findOutput?
    rw [h.node n, hfind]
  have htarget : ∀ n name, g.findTarget? n name = before.findTarget? n name := by
    intro n name
    unfold Graph.findTarget? Graph.findInput?
    rw [h.node n, hfind]
  unfold Connection.ends?
  simp only [hsource, htarget]

/-- One more connection that means nothing. -/
theorem pass (h : Wires before nodes done g) {c : Connection} (hc : c.ends? before nodes = none) :
    Wires before nodes (done ++ [c]) g := by
  have hdone : ∀ s t, (∃ c' ∈ done ++ [c], c'.ends? before nodes = some (s, t)) ↔
      ∃ c' ∈ done, c'.ends? before nodes = some (s, t) := by
    intro s t
    simp [List.mem_append, or_and_right, exists_or, hc]
  refine ⟨h.nodes, h.length, h.same, fun s t => ?_, fun s t => ?_, fun s => ?_, fun t => ?_⟩
  · rw [hdone]
    exact h.sources s t
  · rw [hdone]
    exact h.recipients s t
  · rw [Connection.targets_concat, hc, Option.bind_none, Option.toList_none, List.append_nil]
    exact h.order s
  · rw [Connection.origins_concat, hc, Option.bind_none, Option.toList_none, List.append_nil]
    exact h.sourceOrder t

/-- One more connection, by the wire it means. -/
theorem connect (h : Wires before nodes done g) (hready : before.Ready nodes) {c : Connection}
    {s t : ParamRef} (hc : c.ends? before nodes = some (s, t)) (hconnect : g.connect s t = .ok g') :
    Wires before nodes (done ++ [c]) g' := by
  obtain ⟨⟨n, hn, hs⟩, m, hm, ht⟩ := Connection.mem_of_ends? hc
  have hs' := hready.range n hn s (List.mem_append_right _ hs)
  have ht' := hready.range m hm t (List.mem_append_left _ ht)
  have hslt : s.index < g.params.length := h.length ▸ hs'
  have htlt : t.index < g.params.length := h.length ▸ ht'
  have hdone : ∀ a b, (∃ c' ∈ done ++ [c], c'.ends? before nodes = some (a, b)) ↔
      (∃ c' ∈ done, c'.ends? before nodes = some (a, b)) ∨ (a = s ∧ b = t) := by
    intro a b
    simp [List.mem_append, or_and_right, exists_or, hc, eq_comm]
  -- a wire that is there was made for a connection, and so is recorded at both ends
  have hold : s ∈ (g.param t).sources ↔ ∃ c' ∈ done, c'.ends? before nodes = some (s, t) := by
    rw [h.sources, (hready.bare m hm t (List.mem_append_left _ ht)).1]
    exact or_iff_right List.not_mem_nil
  have hwhole : s ∈ (g.param t).sources → t ∈ (g.param s).recipients :=
    fun hmem => (h.recipients s t).mpr (Or.inr (hold.mp hmem))
  have hrewired : Graph.Rewired 0 g g' :=
    Graph.rewired_connect hconnect (Nat.zero_le _) (Nat.zero_le _)
  constructor
  case nodes => exact hrewired.nodes.trans h.nodes
  case length => exact hrewired.length.trans h.length
  case same => exact fun p => (h.same p).trans (Graph.same_connect hconnect hslt htlt p)
  case sources =>
    intro a b
    rw [Graph.sources_connect hconnect hslt htlt, h.sources, hdone, or_assoc]
  case recipients =>
    intro a b
    rw [Graph.recipients_connect hconnect hslt htlt hwhole, h.recipients, hdone, or_assoc]
  case order =>
    intro a
    rw [Graph.recipients_connect_eq hconnect hslt htlt, Connection.eraseDups_targets_concat hc,
      ← List.append_assoc, ← h.order a]
    simp only [hold, Connection.mem_targets]
  case sourceOrder =>
    intro b
    rw [Graph.sources_connect_eq hconnect hslt htlt, Connection.eraseDups_origins_concat hc,
      ← List.append_assoc, ← h.sourceOrder b]
    refine congrArg _ (if_congr (and_congr_right fun hb => not_congr ?_) rfl rfl)
    rw [hb, Connection.mem_origins, hold]

end Wires

/-! ## Wiring -/

namespace Work

open Procedure

variable {g : Graph} {nodes : List (String × NodeRef)}

/-- A connection is given up in the same way whatever the reason. -/
theorem pass_ends {done : List Connection} {g' : Graph} (h : Wires g nodes done g') {c : Connection}
    (hc : ∀ s t, c.ends? g nodes ≠ some (s, t)) (level : Level) (message : List Piece) :
    Succeeds (do
      report level message
      return false) g' fun made g'' =>
        Wires g nodes (done ++ [c]) g'' ∧ made = (c.ends? g nodes).isSome := by
  have hnone : c.ends? g nodes = none := Option.eq_none_iff_forall_not_mem.mpr fun (s, t) => hc s t
  refine (succeeds_report (Q := fun _ s => s = g') rfl).andThen fun s hs => ?_
  subst hs
  exact succeeds_pure ⟨h.pass hnone, by rw [hnone]; rfl⟩

/-- A connection is made if it means an output and an input, and given up if it does not. -/
theorem wire_ends (hready : g.Ready nodes) {done : List Connection} {g' : Graph}
    (h : Wires g nodes done g') (c : Connection) :
    (wire .live nodes c).Succeeds g' fun made g'' =>
      Wires g nodes (done ++ [c]) g'' ∧ made = (c.ends? g nodes).isSome := by
  have hends := h.ends?_eq c
  unfold wire
  split
  · next hinvalid =>
    refine pass_ends h (fun s t hmeans => ?_) _ _
    rw [Connection.isValid_of_ends? hready.named hmeans] at hinvalid
    cases hinvalid
  · next hvalid =>
    have hnamed : c.source.name.truthy = true ∧ c.target.name.truthy = true := by
      simp [Connection.isValid, Endpoint.isValid] at hvalid
      exact ⟨hvalid.1.2, hvalid.2.2⟩
    split
    · next source target hsource htarget =>
      unfold wireNodes
      refine succeeds_graph_bind ?_
      split
      · next s t hs ht =>
        have hmeans : c.ends? g nodes = some (s, t) := by
          rw [← hends]
          exact Connection.ends?_eq_some_iff.mpr
            ⟨hnamed.1, hnamed.2, source, target, hsource, htarget, hs, ht⟩
        obtain ⟨⟨n, hn, hout⟩, m, hm, hin⟩ := Connection.mem_of_ends? hmeans
        have hne : s ≠ t := by
          rintro rfl
          exact hready.apart n hn m hm s hout hin
        obtain ⟨g'', hconnect⟩ := g'.exists_connect hne
        refine Succeeds.recover ?_
        refine (succeeds_ofResult (Q := fun a _ => a = g'') hconnect rfl).bind fun a s' ha => ?_
        subst ha
        refine (succeeds_set (Q := fun _ s => s = a) rfl).andThen fun s hs => ?_
        subst hs
        exact succeeds_pure ⟨h.connect hready hmeans hconnect, by rw [hmeans]; rfl⟩
      · next hmissing =>
        refine pass_ends h (fun s t hmeans => ?_) _ _
        rw [← hends] at hmeans
        obtain ⟨-, -, source', target', hsource', htarget', hs, ht⟩ :=
          Connection.ends?_eq_some_iff.mp hmeans
        rw [hsource] at hsource'
        rw [htarget] at htarget'
        cases hsource'
        cases htarget'
        exact hmissing s t hs ht
    · next hunplaced =>
      refine pass_ends h (fun s t hmeans => ?_) _ _
      obtain ⟨-, -, source, target, hsource, htarget, -, -⟩ := Connection.ends?_eq_some_iff.mp hmeans
      exact hunplaced source target hsource htarget

/-- All connections: those that mean something are made, whatever stands between them. -/
theorem wireAll_ends {r : Rebuilt} (hready : g.Ready r.nodes) (done todo : List Connection) {g' : Graph}
    (h : Wires g r.nodes done g') :
    (wireAll .live r todo).Succeeds g' fun r' g'' => Wires g r.nodes (done ++ todo) g'' ∧
      r' = { r with
        made := r.made + todo.countP fun c => (c.ends? g r.nodes).isSome
        dropped := r.dropped + todo.countP fun c => (c.ends? g r.nodes).isNone } := by
  induction todo generalizing r done g' with
  | nil =>
      refine succeeds_pure ⟨?_, rfl⟩
      rwa [List.append_nil]
  | cons c rest ih =>
      unfold wireAll
      refine (wire_ends hready h c).bind fun made g'' hwired => ?_
      obtain ⟨hwires, hmade⟩ := hwired
      have hnodes : (if made then r.wired else r.gaveUp).nodes = r.nodes := by split <;> rfl
      rw [← hnodes] at hready hwires
      refine (ih hready (done ++ [c]) hwires).mono fun r' g''' hrest => ?_
      obtain ⟨hwires', hr'⟩ := hrest
      rw [hnodes, List.append_assoc] at hwires'
      refine ⟨hwires', ?_⟩
      rw [hr', hnodes]
      cases hends : c.ends? g r.nodes with
      | some ends =>
          rw [hends] at hmade
          subst hmade
          simp [Rebuilt.wired, hends, Nat.add_assoc, Nat.add_comm 1]
      | none =>
          rw [hends] at hmade
          subst hmade
          simp [Rebuilt.gaveUp, hends, Nat.add_assoc, Nat.add_comm 1]

end Work

/-! ## The whole document -/

/-- The ids that a document uses: those of its components, and those at the ends of its connections.
The empty one is among them, so that no replacement is empty. -/
def Document.usedIds (d : Document) : List String :=
  "" :: d.components.map Component.id ++ d.connections.flatMap fun c => [c.source.id, c.target.id]

namespace Document

variable {d : Document}

theorem componentIds_subset (d : Document) : d.components.map Component.id ⊆ d.usedIds :=
  fun _ h => List.mem_append_left _ (List.mem_cons_of_mem _ h)

theorem source_mem_usedIds {c : Connection} (hc : c ∈ d.connections) : c.source.id ∈ d.usedIds :=
  List.mem_append_right _ (List.mem_flatMap.mpr ⟨c, hc, by simp⟩)

theorem target_mem_usedIds {c : Connection} (hc : c ∈ d.connections) : c.target.id ∈ d.usedIds :=
  List.mem_append_right _ (List.mem_flatMap.mpr ⟨c, hc, by simp⟩)

end Document

/-- What became of a document, told by what the catalog knows and what its connections mean. -/
structure Rebuilt.Follows (catalog : Catalog) (d : Document) (before : Graph) (r : Rebuilt)
    (after : Graph) : Prop where
  /-- A component is skipped if the catalog does not know its type, and placed if it does. -/
  skipped : r.skipped = (d.components.filter fun c => (c.type? catalog).isNone).map Component.id
  placed : ∀ c ∈ d.components, (c.type? catalog).isSome = true → ∃ n, r.nodes.lookup c.id = some n
  labelled : r.Labelled catalog d.components after
  made : r.made = d.connections.countP fun c => (c.ends? after r.nodes).isSome
  dropped : r.dropped = d.connections.countP fun c => (c.ends? after r.nodes).isNone
  sources : ∀ n ∈ r.nodes.map Prod.snd, ∀ t ∈ (after.node n).params, ∀ s,
    s ∈ (after.param t).sources ↔ ∃ c ∈ d.connections, c.ends? after r.nodes = some (s, t)
  recipients : ∀ n ∈ r.nodes.map Prod.snd, ∀ s ∈ (after.node n).params, ∀ t,
    t ∈ (after.param s).recipients ↔ ∃ c ∈ d.connections, c.ends? after r.nodes = some (s, t)
  undisturbed : ∀ n ∈ before.canvas, after.node n = before.node n ∧
    ∀ p ∈ (before.node n).params, after.param p = before.param p

theorem Placing.ready {before g : Graph} {renamed : Renaming} {ids : List String} {r : Rebuilt}
    (h : Placing before renamed ids r g) (hnamed : "" ∉ ids) : g.Ready r.nodes where
  named := fun hmem => hnamed (h.order.subset hmem)
  range := h.params_lt
  bare := h.bare
  apart := h.apart

/-- What is known after placing and wiring a repaired document, said of the document itself. -/
theorem Rebuilt.follows {catalog : Catalog} {d : Document} {before placedOn after : Graph}
    {renamed : Renaming} {placed : Rebuilt} {made dropped : Nat} (hlive : before.Live)
    (hids : (d.components.map Component.id).Nodup) (hproper : renamed.Proper d.usedIds)
    (hplacing : Placing before renamed ((d.components.map Component.id).map (newId renamed)) placed
      placedOn)
    (hskipped : placed.skipped =
      (d.components.filter fun c => (c.type? catalog).isNone).map Component.id)
    (hlabelled : ∀ c ∈ d.components, ∀ t, c.type? catalog = some t → ∀ n,
      placed.nodes.lookup (newId renamed c.id) = some n → placedOn.Labels n t c)
    (hrewired : placedOn.Rewired before.params.length after)
    (hwires : Wires placedOn placed.nodes (d.connections.map (·.rename renamed)) after)
    (hmade : made = (d.connections.map (·.rename renamed)).countP fun c =>
      (c.ends? placedOn placed.nodes).isSome)
    (hdropped : dropped = (d.connections.map (·.rename renamed)).countP fun c =>
      (c.ends? placedOn placed.nodes).isNone) :
    ({ placed with made, dropped }.restoreIds renamed).Follows catalog d before after := by
  have hused := d.componentIds_subset
  rw [restoreIds_eq]
  -- a connection means the same under the old ids
  have hends : ∀ c ∈ d.connections, c.ends? after (restoreKeys placed.nodes renamed) =
      (c.rename renamed).ends? placedOn placed.nodes := by
    intro c hc
    rw [← hwires.ends?_eq]
    unfold Connection.ends?
    rw [hplacing.lookup_restored hproper hused hids (Document.source_mem_usedIds hc),
      hplacing.lookup_restored hproper hused hids (Document.target_mem_usedIds hc)]
    rfl
  have hcount : ∀ test : Option (ParamRef × ParamRef) → Bool,
      ((d.connections.map (·.rename renamed)).countP fun c => test (c.ends? placedOn placed.nodes)) =
        d.connections.countP fun c => test (c.ends? after (restoreKeys placed.nodes renamed)) := by
    intro test
    rw [List.countP_map]
    refine List.countP_congr fun c hc => ?_
    rw [Function.comp_apply, hends c hc]
  have hmeant : ∀ s t, (∃ c ∈ d.connections.map (·.rename renamed),
      c.ends? placedOn placed.nodes = some (s, t)) ↔
        ∃ c ∈ d.connections, c.ends? after (restoreKeys placed.nodes renamed) = some (s, t) := by
    intro s t
    constructor
    · rintro ⟨_, hrenamed, hst⟩
      obtain ⟨c, hc, rfl⟩ := List.mem_map.mp hrenamed
      exact ⟨c, hc, (hends c hc).trans hst⟩
    · rintro ⟨c, hc, hst⟩
      exact ⟨_, List.mem_map_of_mem hc, (hends c hc).symm.trans hst⟩
  constructor
  case skipped => exact hskipped
  case placed =>
    intro c hc htype
    refine hplacing.exists_lookup_restored hproper hused hids (List.mem_map_of_mem hc) fun hmem => ?_
    -- those that were skipped have other ids, and types that are not known
    rw [hskipped] at hmem
    obtain ⟨c', hc', hid⟩ := List.mem_map.mp hmem
    obtain ⟨hc', hunknown⟩ := List.mem_filter.mp hc'
    rw [List.inj_on_of_nodup_map hids hc' hc hid, Option.isNone_iff_eq_none] at hunknown
    rw [hunknown] at htype
    cases htype
  case labelled =>
    intro c hc t ht n hn
    dsimp only at hn
    rw [hplacing.lookup_restored hproper hused hids (hused (List.mem_map_of_mem hc))] at hn
    exact (hlabelled c hc t ht n hn).congr (.of_eq (hwires.node n)) (fun p _ => hwires.same p) ⟨rfl, rfl⟩
  case made =>
    rw [hmade]
    exact hcount Option.isSome
  case dropped =>
    rw [hdropped]
    exact hcount Option.isNone
  case sources =>
    intro n hn t ht s
    have hplaced := (hplacing.mem_restored hproper hused hids).mp hn
    rw [hwires.node n] at ht
    rw [hwires.sources, (hplacing.bare n hplaced t ht).1, hmeant]
    simp
  case recipients =>
    intro n hn s hs t
    have hplaced := (hplacing.mem_restored hproper hused hids).mp hn
    rw [hwires.node n] at hs
    rw [hwires.recipients, (hplacing.bare n hplaced s hs).2, hmeant]
    simp
  case undisturbed => exact fun n hn => hplacing.undisturbed hlive hrewired hn

namespace Work

open Procedure

/-- Repair, placing and wiring of a document, one after the other. -/
theorem rebuild_follows (catalog : Catalog) {d : Document} {g : Graph} (hlive : g.Live)
    (htyped : ∀ c ∈ d.components, c.TypedFor catalog) (hids : (d.components.map Component.id).Nodup)
    (hfresh : g.ids.FreshFor d.usedIds) :
    (rebuild ⟨catalog, .live, .full, .standard⟩ d).Succeeds g fun r g' => r.Follows catalog d g g' := by
  have hused := d.componentIds_subset
  refine rebuild_of_phases (repair_renames hused hfresh)
    fun d' renamed s ⟨hproper, hsettles, ⟨pivots, hcomponents⟩, hconnections, ids, hs⟩ => ?_
  subst hs
  have hnewIds : d'.components.map Component.id =
      (d.components.map Component.id).map (newId renamed) := by
    rw [hcomponents, List.map_map, List.map_map]
    rfl
  have htyped' : ∀ c ∈ d'.components, c.TypedFor catalog := by
    intro c hc t ht hscript
    rw [hcomponents] at hc
    obtain ⟨c', hc', rfl⟩ := List.mem_map.mp hc
    exact ⟨(htyped c' hc' t ht hscript).inputs, (htyped c' hc' t ht hscript).outputs⟩
  have hnodup : ([] ++ d'.components.map Component.id).Nodup := by
    rw [List.nil_append, hnewIds]
    exact Placing.nodup_newIds hproper hused hids
  have hlive' := hlive.withIds ids
  obtain ⟨bounds, hbounds⟩ := hlive'.bounds
  have hpositions := fun c hc => d'.exists_placement_lookup .default bounds (c := c) hc
  have hnone := Placing.none hlive' renamed
  refine ⟨bounds, hbounds, ((placeAll_places PropertyTable.isOpen_standard rfl renamed htyped' hpositions hnodup
    hnone).and (placeAll_labels PropertyTable.isOpen_standard rfl rfl htyped' hpositions hnodup hnone)).mono
    fun placed s ⟨⟨hplacing, hskipped⟩, hlabelled⟩ => ?_⟩
  rw [List.nil_append, hnewIds] at hplacing
  have hskipped' : placed.skipped =
      (d.components.filter fun c => (c.type? catalog).isNone).map Component.id := by
    have htype : ((fun c : Component => (c.type? catalog).isNone) ∘ fun c : Component =>
        { c with id := newId renamed c.id, pivot := pivots c }) = fun c => (c.type? catalog).isNone := rfl
    rw [hskipped, hcomponents, List.filter_map, htype, List.map_map]
    refine List.map_congr_left fun c hc => ?_
    exact hproper.originalId_newId (hused (List.mem_map_of_mem (List.mem_filter.mp hc).1))
  have hlabelled' : ∀ c ∈ d.components, ∀ t, c.type? catalog = some t → ∀ n,
      placed.nodes.lookup (newId renamed c.id) = some n → s.Labels n t c := by
    intro c hc t ht n hn
    have hmem : { c with id := newId renamed c.id, pivot := pivots c } ∈ d'.components :=
      hcomponents ▸ List.mem_map_of_mem hc
    exact (hlabelled _ hmem t ht n hn).congr (.of_eq rfl) (fun _ _ => .refl _) ⟨rfl, rfl⟩
  have hnamed : "" ∉ (d.components.map Component.id).map (newId renamed) := by
    intro hmem
    obtain ⟨id, hid, hempty⟩ := List.mem_map.mp hmem
    obtain ⟨c, hc, rfl⟩ := List.mem_map.mp hid
    exact (hsettles c hc).newId_ne_empty hproper List.mem_cons_self hempty
  refine ((wireAll_succeeds placed d'.connections fun n hn => (hplacing.fresh n hn).2).and
    (wireAll_ends (hplacing.ready hnamed) [] d'.connections (.refl s placed.nodes))).mono
    fun wired s' ⟨⟨hrewired, _⟩, hwires, hwired⟩ => ?_
  rw [hplacing.counts.1, hplacing.counts.2, Nat.zero_add, Nat.zero_add] at hwired
  rw [List.nil_append] at hwires
  rw [hconnections] at hwires hwired
  subst hwired
  exact Rebuilt.follows hlive hids hproper hplacing.forgetIds hskipped' hlabelled' hrewired hwires rfl rfl

/-- **A rebuilt document has exactly the wires that its connections mean.**  An output feeds an input of
a placed node if and only if some connection has names at both ends, the components with the ids of
its ends were placed, and its names mean this output and this input on their nodes; and it is
recorded so at both ends.  A connection that means nothing does not matter to the others, and what was
on the canvas keeps the wires that it had. -/
theorem rebuild_wires (catalog : Catalog) {d : Document} {g : Graph} (hlive : g.Live)
    (htyped : d.Typed) (hids : (d.components.map Component.id).Nodup)
    (hfresh : g.ids.FreshFor d.usedIds) :
    (rebuild ⟨catalog, .live, .full, .standard⟩ d).Succeeds g fun r g' =>
      (∀ n ∈ r.nodes.map Prod.snd, ∀ t ∈ (g'.node n).params, ∀ s, s ∈ (g'.param t).sources ↔
        ∃ c ∈ d.connections, c.ends? g' r.nodes = some (s, t)) ∧
      (∀ n ∈ r.nodes.map Prod.snd, ∀ s ∈ (g'.node n).params, ∀ t, t ∈ (g'.param s).recipients ↔
        ∃ c ∈ d.connections, c.ends? g' r.nodes = some (s, t)) ∧
      (∀ (c : Connection) (s t : ParamRef), c.ends? g' r.nodes = some (s, t) →
        (∃ n ∈ r.nodes.map Prod.snd, s ∈ (g'.node n).outputs) ∧
          ∃ n ∈ r.nodes.map Prod.snd, t ∈ (g'.node n).inputs) ∧
      ∀ n ∈ g.canvas, g'.node n = g.node n ∧ ∀ p ∈ (g.node n).params, g'.param p = g.param p :=
  (rebuild_follows catalog hlive (fun c hc => (htyped c hc).typedFor catalog) hids hfresh).mono fun _ _ h =>
    ⟨h.sources, h.recipients, fun _ _ _ hends => Connection.mem_of_ends? hends, h.undisturbed⟩

/-- A catalog of numbers and their addition. -/
def numberTypes : Catalog :=
  [Catalog.floatingType "number" "Number",
    Catalog.plainType "addition" "Addition" "Maths" [.item "A" "Number" true, .item "B" "Number" true]
      [.item "Result" "Number" false]].foldl (fun c t => (c.register t).value) .empty

/-- A number without an id feeds an addition. -/
def unnamedNumber : Document where
  components :=
    [{ name := .str "Number", typeKey := .str "number", id := "", pivot := none, selected := false,
       properties := [], inputs := [], outputs := [], warnings := [], errors := [] },
     { name := .str "Addition", typeKey := .str "addition", id := "sum", pivot := none,
       selected := false, properties := [], inputs := [], outputs := [], warnings := [], errors := [] }]
  connections := [⟨⟨"", .str "Number"⟩, ⟨"sum", .str "A"⟩⟩]

theorem unnamedNumber_typed : unnamedNumber.Typed := Document.typed_of_bare (by decide)

theorem rebuild_wires_unnamed :
    (rebuild ⟨numberTypes, .live, .full, .standard⟩ unnamedNumber).Succeeds occupied fun r g' =>
      ∀ n ∈ r.nodes.map Prod.snd, ∀ t ∈ (g'.node n).params, ∀ s, s ∈ (g'.param t).sources ↔
        ∃ c ∈ unnamedNumber.connections, c.ends? g' r.nodes = some (s, t) :=
  (rebuild_wires numberTypes occupied_live unnamedNumber_typed (by decide) (occupied_freshFor (by decide))).mono
    fun _ _ h => h.1

/-- Ids need not be there for a wire: the empty id counts as the id of the component that has it. -/
theorem unnamedNumber_wired :
    (rebuild ⟨numberTypes, .live, .full, .standard⟩ unnamedNumber).Succeeds occupied fun r g' =>
      ∃ s t, (∃ n ∈ r.nodes.map Prod.snd, s ∈ (g'.node n).outputs) ∧
        (∃ n ∈ r.nodes.map Prod.snd, t ∈ (g'.node n).inputs) ∧ s ∈ (g'.param t).sources ∧
        ¬ ∃ c ∈ unnamedNumber.connections, c.source.id ≠ "" ∧ c.target.id ≠ "" ∧
          c.ends? g' r.nodes = some (s, t) := by
  have hmade : (((rebuild ⟨numberTypes, .live, .full, .standard⟩ unnamedNumber).result
      occupied).1.toOption.map Rebuilt.made) = some 1 := by decide +kernel
  obtain ⟨r, g', hresult, hfollows⟩ :=
    rebuild_follows numberTypes occupied_live
      (fun c hc => (unnamedNumber_typed c hc).typedFor numberTypes) (by decide) (occupied_freshFor (by decide))
  rw [hresult] at hmade
  have hcount := hfollows.made.symm.trans (Option.some.inj hmade)
  obtain ⟨c, hc, hsome⟩ := List.countP_pos_iff.mp (hcount ▸ Nat.one_pos)
  obtain ⟨⟨s, t⟩, hends⟩ := Option.isSome_iff_exists.mp hsome
  obtain ⟨hs, m, hm, ht⟩ := Connection.mem_of_ends? hends
  refine ⟨r, g', hresult, s, t, hs, ⟨m, hm, ht⟩, ?_, ?_⟩
  · exact (hfollows.sources m hm t (List.mem_append_left _ ht) s).mpr ⟨c, hc, hends⟩
  · rintro ⟨c', hc', hid, -⟩
    rw [List.mem_singleton.mp hc'] at hid
    exact hid rfl

end Work

end Patchbay
