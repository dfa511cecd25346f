import Patchbay.Proofs.Rebuild.Placing

/-!
# Wiring never fails

* **`Graph.Rewired`** is all that wiring does to a graph: the nodes and the canvas stay, and so do all
  parameters before a place.
* **`Work.wire_succeeds`** — a connection that is incomplete, that has an end nowhere, or that the
  host refuses is given up, and the work goes on.
* **`Work.wireAll_succeeds`** — each connection is counted once, as made or as given up.
-/

namespace Patchbay

/-! ## What wiring changes -/

/-- The graphs differ in parameters from a place on, and in nothing else. -/
structure Graph.Rewired (first : Nat) (g g' : Graph) : Prop where
  nodes : g'.nodes = g.nodes
  canvas : g'.canvas = g.canvas
  length : g'.params.length = g.params.length
  params : ∀ p : ParamRef, p.index < first → g'.param p = g.param p

namespace Graph.Rewired

variable {first : Nat} {g g' g'' : Graph}

theorem refl (first : Nat) (g : Graph) : Rewired first g g := ⟨rfl, rfl, rfl, fun _ _ => rfl⟩

theorem trans (h : Rewired first g g') (h' : Rewired first g' g'') : Rewired first g g'' where
  nodes := h'.nodes.trans h.nodes
  canvas := h'.canvas.trans h.canvas
  length := h'.length.trans h.length
  params := fun p hp => (h'.params p hp).trans (h.params p hp)

theorem node (h : Rewired first g g') (n : NodeRef) : g'.node n = g.node n := by
  unfold Graph.node
  rw [h.nodes]

theorem updateParam (g : Graph) {p : ParamRef} (f : Parameter → Parameter) (hp : first ≤ p.index) :
    Rewired first g (g.updateParam p f) where
  nodes := rfl
  canvas := rfl
  length := by simp [Graph.updateParam, setParam]
  params := by
    intro q hq
    have hne : q ≠ p := by
      rintro rfl
      exact absurd hp (Nat.not_le_of_lt hq)
    exact param_setParam_of_ne g _ hne

/-- A live graph with other wires is live. -/
theorem live (h : Rewired first g g') (hlive : g.Live) : g'.Live := by
  refine ⟨?_, ?_, ?_⟩ <;> rw [h.canvas]
  · rw [h.nodes]
    exact hlive.nodes
  · intro n hn
    rw [h.node n, h.length]
    exact hlive.params n hn
  · intro n hn
    rw [h.node n]
    exact hlive.pivots n hn

end Graph.Rewired

theorem Graph.rewired_connect {g g' : Graph} {source target : ParamRef} {first : Nat}
    (h : g.connect source target = .ok g') (hsource : first ≤ source.index)
    (htarget : first ≤ target.index) : Rewired first g g' := by
  unfold connect at h
  split at h
  · cases h
  · split at h
    · cases h
      exact .refl first g
    · cases h
      exact (Rewired.updateParam g _ htarget).trans (.updateParam _ _ hsource)

/-- The one wire that is refused is the one from a parameter to itself. -/
theorem Graph.connect_fault {g : Graph} {source target : ParamRef} {fault : Fault}
    (h : g.connect source target = .error fault) : Work.isWireRefusal fault = true := by
  unfold connect at h
  split at h
  · cases h
    rfl
  · split at h <;> cases h

/-! ## Endpoints -/

namespace Graph

variable {g : Graph} {n : NodeRef} {name : String} {p : ParamRef}

theorem mem_of_onlyParam? {v : Node} {params : List ParamRef} (h : onlyParam? v params = some p) :
    p ∈ params := by
  unfold onlyParam? at h
  split at h
  · split at h
    · cases h
      exact List.mem_singleton_self p
    · cases h
  · cases h

theorem mem_of_findSource? (h : g.findSource? n name = some p) : p ∈ (g.node n).params := by
  unfold findSource? at h
  rcases Option.or_eq_some_iff.mp h with h | ⟨-, h⟩
  · exact List.mem_append_right _ (mem_of_findParam? h)
  · exact List.mem_append_right _ (mem_of_onlyParam? h)

theorem mem_of_findTarget? (h : g.findTarget? n name = some p) : p ∈ (g.node n).params := by
  unfold findTarget? at h
  rcases Option.or_eq_some_iff.mp h with h | ⟨-, h⟩
  · exact List.mem_append_left _ (mem_of_findParam? h)
  · exact List.mem_append_left _ (mem_of_onlyParam? h)

end Graph

/-! ## Connections -/

namespace Work

open Procedure

variable {g : Graph} {first : Nat}

theorem wireNodes_succeeds (c : Connection) {source target : NodeRef}
    (hsource : ∀ p ∈ (g.node source).params, first ≤ p.index)
    (htarget : ∀ p ∈ (g.node target).params, first ≤ p.index) :
    (wireNodes .live c source target).Succeeds g fun _ g' => g.Rewired first g' := by
  unfold wireNodes
  refine succeeds_graph_bind ?_
  split
  · next s t hs ht =>
    change (recover isWireRefusal (do set (← ofResult (g.connect s t)); return true) _).Succeeds g _
    cases hconnect : g.connect s t with
    | ok g' =>
        have hrewired : g.Rewired first g' := Graph.rewired_connect hconnect
          (hsource s (Graph.mem_of_findSource? hs)) (htarget t (Graph.mem_of_findTarget? ht))
        refine Succeeds.recover ?_
        refine (succeeds_ofResult (Q := fun a _ => a = g') rfl rfl).bind fun a s' ha => ?_
        subst ha
        exact (succeeds_set (Q := fun _ s => g.Rewired first s) hrewired).andThen fun _ h =>
          succeeds_pure h
    | error fault =>
        have hfault : result (do set (← ofResult (.error fault : Except Fault Graph)); return true)
            g = ((.error fault, g) : Except Fault Bool × Graph) := rfl
        refine succeeds_recover_of_fault hfault (Graph.connect_fault hconnect) ?_
        exact (succeeds_report (Q := fun _ s => g.Rewired first s) (.refl first g)).andThen
          fun _ h => succeeds_pure h
  · exact (succeeds_report (Q := fun _ s => g.Rewired first s) (.refl first g)).andThen
      fun _ h => succeeds_pure h

/-- A connection is made or given up, whatever it says. -/
theorem wire_succeeds {nodes : List (String × NodeRef)}
    (hnodes : ∀ n ∈ nodes.map Prod.snd, ∀ p ∈ (g.node n).params, first ≤ p.index)
    (c : Connection) : (wire .live nodes c).Succeeds g fun _ g' => g.Rewired first g' := by
  unfold wire
  split
  · exact (succeeds_report (Q := fun _ s => g.Rewired first s) (.refl first g)).andThen
      fun _ h => succeeds_pure h
  · split
    · next source target hsource htarget =>
      exact wireNodes_succeeds c (hnodes source (Keyed.mem_values_of_lookup hsource))
        (hnodes target (Keyed.mem_values_of_lookup htarget))
    · exact (succeeds_report (Q := fun _ s => g.Rewired first s) (.refl first g)).andThen
        fun _ h => succeeds_pure h

/-- All connections: each is counted once, and nothing else in the answer changes. -/
theorem wireAll_succeeds (r : Rebuilt) (connections : List Connection)
    (hnodes : ∀ n ∈ r.nodes.map Prod.snd, ∀ p ∈ (g.node n).params, first ≤ p.index) :
    (wireAll .live r connections).Succeeds g fun r' g' => g.Rewired first g' ∧
      ∃ made dropped, made + dropped = r.made + r.dropped + connections.length ∧
        r' = { r with made, dropped } := by
  induction connections generalizing r g with
  | nil => exact succeeds_pure ⟨.refl first g, r.made, r.dropped, rfl, rfl⟩
  | cons c rest ih =>
      unfold wireAll
      refine (wire_succeeds hnodes c).bind fun made g' hrewired => ?_
      have hnodes' : ∀ n ∈ r.nodes.map Prod.snd, ∀ p ∈ (g'.node n).params, first ≤ p.index := by
        intro n hn
        rw [hrewired.node n]
        exact hnodes n hn
      cases made with
      | true =>
          refine (ih r.wired hnodes').mono fun r' g'' ⟨h, made, dropped, hcount, hr'⟩ => ?_
          refine ⟨hrewired.trans h, made, dropped, ?_, hr'⟩
          rw [hcount, List.length_cons]
          change r.made + 1 + r.dropped + rest.length = _
          omega
      | false =>
          refine (ih r.gaveUp hnodes').mono fun r' g'' ⟨h, made, dropped, hcount, hr'⟩ => ?_
          refine ⟨hrewired.trans h, made, dropped, ?_, hr'⟩
          rw [hcount, List.length_cons]
          change r.made + (r.dropped + 1) + rest.length = _
          omega

end Work

end Patchbay
