import Mathlib.Data.List.Nodup
import Patchbay.Canvas.Work
import Patchbay.Proofs.Journal.Running

/-!
# Wires

A wire is recorded in two places, and whoever takes parameters away takes their wires away at both.

* `Parameter.SameButWires`, `Graph.sources_connect_eq`, `Graph.recipients_connect_eq` — what one new wire
  changes
* **`Graph.Wired`** — every wire is recorded at both of its ends, once, and none leads from a parameter
  to itself
* **`Graph.Cut`** — the graph after some of its wires were taken away.  Cuts compose (`Cut.trans`), so
  one wire (`cut_disconnect`), one parameter (`cut_isolate`) and one node (`cut_isolateNode`) are each a
  few lines over the one before.  The loops run over lists that they shrink; a cut says which wires are
  gone and not in what order, so this never shows.
* `Work.succeeds_isolate`, `Work.succeeds_remove` and their like — in a wired graph nothing fails on
  the way, and what is left is a cut
-/

namespace Patchbay

/-! ## What a wire changes -/

/-- The parameters differ in their wires only. -/
def Parameter.SameButWires (p q : Parameter) : Prop :=
  q = { p with sources := q.sources, recipients := q.recipients }

namespace Parameter.SameButWires

variable {p q r : Parameter}

theorem refl (p : Parameter) : p.SameButWires p := rfl

theorem of_eq (h : q = p) : p.SameButWires q := h ▸ refl p

theorem trans (h : p.SameButWires q) (h' : q.SameButWires r) : p.SameButWires r := by
  unfold SameButWires at h h' ⊢
  rw [h', h]

theorem name (h : p.SameButWires q) : q.name = p.name := by rw [h]

theorem nickName (h : p.SameButWires q) : q.nickName = p.nickName := by rw [h]

theorem gap (h : p.SameButWires q) : q.gap = p.gap := by rw [h]

end Parameter.SameButWires

namespace Graph

variable {g g' : Graph} {s t : ParamRef}

theorem param_updateParam (f : Parameter → Parameter) (h : s.index < g.params.length) (p : ParamRef) :
    (g.updateParam s f).param p = if p = s then f (g.param s) else g.param p := by
  unfold updateParam
  split
  · next hp =>
    rw [hp, param_setParam_self g _ h]
  · next hp => rw [param_setParam_of_ne g _ hp]

theorem connect_ne (h : g.connect s t = .ok g') : s ≠ t := by
  intro heq
  unfold connect at h
  rw [if_pos heq] at h
  cases h

/-- Any two parameters can be connected. -/
theorem exists_connect (g : Graph) (hne : s ≠ t) : ∃ g', g.connect s t = .ok g' := by
  unfold connect
  rw [if_neg hne]
  split <;> exact ⟨_, rfl⟩

/-- A wire does not change the nodes, nor which of them are on the canvas. -/
theorem frame_connect (h : g.connect s t = .ok g') :
    g'.nodes = g.nodes ∧ g'.canvas = g.canvas ∧ g'.ids = g.ids := by
  unfold connect at h
  rw [if_neg (connect_ne h)] at h
  split at h <;> cases h <;> exact ⟨rfl, rfl, rfl⟩

theorem node_connect (h : g.connect s t = .ok g') (n : NodeRef) : g'.node n = g.node n := by
  unfold node
  rw [(frame_connect h).1]

/-- A wire that is there is not made again. -/
theorem connect_eq_self (h : g.connect s t = .ok g') (hold : s ∈ (g.param t).sources) : g' = g := by
  unfold connect at h
  rw [if_neg (connect_ne h), if_pos hold] at h
  cases h
  rfl

/-- What became of the parameters when a wire was made that was not there. -/
theorem param_connect (h : g.connect s t = .ok g') (hnew : s ∉ (g.param t).sources)
    (hs : s.index < g.params.length) (ht : t.index < g.params.length) (p : ParamRef) :
    g'.param p =
      { g.param p with
        sources := (g.param p).sources ++ if p = t then [s] else []
        recipients := (g.param p).recipients ++ if p = s then [t] else [] } := by
  unfold connect at h
  split at h
  · cases h
  · next hne =>
    cases h
    have hlength : s.index < (g.updateParam t fun p => p.addSource s).params.length := by
      simpa [updateParam, setParam] using hs
    rw [param_updateParam _ hlength, param_updateParam _ ht, param_updateParam _ ht, if_neg hne]
    by_cases hps : p = s
    · subst hps
      simp [hne]
    · by_cases hpt : p = t
      · subst hpt
        simp [hps, Parameter.addSource]
      · simp [hps, hpt]

theorem same_connect (h : g.connect s t = .ok g') (hs : s.index < g.params.length)
    (ht : t.index < g.params.length) (p : ParamRef) : (g.param p).SameButWires (g'.param p) := by
  by_cases hold : s ∈ (g.param t).sources
  · exact .of_eq (by rw [connect_eq_self h hold])
  · rw [param_connect h hold hs ht]
    exact rfl

/-- The target has the source once, after those it had. -/
theorem sources_connect_eq (h : g.connect s t = .ok g') (hs : s.index < g.params.length)
    (ht : t.index < g.params.length) (p : ParamRef) :
    (g'.param p).sources = (g.param p).sources ++ if p = t ∧ s ∉ (g.param p).sources then [s] else [] := by
  by_cases hold : s ∈ (g.param t).sources
  · rw [connect_eq_self h hold, if_neg (by rintro ⟨rfl, hnew⟩; exact hnew hold), List.append_nil]
  · rw [param_connect h hold hs ht]
    by_cases hp : p = t
    · subst hp
      simp [hold]
    · simp [hp]

/-- The source has the target once more, unless the wire was there. -/
theorem recipients_connect_eq (h : g.connect s t = .ok g') (hs : s.index < g.params.length)
    (ht : t.index < g.params.length) (p : ParamRef) :
    (g'.param p).recipients =
      (g.param p).recipients ++ if p = s ∧ s ∉ (g.param t).sources then [t] else [] := by
  by_cases hold : s ∈ (g.param t).sources
  · rw [connect_eq_self h hold, if_neg fun hnew => hnew.2 hold, List.append_nil]
  · rw [param_connect h hold hs ht]
    simp [hold]

/-- The source is one of those the target has from then on. -/
theorem sources_connect (h : g.connect s t = .ok g') (hs : s.index < g.params.length)
    (ht : t.index < g.params.length) (a b : ParamRef) :
    a ∈ (g'.param b).sources ↔ a ∈ (g.param b).sources ∨ (a = s ∧ b = t) := by
  rw [sources_connect_eq h hs ht, List.mem_append, List.mem_ite_nil_right, List.mem_singleton]
  constructor
  · exact Or.imp_right fun hnew => ⟨hnew.2, hnew.1.1⟩
  · rintro (hmem | ⟨rfl, rfl⟩)
    · exact .inl hmem
    · exact or_iff_not_imp_left.mpr fun hnew => ⟨⟨rfl, hnew⟩, rfl⟩

/-- The target is one of those the source has from then on, if the wire is not half there. -/
theorem recipients_connect (h : g.connect s t = .ok g') (hs : s.index < g.params.length)
    (ht : t.index < g.params.length) (hwhole : s ∈ (g.param t).sources → t ∈ (g.param s).recipients)
    (a b : ParamRef) :
    b ∈ (g'.param a).recipients ↔ b ∈ (g.param a).recipients ∨ (a = s ∧ b = t) := by
  rw [recipients_connect_eq h hs ht, List.mem_append, List.mem_ite_nil_right, List.mem_singleton]
  constructor
  · exact Or.imp_right fun hnew => ⟨hnew.1.1, hnew.2⟩
  · rintro (hmem | ⟨rfl, rfl⟩)
    · exact .inl hmem
    · exact or_iff_not_imp_left.mpr fun hnew => ⟨⟨rfl, fun hold => hnew (hwhole hold)⟩, rfl⟩

/-! ## Wired graphs -/

/-- Every wire is recorded at both of its ends, once, leads from an output that is there, and from no
parameter to itself. -/
structure Wired (g : Graph) : Prop where
  symmetric : ∀ s t, s ∈ (g.param t).sources ↔ t ∈ (g.param s).recipients
  sources_nodup : ∀ p, (g.param p).sources.Nodup
  recipients_nodup : ∀ p, (g.param p).recipients.Nodup
  irreflexive : ∀ p, p ∉ (g.param p).sources
  whole : ∀ p, (g.param p).gap = none

/-- Nothing leads to the parameter, nothing leads from it, and no parameter refers to it. -/
structure Detached (g : Graph) (p : ParamRef) : Prop where
  sources : (g.param p).sources = []
  recipients : (g.param p).recipients = []
  unfed : ∀ q, p ∉ (g.param q).sources
  unfeeding : ∀ q, p ∉ (g.param q).recipients

theorem param_of_length_le {p : ParamRef} (h : g.params.length ≤ p.index) : g.param p = default := by
  unfold param
  rw [List.getD_eq_getElem?_getD, List.getElem?_eq_none h, Option.getD_none]

/-- A parameter with a source was made before. -/
theorem index_lt_of_mem_sources (h : s ∈ (g.param t).sources) : t.index < g.params.length := by
  refine Nat.lt_of_not_le fun hle => ?_
  rw [param_of_length_le hle] at h
  exact List.not_mem_nil h

theorem index_lt_of_mem_recipients (h : t ∈ (g.param s).recipients) : s.index < g.params.length := by
  refine Nat.lt_of_not_le fun hle => ?_
  rw [param_of_length_le hle] at h
  exact List.not_mem_nil h

namespace Wired

/-- Two graphs whose parameters have the same wires are wired alike. -/
theorem congr (h : g.Wired)
    (hparams : ∀ p, (g'.param p).sources = (g.param p).sources ∧
      (g'.param p).recipients = (g.param p).recipients ∧ (g'.param p).gap = (g.param p).gap) :
    g'.Wired := by
  constructor
  case symmetric =>
    intro s t
    rw [(hparams t).1, (hparams s).2.1]
    exact h.symmetric s t
  case sources_nodup => exact fun p => (hparams p).1 ▸ h.sources_nodup p
  case recipients_nodup => exact fun p => (hparams p).2.1 ▸ h.recipients_nodup p
  case irreflexive => exact fun p => (hparams p).1 ▸ h.irreflexive p
  case whole => exact fun p => (hparams p).2.2.trans (h.whole p)

/-- A wire that can be made leaves the graph wired. -/
theorem connect (h : g.Wired) (hconnect : g.connect s t = .ok g') (hs : s.index < g.params.length)
    (ht : t.index < g.params.length) : g'.Wired := by
  have hsources := sources_connect hconnect hs ht
  have hrecipients := recipients_connect hconnect hs ht (h.symmetric s t).mp
  have hne := connect_ne hconnect
  constructor
  case symmetric =>
    intro a b
    rw [hsources, hrecipients, h.symmetric]
  case sources_nodup =>
    intro p
    rw [sources_connect_eq hconnect hs ht]
    split
    · next hnew =>
      rw [← List.concat_eq_append]
      exact (h.sources_nodup p).concat hnew.2
    · rw [List.append_nil]
      exact h.sources_nodup p
  case recipients_nodup =>
    intro p
    rw [recipients_connect_eq hconnect hs ht]
    split
    · next hnew =>
      obtain ⟨rfl, hnew⟩ := hnew
      rw [← List.concat_eq_append]
      exact (h.recipients_nodup p).concat fun hmem => hnew ((h.symmetric p t).mpr hmem)
    · rw [List.append_nil]
      exact h.recipients_nodup p
  case irreflexive =>
    intro p hp
    rcases (hsources p p).mp hp with hp | ⟨rfl, hp⟩
    · exact h.irreflexive p hp
    · exact hne hp
  case whole => exact fun p => (same_connect hconnect hs ht p).gap.trans (h.whole p)

end Wired

/-! ## Cuts -/

/-- The second graph has those wires of the first that are to stay, and is the same otherwise. -/
structure Cut (stays : ParamRef → ParamRef → Prop) (g g' : Graph) : Prop where
  nodes : g'.nodes = g.nodes
  canvas : g'.canvas = g.canvas
  ids : g'.ids = g.ids
  length : g'.params.length = g.params.length
  wired : g'.Wired
  sources : ∀ s t, s ∈ (g'.param t).sources ↔ s ∈ (g.param t).sources ∧ stays s t

namespace Cut

variable {stays stays' : ParamRef → ParamRef → Prop} {g'' : Graph}

theorem refl (h : g.Wired) (hall : ∀ s t, s ∈ (g.param t).sources → stays s t) : Cut stays g g :=
  ⟨rfl, rfl, rfl, rfl, h, fun s t => ⟨fun hmem => ⟨hmem, hall s t hmem⟩, And.left⟩⟩

theorem trans (h : Cut stays g g') (h' : Cut stays' g' g'') :
    Cut (fun s t => stays s t ∧ stays' s t) g g'' where
  nodes := h'.nodes.trans h.nodes
  canvas := h'.canvas.trans h.canvas
  ids := h'.ids.trans h.ids
  length := h'.length.trans h.length
  wired := h'.wired
  sources := fun s t => by rw [h'.sources, h.sources, and_assoc]

/-- What stays matters for the wires that are there. -/
theorem congr (h : Cut stays g g')
    (hstays : ∀ s t, s ∈ (g.param t).sources → (stays s t ↔ stays' s t)) : Cut stays' g g' where
  nodes := h.nodes
  canvas := h.canvas
  ids := h.ids
  length := h.length
  wired := h.wired
  sources := fun s t => by
    rw [h.sources]
    exact and_congr_right (hstays s t)

theorem node (h : Cut stays g g') (n : NodeRef) : g'.node n = g.node n := by
  unfold Graph.node
  rw [h.nodes]

/-- A parameter of which no wire stays is detached. -/
theorem detached (h : Cut stays g g') {p : ParamRef} (hfrom : ∀ t, ¬ stays p t) (hto : ∀ s, ¬ stays s p) :
    g'.Detached p := by
  have hunfed : ∀ q, p ∉ (g'.param q).sources := fun q hq => hfrom q ((h.sources p q).mp hq).2
  have hsources : ∀ q, q ∉ (g'.param p).sources := fun q hq => hto q ((h.sources q p).mp hq).2
  constructor
  case sources => exact List.eq_nil_iff_forall_not_mem.mpr hsources
  case recipients =>
    exact List.eq_nil_iff_forall_not_mem.mpr fun q hq => hunfed q ((h.wired.symmetric p q).mpr hq)
  case unfed => exact hunfed
  case unfeeding => exact fun q hq => hsources q ((h.wired.symmetric q p).mpr hq)

end Cut

/-- A wire is struck from the lists at both of its ends, and nothing else changes. -/
theorem param_disconnect (h : g.Wired) (s t p : ParamRef) :
    (g.disconnect s t).param p =
      { g.param p with
        sources := if p = t then (g.param p).sources.erase s else (g.param p).sources
        recipients := if p = s then (g.param p).recipients.erase t else (g.param p).recipients } := by
  unfold disconnect
  split
  · next hold =>
    have ht : t.index < g.params.length := index_lt_of_mem_sources hold
    have hs : s.index < (g.updateParam t fun p => p.dropSource s).params.length := by
      simpa [updateParam, setParam] using index_lt_of_mem_recipients ((h.symmetric s t).mp hold)
    have hne : s ≠ t := fun heq => h.irreflexive t (heq ▸ hold)
    rw [param_updateParam _ hs, param_updateParam _ ht, param_updateParam _ ht, if_neg hne]
    by_cases hps : p = s
    · subst hps
      simp [hne]
    · by_cases hpt : p = t
      · subst hpt
        simp [hps, Parameter.dropSource, h.whole]
      · simp [hps, hpt]
  · next hold =>
    have hold' : t ∉ (g.param s).recipients := fun hmem => hold ((h.symmetric s t).mpr hmem)
    by_cases hps : p = s
    · subst hps
      by_cases hpt : p = t
      · subst hpt
        simp [List.erase_of_not_mem hold, List.erase_of_not_mem hold']
      · simp [hpt, List.erase_of_not_mem hold']
    · by_cases hpt : p = t
      · subst hpt
        simp [hps, List.erase_of_not_mem hold]
      · simp [hps, hpt]

theorem cut_disconnect (h : g.Wired) (s t : ParamRef) :
    Cut (fun a b => ¬ (a = s ∧ b = t)) g (g.disconnect s t) := by
  have hsources : ∀ a b, a ∈ ((g.disconnect s t).param b).sources ↔
      a ∈ (g.param b).sources ∧ ¬ (a = s ∧ b = t) := by
    intro a b
    rw [param_disconnect h]
    by_cases hb : b = t
    · subst hb
      simp [(h.sources_nodup b).mem_erase_iff, and_comm]
    · simp [hb]
  have hrecipients : ∀ a b, b ∈ ((g.disconnect s t).param a).recipients ↔
      b ∈ (g.param a).recipients ∧ ¬ (a = s ∧ b = t) := by
    intro a b
    rw [param_disconnect h]
    by_cases ha : a = s
    · subst ha
      simp [(h.recipients_nodup a).mem_erase_iff, and_comm]
    · simp [ha]
  constructor
  case nodes => unfold disconnect; split <;> rfl
  case canvas => unfold disconnect; split <;> rfl
  case ids => unfold disconnect; split <;> rfl
  case length => unfold disconnect; split <;> simp [updateParam, setParam]
  case sources => exact hsources
  case wired =>
    constructor
    case symmetric =>
      intro a b
      rw [hsources, hrecipients, h.symmetric]
    case sources_nodup =>
      intro p
      rw [param_disconnect h]
      dsimp only
      split
      · exact (h.sources_nodup p).erase s
      · exact h.sources_nodup p
    case recipients_nodup =>
      intro p
      rw [param_disconnect h]
      dsimp only
      split
      · exact (h.recipients_nodup p).erase t
      · exact h.recipients_nodup p
    case irreflexive => exact fun p hp => h.irreflexive p ((hsources p p).mp hp).1
    case whole =>
      intro p
      rw [param_disconnect h]
      exact h.whole p

/-- Taking wires away one by one takes all of them away. -/
theorem cut_foldl_disconnect {α : Type} (h : g.Wired) (wire : α → ParamRef × ParamRef) (items : List α) :
    Cut (fun s t => ∀ a ∈ items, wire a ≠ (s, t)) g
      (items.foldl (fun g a => g.disconnect (wire a).1 (wire a).2) g) := by
  induction items generalizing g with
  | nil => exact .refl h fun _ _ _ a ha => absurd ha List.not_mem_nil
  | cons a rest ih =>
      have hfirst := cut_disconnect h (wire a).1 (wire a).2
      refine (hfirst.trans (ih hfirst.wired)).congr fun s t _ => ?_
      rw [List.forall_mem_cons, Ne, Prod.ext_iff]
      simp only [eq_comm]

/-- Every wire of the parameter goes. -/
theorem cut_isolate (h : g.Wired) (p : ParamRef) :
    Cut (fun s t => s ≠ p ∧ t ≠ p) g (g.isolate p) := by
  have hto := cut_foldl_disconnect h (fun s => (s, p)) (g.param p).sources
  have hfrom := cut_foldl_disconnect hto.wired (fun t => (p, t))
    (((g.param p).sources.foldl (fun g s => g.disconnect s p) g).param p).recipients
  refine (hto.trans hfrom).congr fun s t hst => ?_
  constructor
  · rintro ⟨hfirst, hsecond⟩
    have ht : t ≠ p := by
      rintro rfl
      exact hfirst s hst rfl
    refine ⟨?_, ht⟩
    rintro rfl
    -- a wire from the parameter was still there after the first loop
    have hmid := (hto.sources s t).mpr ⟨hst, hfirst⟩
    exact hsecond t ((hto.wired.symmetric s t).mp hmid) rfl
  · rintro ⟨hs, ht⟩
    exact ⟨fun a _ heq => ht (Prod.mk.inj heq).2.symm, fun a _ heq => hs (Prod.mk.inj heq).1.symm⟩

theorem cut_foldl_isolate (h : g.Wired) (params : List ParamRef) :
    Cut (fun s t => s ∉ params ∧ t ∉ params) g (params.foldl isolate g) := by
  induction params generalizing g with
  | nil => exact .refl h fun _ _ _ => ⟨List.not_mem_nil, List.not_mem_nil⟩
  | cons p rest ih =>
      have hfirst := cut_isolate h p
      refine (hfirst.trans (ih hfirst.wired)).congr fun s t _ => ?_
      simp only [List.mem_cons, not_or, ne_eq]
      exact and_and_and_comm

/-- Every wire of a parameter of the node goes. -/
theorem cut_isolateNode (h : g.Wired) (n : NodeRef) :
    Cut (fun s t => s ∉ (g.node n).params ∧ t ∉ (g.node n).params) g (g.isolateNode n) :=
  cut_foldl_isolate h _

end Graph

/-! ## Steps of the work -/

namespace Work

open Procedure

theorem succeeds_graph {g : Graph} {Q : Graph → Graph → Prop} (h : Q g g) : graph.Succeeds g Q :=
  succeeds_get h

theorem succeeds_update {f : Graph → Graph} {g : Graph} {Q : Unit → Graph → Prop} (h : Q () (f g)) :
    (update f).Succeeds g Q := succeeds_modify h

/-- Reading the graph gives it to what follows. -/
theorem succeeds_graph_bind {α : Type} {f : Graph → Work α} {g : Graph} {Q : α → Graph → Prop}
    (h : (f g).Succeeds g Q) : (graph >>= f).Succeeds g Q :=
  (succeeds_graph (Q := fun a s => a = g ∧ s = g) ⟨rfl, rfl⟩).bind fun _ _ ⟨ha, hs⟩ => by
    subst ha hs
    exact h

variable {g : Graph} {n : NodeRef} {p : ParamRef}

/-- In a wired graph no source is missing, and nothing fails. -/
theorem succeeds_isolate (h : g.Wired) (p : ParamRef) :
    (isolate p).Succeeds g fun _ g' => g' = g.isolate p := by
  refine succeeds_graph_bind ?_
  simp only [h.whole]
  exact succeeds_update rfl

theorem succeeds_isolateNode (h : g.Wired) (n : NodeRef) :
    (isolateNode n).Succeeds g fun _ g' =>
      Graph.Cut (fun s t => s ∉ (g.node n).params ∧ t ∉ (g.node n).params) g g' := by
  refine succeeds_graph_bind ?_
  refine succeeds_forM_done (I := fun done g' => Graph.Cut (fun s t => s ∉ done ∧ t ∉ done) g g')
    (fun done p _ g' hcut => ?_) (.refl h fun _ _ _ => ⟨List.not_mem_nil, List.not_mem_nil⟩)
  refine (succeeds_isolate hcut.wired p).mono fun _ g'' hg'' => ?_
  subst hg''
  refine (hcut.trans (Graph.cut_isolate hcut.wired p)).congr fun s t _ => ?_
  simp only [List.mem_append, List.mem_singleton, not_or]
  exact and_and_and_comm

/-- An input that is taken from its node has lost its wires before. -/
theorem succeeds_unregisterInput (h : g.Wired) (hp : p ∈ (g.node n).inputs) :
    (unregisterInput n p).Succeeds g fun _ g' => ∃ cut, Graph.Cut (fun s t => s ≠ p ∧ t ≠ p) g cut ∧
      g' = cut.updateNode n fun v => { v with inputs := v.inputs.erase p } := by
  have hcut := Graph.cut_isolate h p
  refine succeeds_graph_bind ?_
  rw [if_pos hp]
  refine (succeeds_isolate h p).andThen fun g' hg' => succeeds_update ?_
  subst hg'
  refine ⟨_, (hcut.trans (Graph.cut_isolate hcut.wired p)).congr fun s t _ => and_self_iff, ?_⟩
  unfold Graph.unregisterInput
  rw [if_pos (hcut.node n ▸ hp)]

theorem succeeds_unregisterOutput (h : g.Wired) (hp : p ∈ (g.node n).outputs) :
    (unregisterOutput n p).Succeeds g fun _ g' => ∃ cut, Graph.Cut (fun s t => s ≠ p ∧ t ≠ p) g cut ∧
      g' = cut.updateNode n fun v => { v with outputs := v.outputs.erase p } := by
  have hcut := Graph.cut_isolate h p
  refine succeeds_graph_bind ?_
  rw [if_pos hp]
  refine (succeeds_isolate h p).andThen fun g' hg' => succeeds_update ?_
  subst hg'
  refine ⟨_, (hcut.trans (Graph.cut_isolate hcut.wired p)).congr fun s t _ => and_self_iff, ?_⟩
  unfold Graph.unregisterOutput
  rw [if_pos (hcut.node n ▸ hp)]

/-- A node that is taken from the canvas has lost its wires before. -/
theorem succeeds_remove (h : g.Wired) (hn : n ∈ g.canvas) :
    (remove n).Succeeds g fun _ g' => ∃ cut,
      Graph.Cut (fun s t => s ∉ (g.node n).params ∧ t ∉ (g.node n).params) g cut ∧
        g' = { cut with canvas := cut.canvas.erase n } := by
  refine succeeds_graph_bind ?_
  rw [if_pos hn]
  refine (succeeds_isolateNode h n).andThen fun g' hcut => succeeds_update ?_
  refine ⟨_, (hcut.trans (Graph.cut_isolateNode hcut.wired n)).congr fun s t _ => ?_, ?_⟩
  · rw [hcut.node n, and_self_iff]
  · unfold Graph.remove
    rw [if_pos (hcut.canvas ▸ hn)]

/-! Each of these does nothing where there is nothing to take away, so that whatever holds before and of
every such cut holds after. -/

theorem unregisterInput_keeps (h : g.Wired) {P : Graph → Prop} (hP : P g)
    (hcut : ∀ cut, Graph.Cut (fun s t => s ≠ p ∧ t ≠ p) g cut →
      P (cut.updateNode n fun v => { v with inputs := v.inputs.erase p })) :
    (unregisterInput n p).Succeeds g fun _ g' => P g' := by
  by_cases hp : p ∈ (g.node n).inputs
  · refine (succeeds_unregisterInput h hp).mono fun _ g' ⟨cut, hcut', hg'⟩ => ?_
    subst hg'
    exact hcut cut hcut'
  · refine succeeds_graph_bind ?_
    rw [if_neg hp]
    exact succeeds_pure hP

theorem unregisterOutput_keeps (h : g.Wired) {P : Graph → Prop} (hP : P g)
    (hcut : ∀ cut, Graph.Cut (fun s t => s ≠ p ∧ t ≠ p) g cut →
      P (cut.updateNode n fun v => { v with outputs := v.outputs.erase p })) :
    (unregisterOutput n p).Succeeds g fun _ g' => P g' := by
  by_cases hp : p ∈ (g.node n).outputs
  · refine (succeeds_unregisterOutput h hp).mono fun _ g' ⟨cut, hcut', hg'⟩ => ?_
    subst hg'
    exact hcut cut hcut'
  · refine succeeds_graph_bind ?_
    rw [if_neg hp]
    exact succeeds_pure hP

theorem remove_keeps (h : g.Wired) {P : Graph → Prop} (hP : P g)
    (hcut : ∀ cut, Graph.Cut (fun s t => s ∉ (g.node n).params ∧ t ∉ (g.node n).params) g cut →
      P { cut with canvas := cut.canvas.erase n }) :
    (remove n).Succeeds g fun _ g' => P g' := by
  by_cases hn : n ∈ g.canvas
  · refine (succeeds_remove h hn).mono fun _ g' ⟨cut, hcut', hg'⟩ => ?_
    subst hg'
    exact hcut cut hcut'
  · refine succeeds_graph_bind ?_
    rw [if_neg hn]
    exact succeeds_pure hP

end Work

end Patchbay
