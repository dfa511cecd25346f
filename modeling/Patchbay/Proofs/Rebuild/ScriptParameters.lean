import Mathlib.Data.List.Find
import Mathlib.Data.List.Forall2
import Patchbay.Proofs.Canvas.Editing
import Patchbay.Proofs.Identifier.RoundTrip
import Patchbay.Proofs.Rebuild.Labels

/-!
# The parameters of a rebuilt script

A script is rebuilt by taking all its parameters from it and giving it one for each setting.  Some of those that it
had are used again.

* **`Graph.Strips`** — parameters lose their wires, and nothing else changes; `unregisterAll_strips`.
* **`Graph.Carries`** — a parameter carries a setting: it is the holder of its variable or a new one, and it has what
  the setting says, and what it had before where the setting says nothing (`Parameter.carrying`).
* **`Work.Recast`** — the invariant: the settings that are done have their parameters, and what is to be used again is
  as it was, but for its wires.  So a later setting finds the holder that it would have found at first
  (`Recast.holder?_eq`), and finds it free (`Recast.holder_notMem`).
* **`Recast.register`** — one more setting of either side has its parameter, which `scriptParameter_casts` finds or
  makes.
* **`Work.rebuildScript_parameters`** — the script has exactly the parameters of its settings (`Work.Restocked`).
-/

namespace Patchbay

open Validation (Side)

/-! ## Parameters lose their wires -/

/-- The parameter without its wires. -/
def Parameter.bare (p : Parameter) : Parameter := { p with sources := [], recipients := [] }

/-- A parameter without wires is what is left of one that differs from it in wires. -/
theorem Parameter.SameButWires.eq_bare {p q : Parameter} (h : p.SameButWires q) (hsources : q.sources = [])
    (hrecipients : q.recipients = []) : q = p.bare := by
  unfold SameButWires at h
  rwa [hsources, hrecipients] at h

namespace Graph

variable {g g' g'' : Graph} {n : NodeRef} {gone gone' : List ParamRef}

theorem same_disconnect (h : g.Wired) (s t p : ParamRef) : (g.param p).SameButWires ((g.disconnect s t).param p) := by
  rw [param_disconnect h]
  rfl

theorem same_foldl_disconnect (h : g.Wired) (wire : ParamRef → ParamRef × ParamRef) (items : List ParamRef)
    (p : ParamRef) :
    (g.param p).SameButWires ((items.foldl (fun g a => g.disconnect (wire a).1 (wire a).2) g).param p) := by
  induction items generalizing g with
  | nil => exact .refl _
  | cons a rest ih =>
      exact (same_disconnect h (wire a).1 (wire a).2 p).trans (ih (cut_disconnect h (wire a).1 (wire a).2).wired)

theorem same_isolate (h : g.Wired) (p q : ParamRef) : (g.param q).SameButWires ((g.isolate p).param q) := by
  have hto := cut_foldl_disconnect h (fun s => (s, p)) (g.param p).sources
  exact (same_foldl_disconnect h (fun s => (s, p)) _ q).trans
    (same_foldl_disconnect hto.wired (fun t => (p, t)) _ q)

/-- Some parameters lost their wires.  Others may have lost some, and nothing else changed about any. -/
structure Strips (g : Graph) (gone : List ParamRef) (g' : Graph) : Prop where
  wired : g'.Wired
  length : g'.params.length = g.params.length
  nodes : g'.nodes.length = g.nodes.length
  same : ∀ p, (g.param p).SameButWires (g'.param p)
  bare : ∀ p, p ∈ gone ∨ ((g.param p).sources = [] ∧ (g.param p).recipients = []) →
    (g'.param p).sources = [] ∧ (g'.param p).recipients = []

namespace Strips

theorem refl (h : g.Wired) : g.Strips [] g where
  wired := h
  length := rfl
  nodes := rfl
  same := fun _ => .refl _
  bare := fun _ hp => hp.elim (fun hmem => absurd hmem List.not_mem_nil) id

theorem trans (h : g.Strips gone g') (h' : g'.Strips gone' g'') : g.Strips (gone ++ gone') g'' where
  wired := h'.wired
  length := h'.length.trans h.length
  nodes := h'.nodes.trans h.nodes
  same := fun p => (h.same p).trans (h'.same p)
  bare := by
    rintro p (hp | hp)
    · rcases List.mem_append.mp hp with hp | hp
      · exact h'.bare p (.inr (h.bare p (.inl hp)))
      · exact h'.bare p (.inl hp)
    · exact h'.bare p (.inr (h.bare p (.inr hp)))

theorem of_isolate (h : g.Wired) (p : ParamRef) : g.Strips [p] (g.isolate p) := by
  have hcut := cut_isolate h p
  constructor
  case wired => exact hcut.wired
  case length => exact hcut.length
  case nodes => rw [hcut.nodes]
  case same => exact same_isolate h p
  case bare =>
    rintro q (hq | ⟨hsources, hrecipients⟩)
    · obtain rfl := List.mem_singleton.mp hq
      have hdetached := hcut.detached (p := q) (fun t h => h.1 rfl) fun s h => h.2 rfl
      exact ⟨hdetached.sources, hdetached.recipients⟩
    · refine ⟨List.eq_nil_iff_forall_not_mem.mpr fun s hs => ?_, List.eq_nil_iff_forall_not_mem.mpr fun t ht => ?_⟩
      · have hold := ((hcut.sources s q).mp hs).1
        rw [hsources] at hold
        cases hold
      · have hold := ((hcut.sources q t).mp ((hcut.wired.symmetric q t).mpr ht)).1
        rw [h.symmetric, hrecipients] at hold
        cases hold

theorem updateNode (h : g.Strips gone g') (n : NodeRef) (f : Node → Node) : g.Strips gone (g'.updateNode n f) where
  wired := h.wired.congr fun _ => ⟨rfl, rfl, rfl⟩
  length := h.length
  nodes := by simpa [Graph.updateNode, setNode] using h.nodes
  same := h.same
  bare := h.bare

/-- What was stripped has only its wires lost. -/
theorem param_eq (h : g.Strips gone g') {p : ParamRef} (hp : p ∈ gone) : g'.param p = (g.param p).bare := by
  obtain ⟨hsources, hrecipients⟩ := h.bare p (.inl hp)
  exact (h.same p).eq_bare hsources hrecipients

end Strips

/-- Taking the parameters of a side from a node one by one leaves the side empty. -/
theorem foldl_unregister (step : Graph → ParamRef → Graph) (side : Node → List ParamRef)
    (put : Node → List ParamRef → Node) (hside : ∀ v ps, side (put v ps) = ps) (hself : ∀ v, put v (side v) = v)
    (hagain : ∀ v ps ps', put (put v ps) ps' = put v ps')
    (hstep : ∀ g p, p ∈ side (g.node n) → step g p = (g.isolate p).updateNode n fun v => put v ((side v).erase p))
    (h : g.Wired) (hn : n.index < g.nodes.length) {ps : List ParamRef} (hps : side (g.node n) = ps) :
    g.Strips ps (ps.foldl step g) ∧ (ps.foldl step g).node n = put (g.node n) [] := by
  induction ps generalizing g with
  | nil => exact ⟨.refl h, by rw [← hps, hself, hps, List.foldl_nil]⟩
  | cons p rest ih =>
      have hcut := cut_isolate h p
      have hstrips := (Strips.of_isolate h p).updateNode n fun v => put v ((side v).erase p)
      have hnode : (step g p).node n = put (g.node n) rest := by
        rw [hstep g p (hps ▸ List.mem_cons_self), Graph.updateNode, node_setNode_self _ _ (by rwa [hcut.nodes]),
          hcut.node, hps, List.erase_cons_head]
      rw [← hstep g p (hps ▸ List.mem_cons_self)] at hstrips
      obtain ⟨hrest, hlast⟩ := ih hstrips.wired (hstrips.nodes ▸ hn) (by rw [hnode, hside])
      exact ⟨hstrips.trans hrest, by rw [List.foldl_cons, hlast, hnode, hagain]⟩

/-- **A node that loses all its parameters keeps all else, and the parameters lose their wires.** -/
theorem unregisterAll_strips (h : g.Wired) (hn : n.index < g.nodes.length) :
    g.Strips (g.node n).params (g.unregisterAll n) ∧
      (g.unregisterAll n).node n = { g.node n with inputs := [], outputs := [] } := by
  obtain ⟨hinputs, hnode⟩ := foldl_unregister (fun g p => g.unregisterInput n p) (·.inputs)
    (fun v ps => { v with inputs := ps }) (fun _ _ => rfl) (fun _ => rfl) (fun _ _ _ => rfl)
    (fun g p hp => if_pos hp) h hn rfl
  have hold : (((g.node n).inputs.foldl (fun g p => g.unregisterInput n p) g).node n).outputs = (g.node n).outputs := by
    rw [hnode]
  obtain ⟨houtputs, hnode'⟩ := foldl_unregister (fun g p => g.unregisterOutput n p) (·.outputs)
    (fun v ps => { v with outputs := ps }) (fun _ _ => rfl) (fun _ => rfl) (fun _ _ _ => rfl)
    (fun g p hp => if_pos hp) hinputs.wired (hinputs.nodes ▸ hn) hold
  exact ⟨hinputs.trans houtputs, hnode'.trans (by rw [hnode])⟩

end Graph

/-! ## One more parameter -/

namespace Validation.Side

/-- One of two things for each side. -/
def pick {α : Type} (inputs outputs : α) : Side → α
  | input => inputs
  | output => outputs

variable (side : Side) {g : Graph} {n : NodeRef} {p : ParamRef}

theorem param_register (hp : p.index < g.params.length) (q : ParamRef) :
    (side.register g n p).param q = if q = p then { g.param p with owner := .node n } else g.param q := by
  cases side <;> exact Graph.param_updateParam (fun v => { v with owner := .node n }) hp q

theorem wired_register (h : g.Wired) (n : NodeRef) (p : ParamRef) : (side.register g n p).Wired := by
  have howner := h.updateParam p (f := fun v => { v with owner := .node n }) fun _ => ⟨rfl, rfl, rfl⟩
  cases side <;> exact howner.congr fun _ => ⟨rfl, rfl, rfl⟩

end Validation.Side

/-! ## The parameter of a setting -/

namespace Language

theorem sameVariable_symm {language : Language} {a b : String} (h : language.sameVariable a b = true) :
    language.sameVariable b a = true := by
  cases language <;> simp only [sameVariable, beq_iff_eq] at h ⊢ <;> exact h.symm

end Language

/-- The name behind the variable is the one that was recorded. -/
theorem ParameterSettings.unsanitize_variableIn (s : ParameterSettings) (language : Language) :
    language.unsanitize (s.variableIn language) = .ok s.effectiveVariable.text := by
  have hchars : Identifier.unsanitizeChars language
      (Identifier.sanitizeChars language s.effectiveVariable.text.toList) = .ok s.effectiveVariable.text.toList := by
    cases language with
    | csharp => exact Identifier.unsanitizeChars_sanitizeChars_csharp _
    | python => exact Identifier.unsanitizeChars_sanitizeChars_python _
    | vb => rfl
  rw [variableIn, Language.unsanitize, Language.sanitize, String.toList_ofList, hchars]
  exact congrArg Except.ok String.ofList_toList

/-- Where the last of some settings stands that is marked as the principal one; a value if there is none. -/
def ParameterSettings.lastPrincipal (settings : List ParameterSettings) (otherwise : Value) : Value :=
  match (settings.zipIdx.filter fun e => e.1.isPrincipal).getLast? with
  | some e => .int e.2
  | none => otherwise

theorem ParameterSettings.lastPrincipal_concat (settings : List ParameterSettings) (s : ParameterSettings)
    (otherwise : Value) : lastPrincipal (settings ++ [s]) otherwise =
      if s.isPrincipal then .int settings.length else lastPrincipal settings otherwise := by
  unfold lastPrincipal
  rw [List.zipIdx_append, List.filter_append]
  cases hprincipal : s.isPrincipal <;> simp [hprincipal]

/-- What becomes of a parameter of a node that carries a setting: it has what the setting says, and keeps what
the setting says nothing of, but for its wires. -/
def Parameter.carrying (p : Parameter) (language : Language) (n : NodeRef) (s : ParameterSettings) : Parameter :=
  let m := s.modifiers.getD Modifiers.none
  { p with
    name := s.name
    variableName := .str (s.variableIn language)
    nickName := s.nickName.orElse s.name
    description := recordedOr s.description p.description
    access := (s.access.map Value.ofMode).getD p.access
    mapping := (s.mapping.map Value.ofMode).getD p.mapping
    simplify := flagOr m.simplify p.simplify
    reverse := flagOr m.reverse p.reverse
    locked := flagOr m.locked p.locked
    invert := flagOr m.invert p.invert
    optional := .bool (!s.required)
    expression := recordedOr s.expression p.expression
    typeHint := s.typeHint.orElse p.typeHint
    owner := .node n
    sources := []
    recipients := [] }

theorem Parameter.applyScriptSettings_bare (p : Parameter) (language : Language) (n : NodeRef) (s : ParameterSettings) :
    { p.bare.applyScriptSettings s (.str (s.variableIn language)) with owner := .node n } =
      p.carrying language n s := by
  have hnick : s.nickName.orElse (s.nickName.orElse s.name) = s.nickName.orElse s.name := by
    unfold Value.orElse
    split <;> rfl
  unfold applyScriptSettings applySettings carrying bare
  dsimp only
  rw [hnick]

namespace Graph

variable {g₀ g g' : Graph} {n : NodeRef} {existing : List ParamRef} {language : Language}
  {s s' : ParameterSettings} {p : ParamRef}

/-- What the parameter of a setting was before: the holder of its variable, or else a new parameter. -/
def basis (g : Graph) (language : Language) (existing : List ParamRef) (s : ParameterSettings) : Parameter :=
  ((g.holder? language existing s).map g.param).getD (.ofVariable (.str (s.variableIn language)))

/-- A parameter carries a setting of a script that had some parameters before: it is the first of them under
the variable of the setting, or none of them and new. -/
structure Carries (g₀ : Graph) (n : NodeRef) (existing : List ParamRef) (g : Graph) (s : ParameterSettings)
    (p : ParamRef) : Prop where
  reused : ∀ q, g₀.holder? (g₀.node n).language existing s = some q → p = q
  fresh : g₀.holder? (g₀.node n).language existing s = none → g₀.params.length ≤ p.index
  index_lt : p.index < g.params.length
  param : g.param p = (g₀.basis (g₀.node n).language existing s).carrying (g₀.node n).language n s

/-- A parameter that is not on the node yet took on a setting, and would carry it there. -/
structure Casts (g₀ : Graph) (n : NodeRef) (existing : List ParamRef) (s : ParameterSettings) (g : Graph)
    (p : ParamRef) (g' : Graph) : Prop where
  reused : ∀ q, g₀.holder? (g₀.node n).language existing s = some q → p = q
  fresh : g₀.holder? (g₀.node n).language existing s = none → g₀.params.length ≤ p.index
  nodes : g'.nodes = g.nodes
  wired : g'.Wired
  grows : g.params.length ≤ g'.params.length
  index_lt : p.index < g'.params.length
  param : { g'.param p with owner := .node n } =
    (g₀.basis (g₀.node n).language existing s).carrying (g₀.node n).language n s
  others : ∀ q : ParamRef, q.index < g.params.length → q ≠ p → g'.param q = g.param q
  new : p ∉ (g.node n).params

theorem sameVariable_of_holder? (h : g.holder? language existing s = some p) :
    language.sameVariable (g.param p).variableName.text (s.variableIn language) = true :=
  List.find?_some (p := fun p => language.sameVariable (g.param p).variableName.text (s.variableIn language)) h

/-- What has the variables of two settings shows that they are for the same one. -/
theorem sameVariable_of_shared (h : g.holder? language existing s = some p)
    (h' : language.sameVariable (g.param p).variableName.text (s'.variableIn language) = true) :
    language.sameVariable (s.variableIn language) (s'.variableIn language) = true :=
  Language.sameVariable_trans (Language.sameVariable_symm (sameVariable_of_holder? h)) h'

theorem Carries.congr (h : g₀.Carries n existing g s p) (hlt : p.index < g'.params.length)
    (hparam : g'.param p = g.param p) : g₀.Carries n existing g' s p :=
  ⟨h.reused, h.fresh, hlt, hparam.trans h.param⟩

theorem Casts.node (h : g₀.Casts n existing s g p g') : g'.node n = g.node n := by
  unfold Graph.node
  rw [h.nodes]

/-- The settings are put on a parameter that is as it was before, but for its wires. -/
theorem Casts.of_updateParam (hnodes : g'.nodes = g.nodes) (hwired : g'.Wired)
    (hgrows : g.params.length ≤ g'.params.length)
    (hothers : ∀ q : ParamRef, q.index < g.params.length → g'.param q = g.param q) (hlt : p.index < g'.params.length)
    (hbare : g'.param p = (g₀.basis (g₀.node n).language existing s).bare)
    (hreused : ∀ q, g₀.holder? (g₀.node n).language existing s = some q → p = q)
    (hfresh : g₀.holder? (g₀.node n).language existing s = none → g₀.params.length ≤ p.index)
    (hnew : p ∉ (g.node n).params) :
    g₀.Casts n existing s g p
      (g'.updateParam p fun v => v.applyScriptSettings s (.str (s.variableIn (g₀.node n).language))) := by
  have hparam := param_updateParam
    (fun v => v.applyScriptSettings s (.str (s.variableIn (g₀.node n).language))) hlt
  have hlength : ∀ f, (g'.updateParam p f).params.length = g'.params.length := fun f => List.length_set
  constructor
  case reused => exact hreused
  case fresh => exact hfresh
  case nodes => exact hnodes
  case wired => exact hwired.updateParam p fun _ => ⟨rfl, rfl, rfl⟩
  case grows => exact (hlength _).symm ▸ hgrows
  case index_lt => exact (hlength _).symm ▸ hlt
  case param =>
    rw [hparam, if_pos rfl, hbare]
    exact Parameter.applyScriptSettings_bare _ _ _ _
  case others =>
    intro q hq hne
    rw [hparam, if_neg hne, hothers q hq]
  case new => exact hnew

/-- The holder of the variable is used again … -/
theorem Casts.reuse (hwired : g.Wired) (hholder : g₀.holder? (g₀.node n).language existing s = some p)
    (hlt : p.index < g.params.length) (hbare : g.param p = (g₀.param p).bare) (hnew : p ∉ (g.node n).params) :
    g₀.Casts n existing s g p
      (g.updateParam p fun v => v.applyScriptSettings s (.str (s.variableIn (g₀.node n).language))) := by
  refine .of_updateParam rfl hwired (Nat.le_refl _) (fun _ _ => rfl) hlt ?_ ?_ ?_ hnew
  · rw [hbare, basis, hholder]
    rfl
  · exact fun q hq => Option.some.inj (hholder.symm.trans hq)
  · exact fun hnone => nomatch hholder.symm.trans hnone

/-- … and if there is none, a parameter is made. -/
theorem Casts.create (hwired : g.Wired) (hholder : g₀.holder? (g₀.node n).language existing s = none)
    (hgrows : g₀.params.length ≤ g.params.length) (hnew : ⟨g.params.length⟩ ∉ (g.node n).params) :
    g₀.Casts n existing s g ⟨g.params.length⟩
      ((g.newParam (.ofVariable (.str (s.variableIn (g₀.node n).language)))).2.updateParam ⟨g.params.length⟩
        fun v => v.applyScriptSettings s (.str (s.variableIn (g₀.node n).language))) := by
  have hlength := g.length_newParam (.ofVariable (.str (s.variableIn (g₀.node n).language)))
  refine .of_updateParam rfl ?_ ?_ (fun q hq => param_newParam g _ hq) ?_ ?_ ?_ ?_ hnew
  · exact hwired.append rfl fun _ hq => List.mem_singleton.mp hq ▸ ⟨rfl, rfl, rfl⟩
  · exact hlength ▸ Nat.le_succ _
  · exact hlength ▸ Nat.lt_succ_self _
  · rw [param_newParam_self, basis, hholder]
    rfl
  · exact fun q hq => nomatch hholder.symm.trans hq
  · exact fun _ => hgrows

/-- A parameter that goes by a text was made. -/
theorem index_lt_of_named {t : String} (h : (g.param p).variableName = .str t) : p.index < g.params.length := by
  refine Nat.lt_of_not_le fun hle => ?_
  rw [param_of_length_le hle] at h
  cases h

/-- A parameter without wires on a wired graph is detached. -/
theorem Wired.detached (h : g.Wired) (hsources : (g.param p).sources = []) (hrecipients : (g.param p).recipients = []) :
    g.Detached p where
  sources := hsources
  recipients := hrecipients
  unfed := fun q hq => by
    rw [h.symmetric, hrecipients] at hq
    cases hq
  unfeeding := fun q hq => by
    rw [← h.symmetric, hsources] at hq
    cases hq

end Graph

/-- A parameter is on one side only. -/
theorem Node.Parted.side_eq {v : Node} (h : v.Parted) {p : ParamRef} {side side' : Side} (hp : p ∈ side.params v)
    (hp' : p ∈ side'.params v) : side = side' := by
  cases side <;> cases side'
  · rfl
  · exact absurd hp' (h p hp)
  · exact absurd hp (h p hp')
  · rfl

/-- A partner on the right has one on the left. -/
theorem exists_mem_of_forall₂ {α β : Type} {R : α → β → Prop} {items : List α} {others : List β}
    (h : List.Forall₂ R items others) {b : β} (hb : b ∈ others) : ∃ a ∈ items, R a b := by
  induction h with
  | nil => cases hb
  | @cons a _ _ _ hab _ ih =>
      rcases List.mem_cons.mp hb with rfl | hb
      · exact ⟨a, List.mem_cons_self, hab⟩
      · obtain ⟨a', ha', hrest⟩ := ih hb
        exact ⟨a', List.mem_cons_of_mem a ha', hrest⟩

namespace Work

open Procedure

variable {g₀ g g' : Graph} {n : NodeRef} {p : ParamRef} {s : ParameterSettings} {side : Side}
  {done : Side → List ParameterSettings}

/-! ## The invariant -/

/-- A script is being rebuilt: the settings that are done have their parameters on the node, and of the other
parameters that it had only the wires are lost. -/
structure Recast (g₀ : Graph) (n : NodeRef) (done : Side → List ParameterSettings) (g : Graph) : Prop where
  wired : g.Wired
  index_lt : n.index < g.nodes.length
  grows : g₀.params.length ≤ g.params.length
  carried : ∀ side : Side,
    List.Forall₂ (g₀.Carries n (side.params (g₀.node n)) g) (done side) (side.params (g.node n))
  distinct : (g.node n).params.Nodup
  spare : ∀ p ∈ (g₀.node n).params, p ∉ (g.node n).params → g.param p = (g₀.param p).bare

/-- A setting is for another variable than those that are done on its side. -/
def IsNew (language : Language) (done : List ParameterSettings) (s : ParameterSettings) : Prop :=
  ∀ s' ∈ done, language.sameVariable (s'.variableIn language) (s.variableIn language) = false

/-- No two of some settings are for the same variable. -/
def AllNew (language : Language) (settings : List ParameterSettings) : Prop :=
  settings.Pairwise fun s s' => language.sameVariable (s.variableIn language) (s'.variableIn language) = false

instance (language : Language) (settings : List ParameterSettings) : Decidable (AllNew language settings) :=
  inferInstanceAs (Decidable (settings.Pairwise _))

theorem AllNew.isNew {language : Language} {settings before after : List ParameterSettings}
    (h : AllNew language settings) (heq : settings = before ++ s :: after) : IsNew language before s := by
  unfold AllNew at h
  rw [heq, List.pairwise_append] at h
  exact fun s' hs' => h.2.2 s' hs' s List.mem_cons_self

namespace Recast

/-- Nothing is done when all parameters were taken from the node. -/
theorem start (h : g₀.Wired) (hn : n.index < g₀.nodes.length) : Recast g₀ n (Side.pick [] []) (g₀.unregisterAll n) := by
  obtain ⟨hstrips, hnode⟩ := Graph.unregisterAll_strips h hn
  constructor
  case wired => exact hstrips.wired
  case index_lt => exact hstrips.nodes ▸ hn
  case grows => exact Nat.le_of_eq hstrips.length.symm
  case carried =>
    intro side
    rw [hnode]
    cases side <;> exact .nil
  case distinct =>
    rw [hnode]
    exact List.nodup_nil
  case spare => exact fun p hp _ => hstrips.param_eq hp

/-- An old parameter that is on the node again carries a setting of the side that it was on, and is the holder
of its variable. -/
theorem exists_carries (h : Recast g₀ n done g) (hparted : (g₀.node n).Parted) (hlt : p.index < g₀.params.length)
    (hold : p ∈ side.params (g₀.node n)) (hp : p ∈ (g.node n).params) : ∃ s ∈ done side,
      g₀.holder? (g₀.node n).language (side.params (g₀.node n)) s = some p ∧
        g₀.Carries n (side.params (g₀.node n)) g s p := by
  obtain ⟨side', hside'⟩ := Side.exists_mem_params _ hp
  obtain ⟨s, hs, hcarries⟩ := exists_mem_of_forall₂ (h.carried side') hside'
  cases hholder : g₀.holder? (g₀.node n).language (side'.params (g₀.node n)) s with
  | none => exact absurd hlt (Nat.not_lt_of_le (hcarries.fresh hholder))
  | some q =>
      obtain rfl := hcarries.reused q hholder
      obtain rfl := hparted.side_eq hold (List.mem_of_find?_eq_some hholder)
      exact ⟨s, hs, hholder, hcarries⟩

theorem own (h : Recast g₀ n done g) (hp : p ∈ (g.node n).params) : p.index < g.params.length := by
  obtain ⟨side, hside⟩ := Side.exists_mem_params _ hp
  obtain ⟨_, -, hcarries⟩ := exists_mem_of_forall₂ (h.carried side) hside
  exact hcarries.index_lt

/-- What is to be used again by a new setting is not on the node. -/
theorem holder_notMem (h : Recast g₀ n done g) (hparted : (g₀.node n).Parted) (hlt : p.index < g₀.params.length)
    (hnew : IsNew (g₀.node n).language (done side) s)
    (hholder : g₀.holder? (g₀.node n).language (side.params (g₀.node n)) s = some p) : p ∉ (g.node n).params := by
  intro hp
  obtain ⟨s', hs', hholder', -⟩ := h.exists_carries hparted hlt (List.mem_of_find?_eq_some hholder) hp
  have hsame := Graph.sameVariable_of_shared hholder' (Graph.sameVariable_of_holder? hholder)
  rw [hnew s' hs'] at hsame
  cases hsame

/-- The parameters that were there still go by texts. -/
theorem named (h : Recast g₀ n done g) (hparted : (g₀.node n).Parted)
    (hnamed : ∀ p ∈ (g₀.node n).params, ∃ t, (g₀.param p).variableName = .str t) :
    ∀ p ∈ side.params (g₀.node n), ∃ t, (g.param p).variableName = .str t := by
  intro p hold
  obtain ⟨t, ht⟩ := hnamed p (side.params_subset _ hold)
  by_cases hp : p ∈ (g.node n).params
  · obtain ⟨s, -, -, hcarries⟩ := h.exists_carries hparted (Graph.index_lt_of_named ht) hold hp
    exact ⟨_, congrArg Parameter.variableName hcarries.param⟩
  · rw [h.spare p (side.params_subset _ hold) hp]
    exact ⟨t, ht⟩

/-- A new setting finds the holder of its variable that it would have found at first. -/
theorem holder?_eq (h : Recast g₀ n done g) (hparted : (g₀.node n).Parted)
    (hnamed : ∀ p ∈ (g₀.node n).params, ∃ t, (g₀.param p).variableName = .str t)
    (hnew : IsNew (g₀.node n).language (done side) s) :
    g.holder? (g₀.node n).language (side.params (g₀.node n)) s =
      g₀.holder? (g₀.node n).language (side.params (g₀.node n)) s := by
  refine List.find?_congr fun p hold => ?_
  by_cases hp : p ∈ (g.node n).params
  · -- its variable is that of a setting that is done, and it was the same before
    obtain ⟨t, ht⟩ := hnamed p (side.params_subset _ hold)
    obtain ⟨s', hs', hholder, hcarries⟩ := h.exists_carries hparted (Graph.index_lt_of_named ht) hold hp
    have hvariable : (g.param p).variableName.text = s'.variableIn (g₀.node n).language := by
      rw [hcarries.param]
      rfl
    rw [hvariable, hnew s' hs', eq_comm, Bool.eq_false_iff]
    intro htrue
    have hsame := Graph.sameVariable_of_shared hholder htrue
    rw [hnew s' hs'] at hsame
    cases hsame
  · rw [h.spare p (side.params_subset _ hold) hp]
    rfl

theorem sameSides (h : Recast g₀ n done g) (hn : n.index < g'.nodes.length) (hsides : g.SameSides n g') :
    Recast g₀ n done g' := by
  have hparams : (g'.node n).params = (g.node n).params := by
    unfold Node.params
    rw [hsides.inputs, hsides.outputs]
  constructor
  case wired => exact h.wired.congr fun p => by simp [hsides.param]
  case index_lt => exact hn
  case grows => exact hsides.params ▸ h.grows
  case carried =>
    intro side
    rw [side.params_congr hsides]
    exact (h.carried side).imp fun s p hcarries => hcarries.congr (hsides.params ▸ hcarries.index_lt) (hsides.param p)
  case distinct => exact hparams ▸ h.distinct
  case spare =>
    intro p hp hnot
    rw [hsides.param]
    exact h.spare p hp (hparams ▸ hnot)

/-- One more setting has its parameter. -/
theorem register (h : Recast g₀ n done g)
    (hnamed : ∀ p ∈ (g₀.node n).params, ∃ t, (g₀.param p).variableName = .str t)
    (hcasts : g₀.Casts n (side.params (g₀.node n)) s g p g') (done' : Side → List ParameterSettings)
    (hself : done' side = done side ++ [s]) (hother : ∀ side' ≠ side, done' side' = done side') :
    Recast g₀ n done' (side.register g' n p) ∧ (side.register g' n p).node n = side.extend (g.node n) p := by
  have hn : n.index < g'.nodes.length := hcasts.nodes ▸ h.index_lt
  have hnode : (side.register g' n p).node n = side.extend (g.node n) p := by
    rw [← hcasts.node]
    exact (side.node_register hn p).trans (if_neg fun hmem => hcasts.new (hcasts.node ▸ side.params_subset _ hmem))
  have hlength : g.params.length ≤ (side.register g' n p).params.length := by
    rw [side.params_register]
    exact hcasts.grows
  have hothers : ∀ q : ParamRef, q.index < g.params.length → q ≠ p →
      (side.register g' n p).param q = g.param q := by
    intro q hq hne
    rw [side.param_register hcasts.index_lt, if_neg hne, hcasts.others q hq hne]
  have hold : ∀ side' : Side, List.Forall₂ (g₀.Carries n (side'.params (g₀.node n)) (side.register g' n p))
      (done side') (side'.params (g.node n)) := by
    intro side'
    refine List.forall₂_iff_zip.mpr ⟨(h.carried side').length_eq, fun hzip => ?_⟩
    have hcarries := List.forall₂_zip (h.carried side') hzip
    refine hcarries.congr (Nat.lt_of_lt_of_le hcarries.index_lt hlength) (hothers _ hcarries.index_lt ?_)
    rintro rfl
    exact hcasts.new (side'.params_subset _ (List.of_mem_zip hzip).2)
  refine ⟨?_, hnode⟩
  constructor
  case wired => exact side.wired_register hcasts.wired n p
  case index_lt => rwa [side.nodes_register]
  case grows => exact Nat.le_trans h.grows hlength
  case carried =>
    intro side'
    rw [hnode]
    by_cases hside : side' = side
    · subst hside
      rw [hself, side'.params_extend_self]
      refine List.rel_append (hold side') (.cons ⟨hcasts.reused, hcasts.fresh, ?_, ?_⟩ .nil)
      · rw [side'.params_register]
        exact hcasts.index_lt
      · rw [side'.param_register hcasts.index_lt, if_pos rfl, hcasts.param]
    · rw [hother side' hside, Side.params_extend_of_ne hside]
      exact hold side'
  case distinct =>
    rw [hnode, (side.perm_params_extend _ p).nodup_iff, List.nodup_cons]
    exact ⟨hcasts.new, h.distinct⟩
  case spare =>
    intro q hq hnot
    rw [hnode, (side.perm_params_extend _ p).mem_iff, List.mem_cons, not_or] at hnot
    obtain ⟨t, ht⟩ := hnamed q hq
    rw [hothers q (Nat.lt_of_lt_of_le (Graph.index_lt_of_named ht) h.grows) hnot.1]
    exact h.spare q hq hnot.2

end Recast

/-! ## One setting -/

section

variable {inputs outputs : List ParameterSettings} (hparted : (g₀.node n).Parted)
  (hnamed : ∀ p ∈ (g₀.node n).params, ∃ t, (g₀.param p).variableName = .str t)

include hparted hnamed

/-- A setting for a new variable goes to the holder of that variable, or to a new parameter. -/
theorem scriptParameter_casts (side : Side) (h : Recast g₀ n done g) (hs : s.Typed)
    (hnew : IsNew (g₀.node n).language (done side) s) :
    (scriptParameter (g₀.node n).language (side.params (g₀.node n)) s).Succeeds g fun p g' =>
      g₀.Casts n (side.params (g₀.node n)) s g p g' := by
  refine (scriptParameter_receives hs (h.named hparted hnamed)).mono fun p g' hreceives => ?_
  cases hreceives with
  | reused hholder =>
      rw [h.holder?_eq hparted hnamed hnew] at hholder
      have hold : p ∈ (g₀.node n).params := side.params_subset _ (List.mem_of_find?_eq_some hholder)
      obtain ⟨t, ht⟩ := hnamed p hold
      have hlt := Graph.index_lt_of_named ht
      have hnot := h.holder_notMem hparted hlt hnew hholder
      exact .reuse h.wired hholder (Nat.lt_of_lt_of_le hlt h.grows) (h.spare p hold hnot) hnot
  | created hholder =>
      rw [h.holder?_eq hparted hnamed hnew] at hholder
      exact .create h.wired hholder h.grows fun hmem => absurd (h.own hmem) (Nat.lt_irrefl _)

/-- One more input has its parameter, and it may be the principal one. -/
theorem rebuildInput_recast (h : Recast g₀ n (Side.pick inputs outputs) g) (hs : s.Typed)
    (hnew : IsNew (g₀.node n).language inputs s) :
    Succeeds (do
      let p ← scriptParameter (g₀.node n).language (g₀.node n).inputs s
      update fun g => g.registerInput n p
      if s.isPrincipal then setPrincipal n p) g fun _ g' =>
        Recast g₀ n (Side.pick (inputs ++ [s]) outputs) g' ∧
          (g'.node n).principal = if s.isPrincipal then .int inputs.length else (g.node n).principal := by
  refine (scriptParameter_casts hparted hnamed .input h hs hnew).bind fun p g' hcasts => ?_
  obtain ⟨h', hnode⟩ := h.register hnamed hcasts (Side.pick (inputs ++ [s]) outputs) rfl
    fun side' hne => by cases side' with | input => exact absurd rfl hne | output => rfl
  change Recast g₀ n _ (g'.registerInput n p) at h'
  change (g'.registerInput n p).node n = _ at hnode
  refine (succeeds_update (Q := fun _ g'' => g'' = g'.registerInput n p) rfl).andThen fun g'' hg'' => ?_
  subst hg''
  split
  · -- the new parameter is the last of the inputs
    have hlast : ((g'.registerInput n p).node n).inputs.idxOf p = inputs.length := by
      rw [hnode]
      change List.idxOf p ((g.node n).inputs ++ [p]) = _
      rw [List.idxOf_append_of_notMem fun hmem => hcasts.new (List.mem_append_left _ hmem), List.idxOf_cons_self]
      exact (h.carried .input).length_eq.symm
    refine succeeds_update ⟨h'.sameSides ?_ (.setNode _ rfl rfl), ?_⟩
    · simpa [Graph.updateNode, Graph.setNode] using h'.index_lt
    · rw [Graph.updateNode, Graph.node_setNode_self _ _ h'.index_lt, hlast]
  · exact succeeds_pure ⟨h', hnode ▸ Side.input.principal_extend _ p⟩

/-- One more output has its parameter. -/
theorem rebuildOutput_recast (h : Recast g₀ n (Side.pick inputs outputs) g) (hs : s.Typed)
    (hnew : IsNew (g₀.node n).language outputs s) :
    Succeeds (do
      let p ← scriptParameter (g₀.node n).language (g₀.node n).outputs s
      update fun g => g.registerOutput n p) g fun _ g' =>
        Recast g₀ n (Side.pick inputs (outputs ++ [s])) g' ∧ (g'.node n).principal = (g.node n).principal := by
  refine (scriptParameter_casts hparted hnamed .output h hs hnew).bind fun p g' hcasts => ?_
  obtain ⟨h', hnode⟩ := h.register hnamed hcasts (Side.pick inputs (outputs ++ [s])) rfl
    fun side' hne => by cases side' with | input => rfl | output => exact absurd rfl hne
  exact succeeds_update ⟨h', hnode ▸ Side.output.principal_extend _ p⟩

/-! ## All settings -/

/-- All inputs have their parameters. -/
theorem rebuildInputs_recast (h : Recast g₀ n (Side.pick [] []) g)
    (hprincipal : (g.node n).principal = (g₀.node n).principal) (hs : ∀ s ∈ inputs, s.Typed)
    (hnew : AllNew (g₀.node n).language inputs) :
    (inputs.forM fun s => do
      let p ← scriptParameter (g₀.node n).language (g₀.node n).inputs s
      update fun g => g.registerInput n p
      if s.isPrincipal then setPrincipal n p).Succeeds g fun _ g' =>
        Recast g₀ n (Side.pick inputs []) g' ∧ (g'.node n).principal =
          ParameterSettings.lastPrincipal inputs (g₀.node n).principal := by
  refine succeeds_forM_append (I := fun done g' => Recast g₀ n (Side.pick done []) g' ∧ (g'.node n).principal =
      ParameterSettings.lastPrincipal done (g₀.node n).principal)
    (fun done s rest heq g' ⟨h, hprincipal⟩ => ?_) ⟨h, hprincipal⟩
  refine (rebuildInput_recast hparted hnamed h (hs s (by simp [heq])) (hnew.isNew heq)).mono
    fun _ g'' ⟨h', hprincipal'⟩ => ⟨h', ?_⟩
  rw [hprincipal', ParameterSettings.lastPrincipal_concat, hprincipal]

/-- All outputs have theirs. -/
theorem rebuildOutputs_recast (h : Recast g₀ n (Side.pick inputs []) g) (hs : ∀ s ∈ outputs, s.Typed)
    (hnew : AllNew (g₀.node n).language outputs) :
    (outputs.forM fun s => do
      let p ← scriptParameter (g₀.node n).language (g₀.node n).outputs s
      update fun g => g.registerOutput n p).Succeeds g fun _ g' =>
        Recast g₀ n (Side.pick inputs outputs) g' ∧ (g'.node n).principal = (g.node n).principal := by
  refine succeeds_forM_append (I := fun done g' => Recast g₀ n (Side.pick inputs done) g' ∧
    (g'.node n).principal = (g.node n).principal) (fun done s rest heq g' ⟨h, hprincipal⟩ => ?_) ⟨h, rfl⟩
  exact (rebuildOutput_recast hparted hnamed h (hs s (by simp [heq])) (hnew.isNew heq)).mono
    fun _ g'' ⟨h', hprincipal'⟩ => ⟨h', hprincipal'.trans hprincipal⟩

end

/-- A script has exactly the parameters that a component has settings for. -/
structure Restocked (g₀ : Graph) (n : NodeRef) (c : Component) (g : Graph) : Prop where
  /-- Each setting has a parameter, in order and on its side. -/
  carried : ∀ side : Side,
    List.Forall₂ (g₀.Carries n (side.params (g₀.node n)) g) (side.settings c) (side.params (g.node n))
  distinct : (g.node n).params.Nodup
  /-- Neither the parameters that it has nor those that it had are wired to anything. -/
  detached : ∀ p ∈ (g₀.node n).params ++ (g.node n).params, g.Detached p
  /-- Those that it had and that no setting uses again are gone. -/
  kept : ∀ p ∈ (g₀.node n).params, p ∈ (g.node n).params → ∃ side : Side, ∃ s ∈ side.settings c,
    g₀.holder? (g₀.node n).language (side.params (g₀.node n)) s = some p
  principal : (g.node n).principal = ParameterSettings.lastPrincipal c.inputs (g₀.node n).principal
  /-- Variables can be read as the names that were recorded. -/
  readable : ∀ side : Side, ∀ s ∈ side.settings c,
    (g₀.node n).language.unsanitize (s.variableIn (g₀.node n).language) = .ok s.effectiveVariable.text

theorem Recast.restocked {c : Component} (h : Recast g₀ n (Side.pick c.inputs c.outputs) g)
    (hparted : (g₀.node n).Parted) (hnamed : ∀ p ∈ (g₀.node n).params, ∃ t, (g₀.param p).variableName = .str t)
    (hprincipal : (g.node n).principal = ParameterSettings.lastPrincipal c.inputs (g₀.node n).principal) :
    Restocked g₀ n c g := by
  have hsettings : ∀ side : Side, Side.pick c.inputs c.outputs side = side.settings c := fun side => by
    cases side <;> rfl
  have hcarried : ∀ side : Side,
      List.Forall₂ (g₀.Carries n (side.params (g₀.node n)) g) (side.settings c) (side.params (g.node n)) :=
    fun side => hsettings side ▸ h.carried side
  constructor
  case carried => exact hcarried
  case distinct => exact h.distinct
  case detached =>
    intro p hp
    by_cases hnow : p ∈ (g.node n).params
    · obtain ⟨side, hmem⟩ := Side.exists_mem_params _ hnow
      obtain ⟨s, -, hcarries⟩ := exists_mem_of_forall₂ (hcarried side) hmem
      exact h.wired.detached (by rw [hcarries.param]; rfl) (by rw [hcarries.param]; rfl)
    · have hbare := h.spare p ((List.mem_append.mp hp).resolve_right hnow) hnow
      exact h.wired.detached (by rw [hbare]; rfl) (by rw [hbare]; rfl)
  case kept =>
    intro p hold hnow
    obtain ⟨side, hmem⟩ := Side.exists_mem_params _ hold
    obtain ⟨t, ht⟩ := hnamed p hold
    obtain ⟨s, hs, hholder, -⟩ := h.exists_carries hparted (Graph.index_lt_of_named ht) hmem hnow
    exact ⟨side, s, hsettings side ▸ hs, hholder⟩
  case principal => exact hprincipal
  case readable => exact fun _ s _ => s.unsanitize_variableIn _

/-- **The parameters of a script are rebuilt one for each setting.**  What the script had is used again where it
is the first under the variable of a setting, and it is gone otherwise; nothing keeps its wires.  The settings of
a side must be for different variables, or one parameter would have to carry two.  Every graph that can be reached
is wired (`Graph.Reachable.tidy`). -/
theorem rebuildScript_parameters {c : Component} (hg : g.Wired) (hn : n.index < g.nodes.length)
    (hnamed : ∀ p ∈ (g.node n).params, ∃ t, (g.param p).variableName = .str t) (hparted : (g.node n).Parted)
    (hc : c.Typed) (hnew : ∀ side : Side, AllNew (g.node n).language (side.settings c)) :
    (rebuildScript n c).Succeeds g fun _ g' => Restocked g n c g' := by
  have hstart : Recast g n (Side.pick [] []) (g.unregisterAll n) ∧
      ((g.unregisterAll n).node n).principal = (g.node n).principal :=
    ⟨.start hg hn, by rw [(Graph.unregisterAll_strips hg hn).2]⟩
  unfold rebuildScript
  refine succeeds_graph_bind ?_
  dsimp only
  refine (succeeds_update (Q := fun _ g' => Recast g n (Side.pick [] []) g' ∧
    (g'.node n).principal = (g.node n).principal) hstart).andThen fun g₁ ⟨h₁, hprincipal₁⟩ => ?_
  refine (rebuildInputs_recast hparted hnamed h₁ hprincipal₁ hc.inputs (hnew .input)).andThen
    fun g₂ ⟨h₂, hprincipal₂⟩ => ?_
  refine (rebuildOutputs_recast hparted hnamed h₂ hc.outputs (hnew .output)).andThen fun g₃ ⟨h₃, hprincipal₃⟩ => ?_
  replace hprincipal₃ := hprincipal₃.trans hprincipal₂
  obtain ⟨inputs, hinputs⟩ := exists_mapM_eq_ok fun s hs => declaredHint_ok (hc.inputs s hs)
  obtain ⟨outputs, houtputs⟩ := exists_mapM_eq_ok fun s hs => declaredHint_ok (hc.outputs s hs)
  refine succeeds_ofResult_bind hinputs (succeeds_ofResult_bind houtputs ?_)
  split
  · -- the hints go into the script, and concern no parameter
    refine succeeds_graph_bind ?_
    refine (succeeds_logged (Q := fun _ s => s = g₃) rfl).bind fun retyped s hs => ?_
    subst hs
    refine succeeds_update (Recast.restocked (h₃.sameSides ?_ (.setNode _ rfl rfl)) hparted hnamed ?_)
    · simpa [Graph.updateNode, Graph.setNode] using h₃.index_lt
    · rw [Graph.updateNode, Graph.node_setNode_self _ _ h₃.index_lt]
      exact hprincipal₃
  · exact succeeds_pure (h₃.restocked hparted hnamed hprincipal₃)

/-- Two C# scripts, of which each feeds the first input of the other. -/
def loopedScripts : Graph :=
  [.make (Catalog.scriptType "script" "Script" .csharp), .make (Catalog.scriptType "script" "Script" .csharp),
    .connect ⟨2⟩ ⟨3⟩, .connect ⟨5⟩ ⟨0⟩].foldl Graph.edit (.empty .counter)

/-- A setting with a name and a variable. -/
def variableSetting (name variableName : String) (isPrincipal : Bool) : ParameterSettings :=
  { ParameterSettings.named (.str name) with variableName := .str variableName, isPrincipal }

/-- Two inputs, of which the second is the first of the scripts', and the output. -/
def loopedComponent : Component :=
  { (default : Component) with
    inputs := [variableSetting "Radius" "Max Radius" true, variableSetting "X" "x" false]
    outputs := [variableSetting "A" "a" false] }

theorem rebuildScript_parameters_looped :
    (loopedScripts.param ⟨3⟩).sources = [⟨2⟩] ∧
      (rebuildScript ⟨1⟩ loopedComponent).Succeeds loopedScripts fun _ g' =>
        (∃ p : ParamRef, (g'.node ⟨1⟩).inputs = [p, ⟨3⟩] ∧ 6 ≤ p.index ∧
          (g'.param p).variableName = .str "@__Max_20Radius") ∧
        (g'.node ⟨1⟩).outputs = [⟨5⟩] ∧ (g'.node ⟨1⟩).principal = .int 0 ∧ g'.Detached ⟨3⟩ ∧ g'.Detached ⟨4⟩ := by
  have hreachable : loopedScripts.Reachable := by
    have hfirst := (Graph.Reachable.start .counter).step
      (e := .make (Catalog.scriptType "script" "Script" .csharp)) trivial
    have hmade := hfirst.step (e := .make (Catalog.scriptType "script" "Script" .csharp)) trivial
    exact (hmade.step (e := .connect ⟨2⟩ ⟨3⟩) (by decide : 2 < 6 ∧ 3 < 6)).step (e := .connect ⟨5⟩ ⟨0⟩)
      (by decide : 5 < 6 ∧ 0 < 6)
  have hold : (loopedScripts.node ⟨1⟩).params = [⟨3⟩, ⟨4⟩, ⟨5⟩] := by decide +kernel
  have hnamed : ∀ p ∈ (loopedScripts.node ⟨1⟩).params, ∃ t, (loopedScripts.param p).variableName = .str t := by
    rw [hold]
    simp only [List.forall_mem_cons, List.not_mem_nil, false_imp_iff, implies_true, and_true]
    exact ⟨⟨"x", rfl⟩, ⟨"y", rfl⟩, ⟨"a", rfl⟩⟩
  have hsetting : ∀ name variableName isPrincipal, (variableSetting name variableName isPrincipal).Typed :=
    fun name variableName _ => ⟨⟨name, rfl⟩, .inr ⟨variableName, rfl⟩, .inl rfl⟩
  have htyped : loopedComponent.Typed := by
    constructor <;> simp only [loopedComponent, List.forall_mem_cons, List.not_mem_nil, false_imp_iff,
      implies_true, and_true, hsetting]
  have hparted : (loopedScripts.node ⟨1⟩).Parted := by
    unfold Node.Parted
    decide +kernel
  refine ⟨by decide +kernel, ?_⟩
  refine (rebuildScript_parameters hreachable.tidy.toWired (by decide +kernel) hnamed hparted htyped
    fun side => by cases side <;> decide +kernel).mono fun _ g' h => ?_
  have hnone : loopedScripts.holder? .csharp [⟨3⟩, ⟨4⟩] (variableSetting "Radius" "Max Radius" true) = none := by
    decide +kernel
  have hvariable : (variableSetting "Radius" "Max Radius" true).variableIn .csharp = "@__Max_20Radius" := by
    decide +kernel
  have hx : loopedScripts.holder? .csharp [⟨3⟩, ⟨4⟩] (variableSetting "X" "x" false) = some ⟨3⟩ := by decide +kernel
  have ha : loopedScripts.holder? .csharp [⟨5⟩] (variableSetting "A" "a" false) = some ⟨5⟩ := by decide +kernel
  obtain ⟨p, rest, hp, hrest, hinputs⟩ := List.forall₂_cons_left_iff.mp (h.carried .input)
  obtain ⟨q, _, hq, hnil, rfl⟩ := List.forall₂_cons_left_iff.mp hrest
  obtain rfl := List.forall₂_nil_left_iff.mp hnil
  obtain ⟨r, _, hr, hnil, houtputs⟩ := List.forall₂_cons_left_iff.mp (h.carried .output)
  obtain rfl := List.forall₂_nil_left_iff.mp hnil
  obtain rfl := hq.reused _ hx
  obtain rfl := hr.reused _ ha
  refine ⟨⟨p, hinputs, hp.fresh hnone, ?_⟩, houtputs, h.principal, ?_, ?_⟩
  · rw [hp.param]
    exact congrArg Value.str hvariable
  · exact h.detached _ (List.mem_append_left _ (by rw [hold]; decide))
  · exact h.detached _ (List.mem_append_left _ (by rw [hold]; decide))

end Work

end Patchbay
