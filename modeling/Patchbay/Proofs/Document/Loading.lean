import Patchbay.Proofs.Document.Reading

/-!
# Loading what was captured

Settings are written whatever their name is, and read only if they have one.  This module says which
documents are loaded again, among those that capture makes.

* `ParameterSettings.IsRecorded`, `Component.IsRecorded`, `Document.IsRecorded` — the names are texts, the
  modes are of their kinds, and the messages can be written
* `ParameterSettings.isNamed`, `Component.isNamed`, `Document.isNamed` — no settings are without both a name
  and a variable
* `ParameterSettings.loaded`, … — what comes of them
* **`Document.IsRecorded.ofValue_toValue_of_named`**, **`Document.IsRecorded.ofValue_toValue_of_unnamed`** — a
  document with such names is read back whole; another is refused at the first component without
-/

namespace Patchbay

/-! ## Settings of parameters -/

namespace ParameterSettings

/-- The names are texts, as far as they are there, and the modes are of their kinds. -/
structure IsRecorded (s : ParameterSettings) : Prop extends HasReadableModes s where
  name : ∃ n, s.name = .str n
  variableName : s.variableName = .null ∨ ∃ v, s.variableName = .str v

/-- Whether there is a name, or a variable in its place. -/
def isNamed (s : ParameterSettings) : Bool := s.name.truthy || s.variableName.truthy

/-- What is loaded of settings that were written; a variable makes up for a missing name. -/
def loaded (s : ParameterSettings) : ParameterSettings := { s.reread with name := s.name.orElse s.variableName }

variable {s : ParameterSettings}

/-- The name that is found is the name or the variable. -/
theorem IsRecorded.readName_eq (h : s.IsRecorded) (hnamed : s.isNamed = true) :
    ∃ n, s.readName = .str n ∧ s.name.orElse s.variableName = .str n ∧ (Value.str n).truthy = true := by
  obtain ⟨n, hname⟩ := h.name
  unfold isNamed at hnamed
  unfold readName Value.orElse
  rw [hname] at hnamed ⊢
  cases hn : (Value.str n).truthy with
  | true => exact ⟨n, by simp [hn], by simp, hn⟩
  | false =>
      rw [hn, Bool.false_or] at hnamed
      have hempty : n = "" := by simpa [Value.truthy, String.isEmpty_iff] using hn
      rcases h.variableName with hnull | ⟨v, hv⟩
      · rw [hnull] at hnamed
        cases hnamed
      · rw [hv] at hnamed ⊢
        have hdiffers : s.differs (.str v) = true := by
          have hne : v ≠ "" := by simpa [Value.truthy, String.isEmpty_iff] using hnamed
          unfold differs
          rw [hname, hempty, hnamed, Value.sameAs_str]
          simpa using hne
        exact ⟨v, by simp [hdiffers, Value.truthy], by simp, hnamed⟩

theorem readName_of_unnamed (h : s.isNamed = false) : s.readName.truthy = false := by
  unfold isNamed at h
  obtain ⟨hname, hvariable⟩ := Bool.or_eq_false_iff.mp h
  have hdiffers : s.differs s.variableName = false := by
    unfold differs
    rw [hvariable, Bool.false_and]
  unfold readName Value.orElse
  rw [hname, hdiffers]
  rfl

theorem IsRecorded.ofValue_toValue (h : s.IsRecorded) : ofValue s.toValue =
    if s.isNamed then .ok s.loaded else .error (.document none .unnamedParameter) := by
  rw [h.toHasReadableModes.ofValue_toValue]
  cases hnamed : s.isNamed with
  | true =>
      obtain ⟨n, hread, hname, htruthy⟩ := h.readName_eq hnamed
      rw [hread, htruthy, if_pos rfl, Value.text?_str, if_pos rfl, loaded, hname]
      rfl
  | false =>
      rw [readName_of_unnamed hnamed]
      rfl

end ParameterSettings

/-! ## Components -/

namespace Component

/-- The names are texts, as far as they are there, and the messages can be written. -/
structure IsRecorded (c : Component) : Prop where
  name : ∃ n, c.name = .str n
  typeKey : ∃ k, c.typeKey = .str k
  inputs : ∀ s ∈ c.inputs, s.IsRecorded
  outputs : ∀ s ∈ c.outputs, s.IsRecorded
  warnings : ∀ v ∈ c.warnings, v.hasText = true
  errors : ∀ v ∈ c.errors, v.hasText = true

/-- Whether all settings have a name. -/
def isNamed (c : Component) : Bool :=
  c.inputs.all ParameterSettings.isNamed && c.outputs.all ParameterSettings.isNamed

/-- What is loaded of a component that was written. -/
def loaded (c : Component) : Component :=
  { c with
    properties := c.properties.map fun (name, p) => (name, Property.ofValue p.toValue)
    inputs := c.inputs.map ParameterSettings.loaded
    outputs := c.outputs.map ParameterSettings.loaded
    warnings := c.warnings.map fun v => .str v.text
    errors := c.errors.map fun v => .str v.text }

theorem mapM_ofValue_toValue {settings : List ParameterSettings} (h : ∀ s ∈ settings, s.IsRecorded) :
    (settings.mapM fun s => ParameterSettings.ofValue s.toValue) =
      if settings.all ParameterSettings.isNamed then .ok (settings.map ParameterSettings.loaded)
      else .error (.document none .unnamedParameter) :=
  mapM_eq_ite fun s hs => (h s hs).ofValue_toValue

theorem IsRecorded.ofValue_toValue {c : Component} (h : c.IsRecorded) : ofValue c.toValue =
    if c.isNamed then .ok c.loaded else .error (.document none .unnamedParameter) := by
  rw [ofValue_toValue_eq h.name h.typeKey h.warnings h.errors, mapM_ofValue_toValue h.inputs,
    mapM_ofValue_toValue h.outputs, isNamed]
  cases c.inputs.all ParameterSettings.isNamed <;> cases c.outputs.all ParameterSettings.isNamed <;> rfl

end Component

/-! ## Documents -/

/-- A section is refused at the first item that is, and the fault says where it is. -/
theorem readSection_eq_error {α β : Type} (part : DocumentSection) {read : Value → Except Fault α}
    {value : β → Value} {p : β → Bool} {f : β → α} {cause : DocumentFault} {items : List β}
    (h : ∀ b ∈ items, read (value b) = if p b then .ok (f b) else .error (.document none cause))
    (hsome : items.all p = false) (index : Nat) :
    ∃ i b, items[i]? = some b ∧ p b = false ∧ (items.take i).all p = true ∧
      readSection part read index (items.map value) = .error (.document (some (part, index + i)) cause) := by
  induction items generalizing index with
  | nil => cases hsome
  | cons b rest ih =>
      rw [List.map_cons, readSection, h b List.mem_cons_self]
      cases hb : p b with
      | false => exact ⟨0, b, rfl, hb, rfl, rfl⟩
      | true =>
          rw [List.all_cons, hb, Bool.true_and] at hsome
          obtain ⟨i, c, hc, hp, hfirst, hread⟩ := ih (fun c hc => h c (List.mem_cons_of_mem b hc)) hsome (index + 1)
          refine ⟨i + 1, c, hc, hp, by rw [List.take_succ_cons, List.all_cons, hb, hfirst, Bool.true_and], ?_⟩
          simp only [if_true, hread]
          rw [Nat.add_assoc, Nat.add_comm 1 i]
          rfl

namespace Document

/-- The names are texts, as far as they are there, and the messages can be written. -/
structure IsRecorded (d : Document) : Prop where
  components : ∀ c ∈ d.components, c.IsRecorded
  sources : ∀ c ∈ d.connections, ∃ n, c.source.name = .str n
  targets : ∀ c ∈ d.connections, ∃ n, c.target.name = .str n

/-- Whether all settings have a name. -/
def isNamed (d : Document) : Bool := d.components.all Component.isNamed

/-- What is loaded of a document that was written. -/
def loaded (d : Document) : Document := { d with components := d.components.map Component.loaded }

variable {d : Document}

theorem IsRecorded.ofValue_toValue_of_named (h : d.IsRecorded) (hnamed : d.isNamed = true) :
    ofValue d.toValue = .ok d.loaded := by
  change (do
    let components ← readSection .components Component.ofValue 0 (d.components.map Component.toValue)
    let connections ← readSection .connections Connection.ofValue 0 (d.connections.map Connection.toValue)
    return ⟨components, connections⟩ : Except Fault Document) = _
  have hcomponent : ∀ c ∈ d.components, Component.ofValue c.toValue = .ok c.loaded := by
    intro c hc
    rw [(h.components c hc).ofValue_toValue, if_pos (List.all_eq_true.mp hnamed c hc)]
  rw [readSection_eq_ok hcomponent, readSection_eq_ok (f := fun c => c) fun c hc =>
    Connection.ofValue_toValue (h.sources c hc) (h.targets c hc), List.map_id']
  rfl

theorem IsRecorded.ofValue_toValue_of_unnamed (h : d.IsRecorded) (hunnamed : d.isNamed = false) :
    ∃ i c, d.components[i]? = some c ∧ c.isNamed = false ∧ (d.components.take i).all Component.isNamed = true ∧
      ofValue d.toValue = .error (.document (some (.components, i)) .unnamedParameter) := by
  obtain ⟨i, c, hc, hcunnamed, hfirst, hread⟩ := readSection_eq_error .components
    (fun c hc => (h.components c hc).ofValue_toValue) hunnamed 0
  refine ⟨i, c, hc, hcunnamed, hfirst, ?_⟩
  change (do
    let components ← readSection .components Component.ofValue 0 (d.components.map Component.toValue)
    let connections ← readSection .connections Connection.ofValue 0 (d.connections.map Connection.toValue)
    return ⟨components, connections⟩ : Except Fault Document) = _
  rw [hread, Nat.zero_add]
  rfl

end Document

end Patchbay
