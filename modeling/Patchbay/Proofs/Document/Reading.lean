import Mathlib.Data.List.Basic
import Patchbay.Document.Reader
import Patchbay.Document.Writer
import Patchbay.Proofs.Property.Applying

/-!
# Reading what was written

A document is read back from its object form.  What comes back is the document itself, except for what
the object form leaves out.

* `Entries.present` — fields of which some are there: an object is written by leaving out the others, and
  **a key is looked up among the fields themselves** (`Entries.get?_present`).
* **`ParameterSettings.reread`** — what is left of the settings of a parameter: a variable or a nick name
  that is just the parameter's name is gone, as are texts that are empty, a mapping that maps nothing, and
  modifiers that modify nothing.
* **`ParameterSettings.IsReadable.ofValue_toValue`**, and the same for a component and a document — reading
  gives exactly this, and it is never a fault.
* `ParameterSettings.toValue_reread` — and writing it again gives the same object.
-/

namespace Patchbay

/-! ## Entries -/

namespace Entries

/-- The fields that are there. -/
def present (fields : List (String × Option Value)) : Entries :=
  fields.filterMap fun f => f.2.map (Prod.mk f.1)

/-- A field is there under a condition. -/
def given (condition : Bool) (v : Value) : Option Value := if condition then some v else none

variable {fields : List (String × Option Value)} {key : String}

theorem present_cons (key : String) (o : Option Value) (fields : List (String × Option Value)) :
    present ((key, o) :: fields) = (o.map (Prod.mk key)).toList ++ present fields := by
  cases o <;> rfl

theorem entryIf_eq (condition : Bool) (key : String) (v : Value) :
    entryIf condition key v = ((given condition v).map (Prod.mk key)).toList := by
  cases condition <;> rfl

theorem get?_cons (key : String) (v : Value) (entries : Entries) (name : String) :
    get? ((key, v) :: entries) name = if name = key then some v else get? entries name := by
  unfold get?
  rw [List.lookup_cons]
  split
  · next h => rw [if_pos (beq_iff_eq.mp h)]
  · next h => rw [if_neg (by simpa using h)]

theorem get?_of_notMem {entries : Entries} (h : key ∉ entries.map Prod.fst) : get? entries key = none := by
  induction entries with
  | nil => rfl
  | cons e rest ih =>
      rw [List.map_cons, List.mem_cons, not_or] at h
      rw [get?_cons, if_neg h.1, ih h.2]

theorem keys_present (fields : List (String × Option Value)) :
    (present fields).map Prod.fst ⊆ fields.map Prod.fst := by
  intro key hkey
  obtain ⟨e, he, rfl⟩ := List.mem_map.mp hkey
  obtain ⟨f, hf, heq⟩ := List.mem_filterMap.mp he
  obtain ⟨v, -, rfl⟩ := Option.map_eq_some_iff.mp heq
  exact List.mem_map_of_mem hf

/-- **A key of an object is looked up among its fields**, if no field is there twice. -/
theorem get?_present (h : (fields.map Prod.fst).Nodup) (key : String) :
    get? (present fields) key = (fields.lookup key).join := by
  induction fields with
  | nil => rfl
  | cons f rest ih =>
      obtain ⟨name, o⟩ := f
      rw [List.map_cons, List.nodup_cons] at h
      rw [present_cons, List.lookup_cons]
      by_cases hkey : key = name
      · subst hkey
        have hnone : get? (present rest) key = none := get?_of_notMem fun hmem => h.1 (keys_present rest hmem)
        rw [beq_self_eq_true]
        cases o with
        | none => exact hnone
        | some v => exact (get?_cons key v _ key).trans (if_pos rfl)
      · rw [beq_false_of_ne hkey]
        cases o with
        | none => exact ih h.2
        | some v => exact (get?_cons name v _ key).trans ((if_neg hkey).trans (ih h.2))

theorem field_present (h : (fields.map Prod.fst).Nodup) (key : String) :
    Value.field (present fields) key = ((fields.lookup key).join).getD .null := by
  rw [Value.field, get?_present h]

/-- If only the first field is there, the others are not. -/
theorem tail_eq_none (hlength : (present fields).length = 1) {key : String} {v : Value}
    (hhead : fields.head? = some (key, some v)) : ∀ f ∈ fields.tail, f.2 = none := by
  obtain ⟨rest, rfl⟩ : ∃ rest, fields = (key, some v) :: rest := by
    cases fields with
    | nil => cases hhead
    | cons first rest => exact ⟨rest, by rw [Option.some.inj hhead]⟩
  rw [present_cons, List.length_append] at hlength
  have hnil : present rest = [] := List.length_eq_zero_iff.mp (Nat.succ.inj ((Nat.add_comm _ _).trans hlength))
  intro g hg
  have hnone := List.filterMap_eq_nil_iff.mp hnil g hg
  simpa using hnone

theorem getD_given (condition : Bool) (v : Value) :
    (given condition v).getD .null = if condition then v else .null := by
  cases condition <;> rfl

end Entries

open Entries

/-! ## Properties -/

theorem Property.ofValue_toValue {p : Property} (h : p.type ≠ "") : ofValue p.toValue = p := by
  obtain ⟨value, type, humanReadable⟩ := p
  have htype : type.isEmpty = false := Bool.eq_false_iff.mpr fun hempty => h (String.isEmpty_iff.mp hempty)
  unfold ofValue toValue Value.field
  cases humanReadable <;>
    simp [Entries.get?_cons, entryIf, Value.orElse, Value.truthy, Value.isNull, htype]

/-- The label of a property that was written is a text. -/
theorem Property.read_toValue (p : Property) : read p.toValue = .ok (ofValue p.toValue) := by
  have hlabel : (label p.toValue).hasText = true := by
    unfold label toValue Value.field
    simp [Entries.get?_cons, Value.hasText]
  rw [read, if_pos hlabel]

/-! ## Settings of parameters -/

namespace Modifiers

theorem readFlags_entries (m : Modifiers) :
    (⟨readFlag m.entries "reverse", readFlag m.entries "simplify", readFlag m.entries "locked",
      readFlag m.entries "invert"⟩ : Modifiers) = m := by
  obtain ⟨_ | reverse, _ | simplify, _ | locked, _ | invert⟩ := m <;> rfl

/-- Recorded flags are read back, and an object without any is not written. -/
theorem ofValue_object {recorded : Option Modifiers} (h : ∀ m ∈ recorded, m.isEmpty = false) :
    ofValue ((recorded.map fun m => .object m.entries).getD .null) = recorded := by
  cases recorded with
  | none => rfl
  | some m =>
      rw [Option.map_some, Option.getD_some]
      unfold ofValue
      dsimp only
      rw [readFlags_entries, if_neg (by simp [h m rfl])]

/-- No flag is taken for the mark of a principal parameter. -/
theorem nestedField_object (recorded : Option Modifiers) :
    nestedField ((recorded.map fun m => .object m.entries).getD .null) "isPrincipal" = .ok .none := by
  rcases recorded with _ | ⟨_ | reverse, _ | simplify, _ | locked, _ | invert⟩ <;> rfl

end Modifiers

/-- A mapping is read from its code. -/
theorem readMapping_code {recorded : Option Mode} (h : ∀ m ∈ recorded, ∃ k, m = .mapping k) :
    readMapping ((recorded.map fun m => .str m.code).getD .null) = .ok recorded := by
  cases recorded with
  | none => rfl
  | some m =>
      obtain ⟨k, rfl⟩ := h m rfl
      cases k <;> decide +kernel

/-- An access is read from its code. -/
theorem readAccess_code {recorded : Option Mode} (h : ∀ m ∈ recorded, ∃ a, m = .access a) :
    readAccess ((recorded.map fun m => .str m.code).getD .null) = recorded := by
  cases recorded with
  | none => rfl
  | some m =>
      obtain ⟨a, rfl⟩ := h m rfl
      cases a <;> decide +kernel

namespace ParameterSettings

/-- The settings have a name, and the modes that are recorded are an access and a mapping. -/
structure IsReadable (s : ParameterSettings) : Prop where
  name : ∃ n, n ≠ "" ∧ s.name = .str n
  access : ∀ m ∈ s.access, ∃ a, m = .access a
  mapping : ∀ m ∈ s.mapping, ∃ k, m = .mapping k

/-- What an object keeps of the settings of a parameter. -/
def reread (s : ParameterSettings) : ParameterSettings :=
  { s with
    variableName := if s.differs s.variableName then s.variableName else .null
    typeHint := s.typeHint.orElse .null
    description := s.description.orElse .null
    nickName := if s.differs s.nickName then s.nickName else .null
    mapping := s.mapping.filter (· ≠ .mapping .none)
    expression := s.expression.orElse .null
    modifiers := s.modifiers.filter (!·.isEmpty) }

/-- The fields of settings as an object. -/
def fields (s : ParameterSettings) : List (String × Option Value) := [
  ("parameterName", some s.name),
  ("variableName", given (s.differs s.variableName) s.variableName),
  ("typeHint", given s.typeHint.truthy s.typeHint),
  ("access", s.access.map fun m => .str m.code),
  ("description", given s.description.truthy s.description),
  ("nickName", given (s.differs s.nickName) s.nickName),
  ("required", given s.required (.bool true)),
  ("isPrincipal", given s.isPrincipal (.bool true)),
  ("dataMapping", (s.mapping.filter (· ≠ .mapping .none)).map fun m => .str m.code),
  ("expression", given s.expression.truthy s.expression),
  ("additionalSettings", (s.modifiers.filter (!·.isEmpty)).map fun m => .object m.entries)]

variable {s : ParameterSettings}

theorem accessEntry_eq (m : Option Mode) :
    accessEntry m = ((m.map fun m => Value.str m.code).map (Prod.mk "access")).toList := by
  cases m <;> rfl

theorem mappingEntry_eq (m : Option Mode) : mappingEntry m =
    (((m.filter (· ≠ .mapping .none)).map fun m => Value.str m.code).map (Prod.mk "dataMapping")).toList := by
  rcases m with _ | (a | (_ | _ | _) | r) <;> rfl

theorem modifiersEntry_eq (m : Option Modifiers) : modifiersEntry m =
    (((m.filter (!·.isEmpty)).map fun m => Value.object m.entries).map
      (Prod.mk "additionalSettings")).toList := by
  cases m with
  | none => rfl
  | some m =>
      unfold modifiersEntry entryIf
      cases h : m.isEmpty <;> simp [Option.filter_some, h]

theorem entries_eq (s : ParameterSettings) : s.entries = present s.fields := by
  unfold entries fields
  simp only [entryIf_eq, accessEntry_eq, mappingEntry_eq, modifiersEntry_eq, present_cons, List.append_assoc]
  rw [show present [] = [] from rfl, List.append_nil]
  rfl

theorem nodup_fields (s : ParameterSettings) : (s.fields.map Prod.fst).Nodup := by
  change List.Nodup ["parameterName", "variableName", "typeHint", "access", "description", "nickName",
    "required", "isPrincipal", "dataMapping", "expression", "additionalSettings"]
  decide

/-- Writing what was read gives the same object. -/
theorem toValue_reread (s : ParameterSettings) : s.reread.toValue = s.toValue := by
  have hgiven : ∀ (condition : Value → Bool) (v : Value), condition .null = false →
      given (condition (if condition v then v else .null)) (if condition v then v else .null) =
        given (condition v) v := by
    intro condition v hnull
    cases h : condition v
    · simp [hnull, given]
    · simp [h]
  have hnull : s.differs .null = false := rfl
  have hfields : s.reread.fields = s.fields := by
    unfold fields
    congr 1
    congr 1
    · exact congrArg (Prod.mk "variableName") (hgiven s.differs s.variableName hnull)
    congr 1
    · exact congrArg (Prod.mk "typeHint") (hgiven Value.truthy s.typeHint rfl)
    congr 2
    · exact congrArg (Prod.mk "description") (hgiven Value.truthy s.description rfl)
    congr 1
    · exact congrArg (Prod.mk "nickName") (hgiven s.differs s.nickName hnull)
    congr 3
    · simp [reread, Option.filter_filter]
    congr 1
    · exact congrArg (Prod.mk "expression") (hgiven Value.truthy s.expression rfl)
    · simp [reread, Option.filter_filter]
  rw [toValue, toValue, entries_eq, entries_eq, hfields]

/-- The modes that are recorded are an access and a mapping. -/
structure HasReadableModes (s : ParameterSettings) : Prop where
  access : ∀ m ∈ s.access, ∃ a, m = .access a
  mapping : ∀ m ∈ s.mapping, ∃ k, m = .mapping k

/-- What is read as the name of settings that were written: the name, or else the variable. -/
def readName (s : ParameterSettings) : Value :=
  (s.name.orElse .null).orElse (if s.differs s.variableName then s.variableName else .null)

/-- Settings that were written are read back, with the name that is found; without one they are
refused. -/
theorem HasReadableModes.ofValue_toValue (h : s.HasReadableModes) : ofValue s.toValue =
    if s.readName.truthy then s.readName.text?.map fun n => { s.reread with name := .str n }
    else .error (.document none .unnamedParameter) := by
  have hmapping := readMapping_code fun m (hm : m ∈ s.mapping.filter (· ≠ .mapping .none)) =>
    h.mapping m (Option.mem_filter_iff.mp hm).1
  have hmodifiers := Modifiers.ofValue_object fun m (hm : m ∈ s.modifiers.filter (!·.isEmpty)) => by
    simpa using (Option.mem_filter_iff.mp hm).2
  have hflag : ∀ flag : Bool, ((given flag (.bool true)).getD (.bool false)).truthy = flag := by
    intro flag
    cases flag <;> rfl
  have hrequired : (if s.required = true then Value.bool true else .null).truthy = s.required := by
    cases s.required <;> rfl
  have hget : ∀ key, Entries.get? s.entries key = (s.fields.lookup key).join := by
    intro key
    rw [entries_eq, get?_present s.nodup_fields]
  have hname : (s.name.orElse .null).orElse (if s.differs s.variableName then s.variableName else .null) =
      s.readName := rfl
  unfold ofValue toValue Value.field
  simp only [hget, fields, List.lookup_cons, String.reduceBEq, Option.join_some, Option.getD_some,
    getD_given, Option.join_none, Option.getD_none, List.lookup_nil, hname]
  cases hnamed : s.readName.truthy with
  | false => rfl
  | true =>
      simp only [Bool.not_true, Bool.false_eq_true, if_false, if_true,
        Modifiers.nestedField_object, hmapping, hmodifiers, readAccess_code h.access, Option.or_none, hflag,
        hrequired, bind, Except.bind, pure, Except.pure]
      cases s.readName.text? <;> rfl

theorem IsReadable.ofValue_toValue (h : s.IsReadable) : ofValue s.toValue = .ok s.reread := by
  obtain ⟨n, hn, hname⟩ := h.name
  have hpresent : (Value.str n).truthy = true := by simpa [Value.truthy, String.isEmpty_iff] using hn
  have hread : s.readName = .str n := by
    unfold readName Value.orElse
    rw [hname, hpresent, if_pos rfl, hpresent, if_pos rfl]
  have hmodes : s.HasReadableModes := ⟨h.access, h.mapping⟩
  rw [hmodes.ofValue_toValue, hread, hpresent, if_pos rfl, Value.text?_str]
  change Except.ok { s.reread with name := Value.str n } = _
  rw [← hname]
  rfl

end ParameterSettings

/-! ## Components -/

/-- A position is read back. -/
theorem readPivot_pivotEntry (pivot : Option (Position Float)) :
    readPivot ((pivot.map fun p => Json.positionValue p.x p.y).getD .null) = .ok pivot := by
  cases pivot <;> rfl

theorem readProperties_object (entries : Entries) : readProperties (.object entries) = .ok entries := by
  cases entries <;> rfl

theorem mapM_read_toValue (properties : Properties) :
    (properties.map fun (name, p) => (name, p.toValue)).mapM
      (fun entry => (Property.read entry.2).map (Prod.mk entry.1)) =
        .ok (properties.map fun (name, p) => (name, Property.ofValue p.toValue)) := by
  rw [List.mapM_map]
  refine mapM_eq_ok fun p hp => ?_
  change (Property.read p.2.toValue).map (Prod.mk p.1) = _
  rw [Property.read_toValue]
  rfl

/-- A list is written if it has items. -/
def listed (items : List Value) : Value := if items.isEmpty then .null else .list items

theorem readSettings_listed (settings : List ParameterSettings) :
    readSettings (listed (settings.map (·.toValue))) =
      settings.mapM fun s => ParameterSettings.ofValue s.toValue := by
  cases settings with
  | nil => rfl
  | cons s rest =>
      change ((s :: rest).map (·.toValue)).mapM ParameterSettings.ofValue = _
      rw [List.mapM_map]
      rfl

theorem readMessages_listed {messages : List Value} (h : ∀ v ∈ messages, v.hasText = true) :
    readMessages (listed messages) = .ok (messages.map fun v => .str v.text) := by
  cases messages with
  | nil => rfl
  | cons v rest =>
      refine mapM_eq_ok fun v hv => ?_
      rw [Value.text?_of_hasText (h v hv)]
      rfl

namespace Component

/-- The names are texts, the properties are labelled, the settings can be read, and the messages can be
written. -/
structure IsReadable (c : Component) : Prop where
  name : ∃ n, c.name = .str n
  typeKey : ∃ k, c.typeKey = .str k
  labelled : ∀ p ∈ c.properties, p.2.type ≠ ""
  inputs : ∀ s ∈ c.inputs, s.IsReadable
  outputs : ∀ s ∈ c.outputs, s.IsReadable
  warnings : ∀ v ∈ c.warnings, v.hasText = true
  errors : ∀ v ∈ c.errors, v.hasText = true

/-- What an object keeps of a component; messages become texts. -/
def reread (c : Component) : Component :=
  { c with
    inputs := c.inputs.map (·.reread)
    outputs := c.outputs.map (·.reread)
    warnings := c.warnings.map fun v => .str v.text
    errors := c.errors.map fun v => .str v.text }

/-- The fields of a component as an object. -/
def fields (c : Component) : List (String × Option Value) := [
  ("name", some c.name),
  ("componentGuid", some c.typeKey),
  ("instanceGuid", some (.str c.id)),
  ("pivot", c.pivot.map fun p => Json.positionValue p.x p.y),
  ("selected", some (.bool c.selected)),
  ("properties", some (.object (c.properties.map fun (name, p) => (name, p.toValue)))),
  ("inputSettings", given (!c.inputs.isEmpty) (.list (c.inputs.map (·.toValue)))),
  ("outputSettings", given (!c.outputs.isEmpty) (.list (c.outputs.map (·.toValue)))),
  ("warnings", given (!c.warnings.isEmpty) (.list c.warnings)),
  ("errors", given (!c.errors.isEmpty) (.list c.errors))]

variable {c : Component}

theorem pivotEntry_eq (pivot : Option (Position Float)) : pivotEntry pivot =
    ((pivot.map fun p => Json.positionValue p.x p.y).map (Prod.mk "pivot")).toList := by
  cases pivot <;> rfl

theorem text?_orElse (s : String) : ((Value.str s).orElse (.str "")).text? = .ok s := by
  unfold Value.orElse
  split
  · rfl
  · next h =>
    have hempty : s.isEmpty = true := by simpa [Value.truthy] using h
    rw [String.isEmpty_iff.mp hempty]
    rfl

theorem toValue_eq (c : Component) : c.toValue = .object (present c.fields) := by
  unfold toValue fields
  simp only [entryIf_eq, pivotEntry_eq, present_cons, List.append_assoc]
  rw [show present [] = [] from rfl, List.append_nil]
  rfl

theorem nodup_fields (c : Component) : (c.fields.map Prod.fst).Nodup := by
  change List.Nodup ["name", "componentGuid", "instanceGuid", "pivot", "selected", "properties",
    "inputSettings", "outputSettings", "warnings", "errors"]
  decide

theorem getD_given_list {α : Type} (items : List α) {values : List Value}
    (h : values.isEmpty = items.isEmpty) :
    (given (!items.isEmpty) (.list values)).getD .null = listed values := by
  unfold listed
  rw [h]
  cases items.isEmpty <;> rfl

/-- A component that was written is read back as far as its settings are. -/
theorem ofValue_toValue_eq (hname : ∃ n, c.name = .str n) (htypeKey : ∃ k, c.typeKey = .str k)
    (hwarnings : ∀ v ∈ c.warnings, v.hasText = true) (herrors : ∀ v ∈ c.errors, v.hasText = true) :
    ofValue c.toValue = do
      let inputs ← c.inputs.mapM fun s => ParameterSettings.ofValue s.toValue
      let outputs ← c.outputs.mapM fun s => ParameterSettings.ofValue s.toValue
      return { c with
        properties := c.properties.map fun (name, p) => (name, Property.ofValue p.toValue)
        inputs
        outputs
        warnings := c.warnings.map fun v => .str v.text
        errors := c.errors.map fun v => .str v.text } := by
  obtain ⟨n, hname⟩ := hname
  obtain ⟨k, htypeKey⟩ := htypeKey
  have hfield : ∀ key, Value.field (present c.fields) key = ((c.fields.lookup key).join).getD .null :=
    field_present c.nodup_fields
  rw [toValue_eq]
  unfold ofValue textField
  simp only [hfield]
  simp only [fields, List.lookup_cons, String.reduceBEq, Option.join_some, Option.getD_some, hname, htypeKey,
    text?_orElse, readProperties_object, readPivot_pivotEntry,
    mapM_read_toValue, getD_given_list c.inputs List.isEmpty_map,
    getD_given_list c.outputs List.isEmpty_map, getD_given_list c.warnings rfl,
    getD_given_list c.errors rfl, readSettings_listed,
    readMessages_listed hwarnings, readMessages_listed herrors, bind, Except.bind, pure, Except.pure]
  rfl

theorem IsReadable.ofValue_toValue (h : c.IsReadable) : ofValue c.toValue = .ok c.reread := by
  have hproperties : c.properties.map (fun (name, p) => (name, Property.ofValue p.toValue)) = c.properties := by
    refine Eq.trans ?_ (List.map_id' c.properties)
    exact List.map_congr_left fun p hp => Prod.ext rfl (Property.ofValue_toValue (h.labelled p hp))
  rw [ofValue_toValue_eq h.name h.typeKey h.warnings h.errors,
    mapM_eq_ok fun s hs => (h.inputs s hs).ofValue_toValue,
    mapM_eq_ok fun s hs => (h.outputs s hs).ofValue_toValue, hproperties]
  rfl

end Component

/-! ## Documents -/

theorem Endpoint.ofValue_toValue {e : Endpoint} (h : ∃ n, e.name = .str n) : ofValue e.toValue = .ok e := by
  obtain ⟨id, name⟩ := e
  obtain ⟨n, rfl⟩ := h
  rfl

theorem Connection.ofValue_toValue {c : Connection} (hsource : ∃ n, c.source.name = .str n)
    (htarget : ∃ n, c.target.name = .str n) : ofValue c.toValue = .ok c := by
  change (do return ⟨← Endpoint.ofValue c.source.toValue, ← Endpoint.ofValue c.target.toValue⟩ :
    Except Fault Connection) = _
  rw [Endpoint.ofValue_toValue hsource, Endpoint.ofValue_toValue htarget]
  rfl

/-- A section is read if each of its items is. -/
theorem readSection_eq_ok {α β : Type} {part : DocumentSection} {read : Value → Except Fault α} {value : β → Value}
    {f : β → α} {items : List β} (h : ∀ b ∈ items, read (value b) = .ok (f b)) (index : Nat) :
    readSection part read index (items.map value) = .ok (items.map f) := by
  induction items generalizing index with
  | nil => rfl
  | cons b rest ih =>
      rw [List.map_cons, readSection, h b List.mem_cons_self, ih fun b hb => h b (List.mem_cons_of_mem _ hb)]
      rfl

namespace Document

/-- All components can be read, and the names at the ends of connections are texts. -/
structure IsReadable (d : Document) : Prop where
  components : ∀ c ∈ d.components, c.IsReadable
  sources : ∀ c ∈ d.connections, ∃ n, c.source.name = .str n
  targets : ∀ c ∈ d.connections, ∃ n, c.target.name = .str n

/-- What an object keeps of a document. -/
def reread (d : Document) : Document := { d with components := d.components.map (·.reread) }

/-- **A document that was written is read back.** -/
theorem IsReadable.ofValue_toValue {d : Document} (h : d.IsReadable) : ofValue d.toValue = .ok d.reread := by
  change (do
    let components ← readSection .components Component.ofValue 0 (d.components.map Component.toValue)
    let connections ← readSection .connections Connection.ofValue 0 (d.connections.map Connection.toValue)
    return ⟨components, connections⟩ : Except Fault Document) = _
  rw [readSection_eq_ok (f := Component.reread) fun c hc => (h.components c hc).ofValue_toValue,
    readSection_eq_ok (f := fun c => c) fun c hc =>
      Connection.ofValue_toValue (h.sources c hc) (h.targets c hc), List.map_id']
  rfl

end Document

end Patchbay
