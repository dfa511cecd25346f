import Patchbay.Document.Reader
import Patchbay.Proofs.Property.Applying

/-!
# What a document was read from

A reader that gives a document went through all fields of the value.  Here each reader is taken apart once:
what it gives is what stands in the fields, read one by one.

* `Value.items`, `Value.under` — a value as the reader looks at it
* **`ParameterSettings.ReadFrom`**, **`Component.ReadFrom`**, `Endpoint.ReadFrom`, `Document.ReadFrom` — where each
  part comes from; `readFrom` says so of all that is read.
* `exists_of_mem_readSettings`, `exists_of_mem_readSection` — and an item of a list comes from an item of a
  list.
-/

namespace Patchbay

/-! ## Values -/

namespace Value

/-- The items of a list; nothing else has any. -/
def items : Value → List Value
  | list items => items
  | _ => []

/-- The value under a key; null in whatever is no object. -/
def under (v : Value) (key : String) : Value := (v.get? key).getD null

end Value

/-! ## Settings -/

/-- The value that names the parameter. -/
def ParameterSettings.nameValue (entries : Entries) : Value :=
  ((Value.field entries "parameterName").orElse (Value.field entries "name")).orElse
    (Value.field entries "variableName")

/-- Where the settings of a parameter come from. -/
structure ParameterSettings.ReadFrom (entries : Entries) (s : ParameterSettings) : Prop where
  name : ∃ n, (nameValue entries).truthy = true ∧ (nameValue entries).text? = .ok n ∧ s.name = .str n
  typeHint : s.typeHint = Value.field entries "typeHint"
  access : s.access = readAccess (Value.field entries "access")
  mapping : readMapping (Value.field entries "dataMapping") = .ok s.mapping
  modifiers : s.modifiers = Modifiers.ofValue (Value.field entries "additionalSettings")

theorem ParameterSettings.readFrom {v : Value} {s : ParameterSettings} (h : ofValue v = .ok s) :
    ∃ entries, v = .object entries ∧ s.ReadFrom entries := by
  cases v with
  | object entries =>
      refine ⟨entries, rfl, ?_⟩
      unfold ofValue at h
      dsimp only at h
      cases hname : (nameValue entries).truthy with
      | false =>
          unfold nameValue at hname
          rw [hname] at h
          cases h
      | true =>
          have hname' := hname
          unfold nameValue at hname'
          rw [hname', if_neg (by decide : ¬ (!true) = true)] at h
          obtain ⟨n, hn, h⟩ := exists_of_bind_eq_ok h
          obtain ⟨nested, -, h⟩ := exists_of_bind_eq_ok h
          obtain ⟨mapping, hmapping, h⟩ := exists_of_bind_eq_ok h
          cases h
          exact ⟨⟨n, hname, hn, rfl⟩, rfl, rfl, hmapping, rfl⟩
  | _ => cases h

/-- Settings in a field come from the items of a list. -/
theorem exists_of_mem_readSettings {v : Value} {settings : List ParameterSettings}
    (h : readSettings v = .ok settings) {s : ParameterSettings} (hs : s ∈ settings) :
    ∃ raw ∈ v.items, ParameterSettings.ofValue raw = .ok s := by
  unfold readSettings at h
  split at h
  · cases h
    cases hs
  · obtain ⟨items, hitems, h⟩ := exists_of_bind_eq_ok h
    obtain ⟨raw, hraw, hread⟩ := exists_of_mem_mapM h hs
    obtain ⟨entries, rfl, -⟩ := ParameterSettings.readFrom hread
    refine ⟨_, ?_, hread⟩
    -- the items that other values have are no objects
    cases v with
    | list items' =>
        cases hitems
        exact hraw
    | str _ | object _ | tree _ | path _ =>
        cases hitems
        obtain ⟨_, -, heq⟩ := List.mem_map.mp hraw
        cases heq
    | _ => cases hitems

/-! ## Components -/

/-- Where a component comes from. -/
structure Component.ReadFrom (entries : Entries) (c : Component) : Prop where
  name : ∃ n, textField entries "name" = .ok n ∧ c.name = .str n
  typeKey : ∃ k, textField entries "componentGuid" = .ok k ∧ c.typeKey = .str k
  id : textField entries "instanceGuid" = .ok c.id
  properties : ∃ raw, readProperties (Value.field entries "properties") = .ok raw ∧
    raw.mapM (fun entry => (Property.read entry.2).map (Prod.mk entry.1)) = .ok c.properties
  inputs : readSettings (Value.field entries "inputSettings") = .ok c.inputs
  outputs : readSettings (Value.field entries "outputSettings") = .ok c.outputs
  warnings : readMessages (Value.field entries "warnings") = .ok c.warnings
  errors : readMessages (Value.field entries "errors") = .ok c.errors

theorem Component.readFrom {v : Value} {c : Component} (h : ofValue v = .ok c) :
    ∃ entries, v = .object entries ∧ c.ReadFrom entries := by
  cases v with
  | object entries =>
      obtain ⟨raw, hraw, h⟩ := exists_of_bind_eq_ok h
      obtain ⟨name, hname, h⟩ := exists_of_bind_eq_ok h
      obtain ⟨typeKey, htypeKey, h⟩ := exists_of_bind_eq_ok h
      obtain ⟨id, hid, h⟩ := exists_of_bind_eq_ok h
      obtain ⟨pivot, -, h⟩ := exists_of_bind_eq_ok h
      obtain ⟨properties, hproperties, h⟩ := exists_of_bind_eq_ok h
      obtain ⟨inputs, hinputs, h⟩ := exists_of_bind_eq_ok h
      obtain ⟨outputs, houtputs, h⟩ := exists_of_bind_eq_ok h
      obtain ⟨warnings, hwarnings, h⟩ := exists_of_bind_eq_ok h
      obtain ⟨errors, herrors, h⟩ := exists_of_bind_eq_ok h
      cases h
      exact ⟨entries, rfl, ⟨name, hname, rfl⟩, ⟨typeKey, htypeKey, rfl⟩, hid, ⟨raw, hraw, hproperties⟩, hinputs,
        houtputs, hwarnings, herrors⟩
  | _ => cases h

/-! ## Connections -/

/-- Where an endpoint comes from. -/
structure Endpoint.ReadFrom (entries : Entries) (e : Endpoint) : Prop where
  id : referenceText (firstField entries ["instanceId", "componentId", "id"]) = .ok e.id
  name : ∃ n, referenceText (firstField entries ["name", "paramName"]) = .ok n ∧ e.name = .str n

theorem Endpoint.readFrom {v : Value} {e : Endpoint} (h : ofValue v = .ok e) :
    ∃ entries, v = .object entries ∧ e.ReadFrom entries := by
  cases v with
  | object entries =>
      obtain ⟨id, hid, h⟩ := exists_of_bind_eq_ok h
      obtain ⟨name, hname, h⟩ := exists_of_bind_eq_ok h
      cases h
      exact ⟨entries, rfl, hid, name, hname, rfl⟩
  | _ => cases h

theorem Connection.readFrom {v : Value} {c : Connection} (h : ofValue v = .ok c) :
    ∃ entries, v = .object entries ∧ Endpoint.ofValue (Value.field entries "from") = .ok c.source ∧
      Endpoint.ofValue (Value.field entries "to") = .ok c.target := by
  cases v with
  | object entries =>
      obtain ⟨source, hsource, h⟩ := exists_of_bind_eq_ok h
      obtain ⟨target, htarget, h⟩ := exists_of_bind_eq_ok h
      cases h
      exact ⟨entries, rfl, hsource, htarget⟩
  | _ => cases h

/-! ## Sections -/

theorem readSection_cons {α : Type} {part : DocumentSection} {read : Value → Except Fault α} {index : Nat}
    {v : Value} {rest : List Value} {items : List α}
    (h : readSection part read index (v :: rest) = .ok items) :
    ∃ a others, items = a :: others ∧ read v = .ok a ∧
      readSection part read (index + 1) rest = .ok others := by
  rw [readSection] at h
  cases hv : read v with
  | error fault =>
      rw [hv] at h
      cases h
  | ok a =>
      rw [hv] at h
      cases hrest : readSection part read (index + 1) rest with
      | error fault =>
          rw [hrest] at h
          cases h
      | ok others =>
          rw [hrest] at h
          cases h
          exact ⟨a, others, rfl, rfl, rfl⟩

/-- What is read from a section comes from its items. -/
theorem exists_of_mem_readSection {α : Type} {part : DocumentSection} {read : Value → Except Fault α}
    {index : Nat} {values : List Value} {items : List α}
    (h : readSection part read index values = .ok items) {a : α} (ha : a ∈ items) :
    ∃ v ∈ values, read v = .ok a := by
  induction values generalizing index items with
  | nil =>
      cases h
      cases ha
  | cons v rest ih =>
      obtain ⟨b, others, rfl, hv, hrest⟩ := readSection_cons h
      rcases List.mem_cons.mp ha with rfl | ha
      · exact ⟨v, List.mem_cons_self, hv⟩
      · obtain ⟨v', hv', hread⟩ := ih hrest ha
        exact ⟨v', List.mem_cons_of_mem v hv', hread⟩

/-- And every item was read. -/
theorem exists_read_of_mem {α : Type} {part : DocumentSection} {read : Value → Except Fault α} {index : Nat}
    {values : List Value} {items : List α} (h : readSection part read index values = .ok items) {v : Value}
    (hv : v ∈ values) : ∃ a ∈ items, read v = .ok a := by
  induction values generalizing index items with
  | nil => cases hv
  | cons head rest ih =>
      obtain ⟨a, others, rfl, hhead, hrest⟩ := readSection_cons h
      rcases List.mem_cons.mp hv with rfl | hv
      · exact ⟨a, List.mem_cons_self, hhead⟩
      · obtain ⟨b, hb, hread⟩ := ih hrest hv
        exact ⟨b, List.mem_cons_of_mem a hb, hread⟩

/-- The items of a section are those of the list under its key. -/
theorem items_of_sectionItems {entries : Entries} {part : DocumentSection} {items : List Value}
    (h : sectionItems entries part = .ok items) : items = (Value.field entries part.key).items := by
  unfold sectionItems at h
  unfold Value.field
  cases hget : Entries.get? entries part.key with
  | none =>
      rw [hget] at h
      cases h
      rfl
  | some v =>
      rw [hget] at h
      cases v with
      | list items' =>
          cases h
          rfl
      | _ => cases h

/-- Where a document comes from. -/
structure Document.ReadFrom (entries : Entries) (d : Document) : Prop where
  components : readSection .components Component.ofValue 0 (Value.field entries "components").items =
    .ok d.components
  connections : readSection .connections Connection.ofValue 0 (Value.field entries "connections").items =
    .ok d.connections

theorem Document.readFrom {v : Value} {d : Document} (h : ofValue v = .ok d) :
    ∃ entries, v = .object entries ∧ d.ReadFrom entries := by
  cases v with
  | object entries =>
      obtain ⟨values, hvalues, h⟩ := exists_of_bind_eq_ok h
      obtain ⟨values', hvalues', h⟩ := exists_of_bind_eq_ok h
      obtain ⟨components, hcomponents, h⟩ := exists_of_bind_eq_ok h
      obtain ⟨connections, hconnections, h⟩ := exists_of_bind_eq_ok h
      cases h
      rw [items_of_sectionItems hvalues] at hcomponents
      rw [items_of_sectionItems hvalues'] at hconnections
      exact ⟨entries, rfl, hcomponents, hconnections⟩
  | _ => cases h

end Patchbay
