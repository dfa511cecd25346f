import Mathlib.Algebra.Group.Int.Defs
import Patchbay.Validation.Semantics
import Patchbay.Proofs.Document.Origin
import Patchbay.Proofs.Keyed
import Patchbay.Proofs.Rebuild.Configuring

/-!
# Values that are no documents are reported

A value is read as a document, or the reader says what is wrong with it and where; and the validator
always has a report.  So it is for all values but those that the reader does not look at closely enough,
on which something else than the reader fails.

* **`Document.tolerates`** — the reader bears with the value: settings stand in something that has items,
  modifiers are an object, a mapping that looks like a number is one, and coordinates are within the range of
  doubles.  It can be evaluated.
* `Document.hinted` — hints are texts.
* **`Reports`** — a result, or a fault of the document model; every reader keeps to it (`reports_ofValue`).
* **`Validation.reports_malformed`** — both for all values, whatever else is wrong with them.
-/

namespace Patchbay

/-! ## What the reader bears with -/

/-- An integer within the range of doubles, or something else. -/
def Value.inRange : Value → Bool
  | int i => (Double.ofInt? i).isSome
  | _ => true

/-- The coordinates of a position are within range. -/
def pivotTolerates : Value → Bool
  | .object entries => (firstField entries ["X", "x"]).inRange && (firstField entries ["Y", "y"]).inRange
  | .list [x, y] => x.inRange && y.inRange
  | _ => true

/-- Modifiers are an object, or count as absent. -/
def Modifiers.tolerates : Value → Bool
  | .object _ => true
  | v => !v.truthy

/-- A text that looks like an integer is one. -/
def Mapping.tolerates : Value → Bool
  | .str s => !looksNumeric (Text.trimChars s.toList) || (readInt? (Text.trimChars s.toList)).isSome
  | _ => true

/-- The reader bears with the settings of a parameter. -/
def ParameterSettings.tolerates (v : Value) : Bool :=
  Modifiers.tolerates (v.under "additionalSettings") && Mapping.tolerates (v.under "dataMapping")

/-- Settings are the items of a list; texts and objects have items too, which are reported. -/
def settingsTolerates : Value → Bool
  | .list items => items.all ParameterSettings.tolerates
  | .str _ | .object _ => true
  | v => !v.truthy

/-- The reader bears with a component. -/
def Component.tolerates (v : Value) : Bool :=
  pivotTolerates (v.under "pivot") && settingsTolerates (v.under "inputSettings")
    && settingsTolerates (v.under "outputSettings")

/-- The reader bears with a value as a document. -/
def Document.tolerates (v : Value) : Bool := (v.under "components").items.all Component.tolerates

/-- A hint is a text, or counts as absent. -/
def Value.isHint : Value → Bool
  | str _ => true
  | v => !v.truthy

/-- The hint of a parameter is one. -/
def ParameterSettings.hinted (v : Value) : Bool := (v.under "typeHint").isHint

/-- All hints in a value are texts. -/
def Document.hinted (v : Value) : Bool :=
  (v.under "components").items.all fun c =>
    (c.under "inputSettings").items.all ParameterSettings.hinted
      && (c.under "outputSettings").items.all ParameterSettings.hinted

/-! ## Reports -/

/-- There is a result, or a fault of the document model. -/
def Reports {α : Type} (x : Except Fault α) : Prop :=
  ∀ fault, x = .error fault → ∃ place cause, fault = .document place cause

section Reports

variable {α β : Type}

theorem reports_ok (a : α) : Reports (.ok a : Except Fault α) := fun _ h => nomatch h

theorem reports_of_eq {x : Except Fault α} {a : α} (h : x = .ok a) : Reports x := h ▸ reports_ok a

theorem reports_document (place : Option (DocumentSection × Nat)) (cause : DocumentFault) :
    Reports (.error (.document place cause) : Except Fault α) := by
  intro fault h
  cases h
  exact ⟨place, cause, rfl⟩

theorem Reports.bind {x : Except Fault α} {f : α → Except Fault β} (hx : Reports x)
    (hf : ∀ a, x = .ok a → Reports (f a)) : Reports (x >>= f) := by
  cases x with
  | error fault =>
      intro fault' h
      cases h
      exact hx fault rfl
  | ok a => exact hf a rfl

theorem Reports.map {x : Except Fault α} (f : α → β) (hx : Reports x) : Reports (x.map f) := by
  cases x with
  | error fault =>
      intro fault' h
      cases h
      exact hx fault rfl
  | ok a => exact reports_ok (f a)

theorem reports_mapM {f : α → Except Fault β} {items : List α} (h : ∀ a ∈ items, Reports (f a)) :
    Reports (items.mapM f) := by
  intro fault hfault
  obtain ⟨a, ha, hread⟩ := exists_of_mapM_eq_error hfault
  exact h a ha fault hread

theorem reports_readSection {part : DocumentSection} {read : Value → Except Fault α} {values : List Value}
    (h : ∀ v ∈ values, Reports (read v)) (index : Nat) : Reports (readSection part read index values) := by
  induction values generalizing index with
  | nil => exact reports_ok []
  | cons v rest ih =>
      rw [readSection]
      cases hv : read v with
      | error fault =>
          obtain ⟨place, cause, rfl⟩ := h v List.mem_cons_self fault hv
          exact reports_document _ cause
      | ok a => exact (ih (fun v' hv' => h v' (List.mem_cons_of_mem v hv')) (index + 1)).map _

end Reports

/-! ## Texts -/

namespace Value

theorem hasText_of_mem {items : List Value} (h : (list items).hasText = true) {v : Value} (hv : v ∈ items) :
    v.hasText = true := by
  change allHaveText items = true at h
  induction items with
  | nil => cases hv
  | cons first rest ih =>
      obtain ⟨hfirst, hrest⟩ := Bool.and_eq_true_iff.mp h
      rcases List.mem_cons.mp hv with rfl | hv
      · exact hfirst
      · exact ih hv hrest

theorem hasText_of_mem_entries {entries : Entries} (h : (object entries).hasText = true) {e : String × Value}
    (he : e ∈ entries) : e.2.hasText = true := by
  change entriesHaveText entries = true at h
  induction entries with
  | nil => cases he
  | cons first rest ih =>
      obtain ⟨hfirst, hrest⟩ := Bool.and_eq_true_iff.mp h
      rcases List.mem_cons.mp he with rfl | he
      · exact hfirst
      · exact ih he hrest

theorem hasText_of_get? {entries : Entries} (h : (object entries).hasText = true) {key : String} {v : Value}
    (hv : Entries.get? entries key = some v) : v.hasText = true :=
  hasText_of_mem_entries h (Keyed.mem_of_lookup_eq_some hv)

theorem hasText_field {entries : Entries} (h : (object entries).hasText = true) (key : String) :
    (field entries key).hasText = true := by
  unfold field
  cases hv : Entries.get? entries key with
  | none => rfl
  | some v => exact hasText_of_get? h hv

theorem hasText_orElse {a b : Value} (ha : a.hasText = true) (hb : b.hasText = true) :
    (a.orElse b).hasText = true := by
  unfold orElse
  split
  · exact ha
  · exact hb

theorem hasText_items {v : Value} (h : v.hasText = true) : ∀ item ∈ v.items, item.hasText = true := by
  cases v with
  | list items => exact fun item hitem => hasText_of_mem h hitem
  | _ => exact fun _ hitem => nomatch hitem

theorem reports_text? {v : Value} (h : v.hasText = true) : Reports v.text? :=
  reports_of_eq (text?_of_hasText h)

end Value

open Value

variable {entries : Entries}

theorem hasText_firstField (h : (Value.object entries).hasText = true) (keys : List String) :
    (firstField entries keys).hasText = true := by
  unfold firstField
  cases hfound : keys.findSome? fun key => Entries.get? entries key with
  | none => rfl
  | some v =>
      obtain ⟨key, -, hv⟩ := List.exists_of_findSome?_eq_some hfound
      exact hasText_of_get? h hv

/-! ## Settings -/

theorem reports_readMapping {v : Value} (h : Mapping.tolerates v = true) : Reports (readMapping v) := by
  have hread : Reports (Mapping.read v) := by
    cases v with
    | str s =>
        unfold Mapping.read
        dsimp only
        split
        · exact reports_ok _
        · split
          · next hlooks =>
            split
            · exact reports_ok _
            · next hint =>
              simp [Mapping.tolerates, hlooks, hint] at h
          · exact reports_ok _
    | _ => exact reports_ok _
  unfold readMapping
  split
  · exact reports_ok _
  · exact hread.map _

theorem reports_nestedField {v : Value} (h : Modifiers.tolerates v = true) (key : String) :
    Reports (nestedField v key) := by
  unfold nestedField
  split
  · exact reports_ok _
  · next htruthy =>
    cases v with
    | object entries => exact reports_ok _
    | _ => exact absurd h htruthy

theorem ParameterSettings.reports_ofValue {v : Value} (htext : v.hasText = true) (h : tolerates v = true) :
    Reports (ofValue v) := by
  cases v with
  | object entries =>
      obtain ⟨hmodifiers, hmapping⟩ := Bool.and_eq_true_iff.mp h
      unfold ofValue
      dsimp only
      split
      · exact reports_document none .unnamedParameter
      · refine (reports_text? (hasText_orElse (hasText_orElse (hasText_field htext _)
          (hasText_field htext _)) (hasText_field htext _))).bind fun name _ => ?_
        refine (reports_nestedField hmodifiers _).bind fun nested _ => ?_
        exact (reports_readMapping hmapping).bind fun mapping _ => reports_ok _
  | _ => exact reports_document none (.notAnObject .settings)

/-! ## Components -/

theorem toFloat_inRange {v : Value} (h : v.inRange = true) : v.toFloat ≠ .error .outOfRange := by
  unfold toFloat
  cases v with
  | int i =>
      obtain ⟨x, hx⟩ := Option.isSome_iff_exists.mp h
      simp [hx]
  | str s =>
      dsimp only
      split <;> exact nofun
  | decimal d =>
      dsimp only
      split <;> exact nofun
  | _ => exact nofun

theorem reports_readPosition {x y : Value} (hx : x.inRange = true) (hy : y.inRange = true) :
    Reports (readPosition x y) := by
  unfold readPosition
  split
  · next hout => exact absurd hout (toFloat_inRange hx)
  · exact reports_ok _
  · split
    · next hout => exact absurd hout (toFloat_inRange hy)
    · exact reports_ok _
    · exact reports_ok _

theorem reports_readPivot {v : Value} (h : pivotTolerates v = true) : Reports (readPivot v) := by
  unfold readPivot
  split
  · split
    · exact reports_readPosition rfl rfl
    · exact reports_ok _
  · obtain ⟨hx, hy⟩ := Bool.and_eq_true_iff.mp h
    dsimp only
    split
    · exact reports_ok _
    · exact reports_readPosition hx hy
  · obtain ⟨hx, hy⟩ := Bool.and_eq_true_iff.mp h
    exact reports_readPosition hx hy
  · exact reports_ok _

theorem reports_readSettings {v : Value} (htext : v.hasText = true) (h : settingsTolerates v = true) :
    Reports (readSettings v) := by
  unfold readSettings
  split
  · exact reports_ok []
  · next htruthy =>
    have hnone : ∀ {items : List Value}, (∀ item ∈ items, ∀ entries, item ≠ .object entries) →
        Reports (items.mapM ParameterSettings.ofValue) := by
      intro items hitems
      refine reports_mapM fun item hitem => ?_
      cases item with
      | object entries => exact absurd rfl (hitems _ hitem entries)
      | _ => exact reports_document none (.notAnObject .settings)
    cases v with
    | list items =>
        exact reports_mapM fun item hitem => ParameterSettings.reports_ofValue (hasText_of_mem htext hitem)
          (List.all_eq_true.mp h item hitem)
    | str s =>
        refine hnone fun item hitem entries heq => ?_
        obtain ⟨_, -, rfl⟩ := List.mem_map.mp hitem
        cases heq
    | object fields =>
        refine hnone fun item hitem entries heq => ?_
        obtain ⟨_, -, rfl⟩ := List.mem_map.mp hitem
        cases heq
    | _ => exact absurd h htruthy

theorem reports_readMessages {v : Value} (htext : v.hasText = true) : Reports (readMessages v) := by
  cases v with
  | list items => exact reports_mapM fun item hitem => (reports_text? (hasText_of_mem htext hitem)).map _
  | _ => exact reports_ok []

theorem Property.reports_read {v : Value} (htext : v.hasText = true) : Reports (read v) := by
  have hlabel : (label v).hasText = true := by
    unfold label
    split
    · split
      · exact hasText_field htext "type"
      · rfl
    · rfl
  unfold read
  rw [if_pos hlabel]
  exact reports_ok _

theorem Component.reports_ofValue {v : Value} (htext : v.hasText = true) (h : tolerates v = true) :
    Reports (ofValue v) := by
  cases v with
  | object entries =>
      have hfield := hasText_field htext
      have htextField : ∀ key, Reports (textField entries key) := fun key =>
        reports_text? (hasText_orElse (hfield key) rfl)
      unfold tolerates at h
      simp only [Bool.and_eq_true] at h
      obtain ⟨⟨hpivot, hinputs⟩, houtputs⟩ := h
      have hproperties : ∀ raw, readProperties (field entries "properties") = .ok raw →
          ∀ e ∈ raw, e.2.hasText = true := by
        intro raw hraw
        unfold readProperties at hraw
        split at hraw
        · cases hraw
          exact fun _ he => nomatch he
        · have htext := hfield "properties"
          cases hv : field entries "properties" with
          | object fields =>
              rw [hv] at hraw htext
              cases hraw
              exact fun e he => hasText_of_mem_entries htext he
          | _ =>
              rw [hv] at hraw
              cases hraw
      have hobject : Reports (readProperties (field entries "properties")) := by
        unfold readProperties
        split
        · exact reports_ok []
        · split
          · exact reports_ok _
          · exact reports_document none (.notAnObject .properties)
      refine hobject.bind fun raw hraw => ?_
      refine (htextField "name").bind fun name _ => ?_
      refine (htextField "componentGuid").bind fun typeKey _ => ?_
      refine (htextField "instanceGuid").bind fun id _ => ?_
      refine (reports_readPivot hpivot).bind fun pivot _ => ?_
      refine (reports_mapM fun e he => (Property.reports_read (hproperties raw hraw e he)).map _).bind
        fun properties _ => ?_
      refine (reports_readSettings (hfield "inputSettings") hinputs).bind fun inputs _ => ?_
      refine (reports_readSettings (hfield "outputSettings") houtputs).bind fun outputs _ => ?_
      refine (reports_readMessages (hfield "warnings")).bind fun warnings _ => ?_
      exact (reports_readMessages (hfield "errors")).bind fun errors _ => reports_ok _
  | _ => exact reports_document none (.notAnObject .component)

/-! ## Connections -/

theorem reports_referenceText {v : Value} (htext : v.hasText = true) : Reports (referenceText v) := by
  cases v with
  | null => exact reports_ok ""
  | _ => exact reports_text? htext

theorem Endpoint.reports_ofValue {v : Value} (htext : v.hasText = true) : Reports (ofValue v) := by
  cases v with
  | object entries =>
      refine (reports_referenceText (hasText_firstField htext _)).bind fun id _ => ?_
      exact (reports_referenceText (hasText_firstField htext _)).bind fun name _ => reports_ok _
  | _ => exact reports_document none (.notAnObject .endpoint)

theorem Connection.reports_ofValue {v : Value} (htext : v.hasText = true) : Reports (ofValue v) := by
  cases v with
  | object entries =>
      refine (Endpoint.reports_ofValue (hasText_field htext "from")).bind fun source _ => ?_
      exact (Endpoint.reports_ofValue (hasText_field htext "to")).bind fun target _ => reports_ok _
  | _ => exact reports_document none (.notAnObject .connection)

/-! ## Documents -/

theorem reports_sectionItems (part : DocumentSection) : Reports (sectionItems entries part) := by
  unfold sectionItems
  split
  · exact reports_ok []
  · exact reports_ok _
  · exact reports_document none (.notAnArray part)

theorem Document.reports_ofValue {v : Value} (htext : v.hasText = true) (h : tolerates v = true) :
    Reports (ofValue v) := by
  cases v with
  | object entries =>
      refine (reports_sectionItems .components).bind fun components hcomponents => ?_
      refine (reports_sectionItems .connections).bind fun connections hconnections => ?_
      rw [items_of_sectionItems hcomponents, items_of_sectionItems hconnections]
      have hitems : ∀ key, ∀ item ∈ (field entries key).items, item.hasText = true := fun key =>
        hasText_items (hasText_field htext key)
      refine (reports_readSection (fun c hc => Component.reports_ofValue (hitems "components" c hc)
        (List.all_eq_true.mp h c hc)) 0).bind fun components _ => ?_
      exact (reports_readSection (fun c hc => Connection.reports_ofValue (hitems "connections" c hc)) 0).bind
        fun connections _ => reports_ok _
  | _ => exact reports_document none (.notAnObject .document)

/-! ## The validator -/

theorem exists_ofHintValue (types : DataTypes) {v : Value} (h : v.isHint = true) :
    ∃ type, types.ofHintValue v = .ok type := by
  unfold DataTypes.ofHintValue
  unfold isHint at h
  split
  · exact ⟨_, rfl⟩
  · next hno =>
    split at h
    · exact absurd rfl (hno _)
    · exact ⟨none, if_neg (by simpa using h)⟩

/-- The hint that is read of settings is the one that stands there. -/
theorem ParameterSettings.isHint_typeHint {v : Value} (h : hinted v = true) {s : ParameterSettings}
    (hs : ofValue v = .ok s) : s.typeHint.isHint = true := by
  obtain ⟨entries, rfl, hfrom⟩ := readFrom hs
  rw [hfrom.typeHint]
  exact h

namespace Validation

open Attempt

/-- The hints in the settings of a component can be looked up. -/
def Legible (c : Component) : Prop := ∀ side : Side, ∀ s ∈ side.settings c, s.typeHint.isHint = true

theorem exists_endpointType (types : DataTypes) {c : Component} (h : Legible c) (t : Option NodeType) (side : Side)
    (name : String) : ∃ type, endpointType types c t side name = .ok type := by
  unfold endpointType
  dsimp only
  cases hfind : (side.settings c).find? fun s => s.name.isText name || s.nickName.isText name with
  | none =>
      dsimp only
      split
      · exact ⟨_, rfl⟩
      · split <;> exact ⟨_, rfl⟩
  | some s =>
      dsimp only
      split
      · obtain ⟨type, htype⟩ := exists_ofHintValue types (h side s (List.mem_of_find?_eq_some hfind))
        rw [htype]
        exact ⟨_, rfl⟩
      · -- no hint counts, so the type is the declared one again
        split
        · exact ⟨_, rfl⟩
        · split <;> exact ⟨_, rfl⟩

theorem exists_checkWires (types : DataTypes) {d : Document} (h : ∀ c ∈ d.components, Legible c) (found : FoundTypes)
    (cs : List Connection) (index : Nat) : ∃ report, checkWires types found d index cs = .ok report := by
  induction cs generalizing index with
  | nil => exact ⟨_, rfl⟩
  | cons c rest ih =>
      obtain ⟨others, hrest⟩ := ih (index + 1)
      have hmem : ∀ {id : String} {c : Component}, d.component? id = some c → c ∈ d.components :=
        fun hfind => List.mem_of_find?_eq_some hfind
      rw [checkWires, hrest]
      split
      · next source target hsource htarget =>
        obtain ⟨s, hs⟩ := exists_endpointType types (h source (hmem hsource)) (found.lookup source.id).join
          .output c.source.paramName
        obtain ⟨t, ht⟩ := exists_endpointType types (h target (hmem htarget)) (found.lookup target.id).join
          .input c.target.paramName
        unfold checkWire
        rw [hs, ht]
        exact ⟨_, rfl⟩
      · exact ⟨_, rfl⟩

theorem exists_checkSemantics (types : DataTypes) {d : Document} (h : ∀ c ∈ d.components, Legible c)
    (catalog : Catalog) : ∃ report, checkSemantics types catalog d = .ok report := by
  obtain ⟨wires, hwires⟩ := exists_checkWires types h (foundTypes catalog d) d.connections 0
  unfold checkSemantics
  rw [hwires]
  exact ⟨_, rfl⟩

/-- All ids can be cited, since every integer has a text. -/
theorem citesIds_of_hasText (h : (Value.object entries).hasText = true) : citesIds entries = true := by
  have hitems : ∀ key, ∀ item ∈ (arrayItems? entries key).getD [], item.hasText = true := by
    intro key
    unfold arrayItems?
    have htext := hasText_field h key
    split
    · next items heq =>
      rw [heq] at htext
      exact fun item hitem => hasText_of_mem htext hitem
    · exact fun _ hitem => absurd hitem List.not_mem_nil
  have hcomponent : ∀ v : Value, v.hasText = true → citesComponent v = true := by
    intro v hv
    cases v with
    | object fields => exact Bool.and_eq_true_iff.mpr ⟨hasText_field hv _, hasText_field hv _⟩
    | _ => rfl
  have hendpoint : ∀ v : Value, v.hasText = true → citesEndpoint v = true := by
    intro v hv
    cases v with
    | object fields =>
        change ((Entries.get? fields "instanceId").getD (field fields "componentId")).hasText = true
        cases hid : Entries.get? fields "instanceId" with
        | none => exact hasText_field hv _
        | some id => exact hasText_of_get? hv hid
    | _ => rfl
  have hconnection : ∀ v : Value, v.hasText = true → citesConnection v = true := by
    intro v hv
    cases v with
    | object fields =>
        exact Bool.and_eq_true_iff.mpr ⟨hendpoint _ (hasText_field hv _), hendpoint _ (hasText_field hv _)⟩
    | _ => rfl
  unfold citesIds
  rw [Bool.and_eq_true, List.all_eq_true, List.all_eq_true]
  exact ⟨fun v hv => hcomponent v (hitems _ v hv), fun v hv => hconnection v (hitems _ v hv)⟩

/-- The hints of a document are those of the value it was read from. -/
theorem legible_of_hinted {v : Value} (h : Document.hinted v = true) {d : Document}
    (hd : Document.ofValue v = .ok d) : ∀ c ∈ d.components, Legible c := by
  obtain ⟨entries, rfl, hfrom⟩ := Document.readFrom hd
  intro c hc side s hs
  obtain ⟨raw, hraw, hread⟩ := exists_of_mem_readSection hfrom.components hc
  obtain ⟨inputs, outputs⟩ := Bool.and_eq_true_iff.mp (List.all_eq_true.mp h raw hraw)
  obtain ⟨fields, rfl, hcomponent⟩ := Component.readFrom hread
  cases side with
  | input =>
      obtain ⟨item, hitem, hsettings⟩ := exists_of_mem_readSettings hcomponent.inputs hs
      exact ParameterSettings.isHint_typeHint (List.all_eq_true.mp inputs item hitem) hsettings
  | output =>
      obtain ⟨item, hitem, hsettings⟩ := exists_of_mem_readSettings hcomponent.outputs hs
      exact ParameterSettings.isHint_typeHint (List.all_eq_true.mp outputs item hitem) hsettings

theorem checkObject_succeeds (types : DataTypes) (htext : (Value.object entries).hasText = true)
    (h : Document.tolerates (.object entries) = true) (hhinted : Document.hinted (.object entries) = true)
    (catalog : Option Catalog) : (checkObject types catalog entries).Succeeds fun _ => True := by
  unfold checkObject
  rw [citesIds_of_hasText htext, if_neg (by decide : ¬ (!true) = true)]
  dsimp only
  split
  · exact succeeds_pure trivial
  · split
    · exact succeeds_pure trivial
    · next fault hnot hfault =>
      obtain ⟨place, cause, rfl⟩ := Document.reports_ofValue htext h fault hfault
      exact absurd rfl (hnot place cause)
    · next d hd =>
      have hmeaning : (checkMeaning types catalog d).Succeeds fun _ => True := by
        cases catalog with
        | none => exact (succeeds_lift (Q := fun _ => True) trivial).bind fun _ _ => succeeds_pure trivial
        | some catalog =>
            obtain ⟨meaning, hmeaning⟩ := exists_checkSemantics types (legible_of_hinted hhinted hd) catalog
            exact succeeds_ofExcept hmeaning trivial
      refine hmeaning.bind fun meaning _ => ?_
      exact (succeeds_lift (Q := fun _ => True) trivial).bind fun _ _ => succeeds_pure trivial

/-- **What is wrong with a value is reported.**  If every integer has a text and the reader bears with the
value, it is read as a document or refused with a fault of the document model; and if moreover hints are
texts, the validator has a report on it. -/
theorem reports_malformed {v : Value} (htext : v.hasText = true) (h : Document.tolerates v = true) :
    ((∃ d, Document.ofValue v = .ok d) ∨ ∃ place cause, Document.ofValue v = .error (.document place cause)) ∧
      (Document.hinted v = true → ∀ (types : DataTypes) (catalog : Option Catalog) (entries : Entries),
        v = .object entries → ∃ report, (validate types catalog v).outcome.value = .ok report) := by
  constructor
  · cases hv : Document.ofValue v with
    | ok d => exact .inl ⟨d, rfl⟩
    | error fault =>
        obtain ⟨place, cause, rfl⟩ := Document.reports_ofValue htext h fault hv
        exact .inr ⟨place, cause, rfl⟩
  · rintro hhinted types catalog entries rfl
    obtain ⟨report, hreport, -⟩ := checkObject_succeeds types htext h hhinted catalog
    exact ⟨report, hreport⟩

/-- A document with one component. -/
def oneComponent (fields : Entries) : Value :=
  .object [("components", .list [.object fields]), ("connections", .list [])]

/-- Properties that are a list. -/
def listedProperties : Value := oneComponent [("properties", .list [.int 1])]

theorem reports_malformed_listedProperties :
    (∃ place cause, Document.ofValue listedProperties = .error (.document place cause)) ∧
      ∃ report, (validate .standard none listedProperties).outcome.value = .ok report := by
  obtain ⟨hread, hreport⟩ := reports_malformed (v := listedProperties) (by decide) (by decide)
  refine ⟨hread.resolve_left ?_, hreport (by decide) .standard none _ rfl⟩
  rintro ⟨d, hd⟩
  cases hd

/-- Settings of an input with one field beside the name. -/
def oneSetting (key : String) (v : Value) : Value :=
  oneComponent [("inputSettings", .list [.object [("parameterName", .str "x"), (key, v)]])]

/-- An integer beyond the doubles is no coordinate, and no document fault either. -/
theorem readPivot_huge {i : Int} (h : Double.ofInt? i = none) (y : Value) :
    readPivot (.list [.int i, y]) = .error .outOfRange := by
  have hx : (Value.int i).toFloat = .error .outOfRange := by
    unfold toFloat
    dsimp only
    rw [h]
  change readPosition (.int i) y = _
  rw [readPosition, hx]

/-- Values on which reading fails in another way: settings that are a truth value, modifiers that are one,
a mapping that is a superscript, and a coordinate beyond the doubles. -/
theorem ofValue_fails :
    Document.ofValue (oneComponent [("inputSettings", .bool true)]) = .error .wrongKind ∧
    Document.ofValue (oneSetting "additionalSettings" (.bool true)) = .error .noAttribute ∧
    Document.ofValue (oneSetting "dataMapping" (.str "²")) = .error .unreadable ∧
    readPivot (.list [.int (10 ^ 309), .int 0]) = .error .outOfRange := by
  have hout : Double.ofInt? (10 ^ 309) = none := Option.isNone_iff_eq_none.mp (by decide +kernel)
  exact ⟨rfl, rfl, rfl, readPivot_huge hout (.int 0)⟩

end Validation

end Patchbay
