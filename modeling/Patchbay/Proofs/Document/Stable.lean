import Patchbay.Proofs.Document.Origin
import Patchbay.Proofs.Document.Reading
import Patchbay.Proofs.Double.Text
import Patchbay.Proofs.Keyed

/-!
# Loading is stable

A document that was read from a JSON value is written in a form of its own, without defaults and redundant
names.  Loading this form again changes nothing any more, and nothing that the settings of a parameter mean
was lost on the way.

* `Value.text_ne_empty` — a JSON value that counts as present has a text that does, too: so a parameter that
  was named stays named.
* **`Document.isReadable_of_ofValue`** — whatever was read can be written and read again.
* **`ParameterSettings.Agree`** — settings that mean the same, though one may leave out what the other says.
* **`Document.reload`** — the document is read again, it is written as before, and all settings agree.
-/

namespace Patchbay

/-! ## JSON values -/

namespace Value

theorem IsJson.of_mem {items : List Value} (h : (list items).IsJson) {v : Value} (hv : v ∈ items) : v.IsJson := by
  change AllJson items at h
  induction items with
  | nil => cases hv
  | cons first rest ih =>
      rcases List.mem_cons.mp hv with rfl | hv
      · exact h.1
      · exact ih hv h.2

theorem IsJson.of_mem_entries {entries : Entries} (h : (object entries).IsJson) {e : String × Value}
    (he : e ∈ entries) : e.2.IsJson := by
  have hall : EntriesJson entries := h.2
  clear h
  induction entries with
  | nil => cases he
  | cons first rest ih =>
      rcases List.mem_cons.mp he with rfl | he
      · exact hall.1
      · exact ih he hall.2

theorem IsJson.field {entries : Entries} (h : (object entries).IsJson) (key : String) :
    (field entries key).IsJson := by
  unfold Value.field
  cases hv : Entries.get? entries key with
  | none => trivial
  | some v => exact h.of_mem_entries (Keyed.mem_of_lookup_eq_some hv)

theorem IsJson.items {v : Value} (h : v.IsJson) : ∀ item ∈ v.items, item.IsJson := by
  cases v with
  | list items => exact fun item hitem => h.of_mem hitem
  | _ => exact fun _ hitem => nomatch hitem

theorem IsJson.orElse {a b : Value} (ha : a.IsJson) (hb : b.IsJson) : (a.orElse b).IsJson := by
  unfold Value.orElse
  split
  · exact ha
  · exact hb

end Value

/-! ## Texts that are not empty -/

theorem Double.text_full_ne_empty (x : Float) : text full x ≠ "" := by
  cases hfinite : isFinite x with
  | true =>
      intro hempty
      have hplaces : full.places = none := rfl
      obtain ⟨n, hparse, -⟩ := parse?_text hplaces hfinite
      rw [hempty] at hparse
      cases hparse
  | false =>
      unfold text
      dsimp only
      rw [hfinite]
      split
      · decide
      · rw [Bool.not_false, if_pos rfl]
        split <;> decide

theorem Text.integerText_ne_empty (i : Int) : integerText i ≠ "" := by
  intro hempty
  have hnil := congrArg String.toList hempty
  cases i with
  | ofNat n =>
      rw [integerText, String.toList_ofList] at hnil
      exact digitsOfNat_ne_nil n hnil
  | negSucc n =>
      rw [integerText, String.toList_ofList] at hnil
      cases hnil

namespace Value

theorem append_ne_empty {s t : String} (h : s ≠ "") : s ++ t ≠ "" := by
  intro hempty
  have hnil := congrArg String.toList hempty
  rw [String.toList_append, String.toList_empty, List.append_eq_nil_iff] at hnil
  exact h (String.toList_inj.mp hnil.1)

/-- What counts as present has a text that does. -/
theorem text_ne_empty {v : Value} (hjson : v.IsJson) (h : v.truthy = true) : v.text ≠ "" := by
  cases v with
  | null => cases h
  | bool b => cases b <;> decide
  | int i => exact Text.integerText_ne_empty i
  | float x => exact Double.text_full_ne_empty x
  | str s => simpa [truthy, String.isEmpty_iff] using h
  | list items => exact append_ne_empty (append_ne_empty (by decide))
  | object entries => exact append_ne_empty (append_ne_empty (by decide))
  | _ => exact hjson.elim

end Value

open Value

/-! ## What was read can be read again -/

theorem ParameterSettings.isReadable_of_ofValue {v : Value} (hjson : v.IsJson) {s : ParameterSettings}
    (h : ofValue v = .ok s) : s.IsReadable := by
  obtain ⟨entries, rfl, hfrom⟩ := readFrom h
  obtain ⟨n, hpresent, hn, hname⟩ := hfrom.name
  refine ⟨⟨n, ?_, hname⟩, fun m hm => ?_, fun m hm => ?_⟩
  · rw [← text_of_text? hn]
    exact text_ne_empty (((hjson.field _).orElse (hjson.field _)).orElse (hjson.field _)) hpresent
  · rw [hfrom.access] at hm
    unfold readAccess at hm
    split at hm
    · cases hm
    · cases hm
      exact ⟨_, rfl⟩
  · have hmapping := hfrom.mapping
    rw [Option.mem_def.mp hm] at hmapping
    unfold readMapping at hmapping
    split at hmapping
    · cases hmapping
    · cases hread : Mapping.read (field entries "dataMapping") with
      | error fault =>
          rw [hread] at hmapping
          cases hmapping
      | ok k =>
          rw [hread] at hmapping
          cases hmapping
          exact ⟨k, rfl⟩

theorem jsonTypeName_ne_empty {v : Value} (hjson : v.IsJson) : v.jsonTypeName ≠ "" := by
  cases v with
  | null | bool _ | int _ | float _ | str _ | list _ | object _ => simp [jsonTypeName]
  | _ => exact hjson.elim

theorem Property.type_ne_empty {v : Value} (hjson : v.IsJson) : (ofValue v).type ≠ "" := by
  unfold ofValue
  split
  · next entries =>
    split
    · next value hvalue =>
      have hlabel := text_ne_empty (v := (field entries "type").orElse (.str value.jsonTypeName))
        ((hjson.field "type").orElse trivial)
      refine hlabel ?_
      unfold Value.orElse
      split
      · assumption
      · have hname := jsonTypeName_ne_empty (hjson.of_mem_entries (Keyed.mem_of_lookup_eq_some hvalue))
        simpa [truthy, String.isEmpty_iff] using hname
    · exact jsonTypeName_ne_empty hjson
  · exact jsonTypeName_ne_empty hjson

/-- Messages are texts. -/
theorem exists_of_mem_readMessages {v : Value} {messages : List Value} (h : readMessages v = .ok messages) :
    ∀ m ∈ messages, ∃ t, m = .str t := by
  intro m hm
  unfold readMessages at h
  split at h
  · obtain ⟨item, -, hitem⟩ := exists_of_mem_mapM h hm
    cases htext : item.text? with
    | error fault =>
        rw [htext] at hitem
        cases hitem
    | ok t =>
        rw [htext] at hitem
        cases hitem
        exact ⟨t, rfl⟩
  · cases h
    cases hm

theorem Component.isReadable_of_ofValue {v : Value} (hjson : v.IsJson) {c : Component} (h : ofValue v = .ok c) :
    c.IsReadable := by
  obtain ⟨entries, rfl, hfrom⟩ := readFrom h
  obtain ⟨n, -, hname⟩ := hfrom.name
  obtain ⟨k, -, htypeKey⟩ := hfrom.typeKey
  obtain ⟨raw, hraw, hproperties⟩ := hfrom.properties
  have hsettings : ∀ {key : String} {settings : List ParameterSettings},
      readSettings (field entries key) = .ok settings → ∀ s ∈ settings, s.IsReadable := by
    intro key settings hread s hs
    obtain ⟨item, hitem, hs⟩ := exists_of_mem_readSettings hread hs
    exact ParameterSettings.isReadable_of_ofValue ((hjson.field key).items item hitem) hs
  have hmessages : ∀ {key : String} {messages : List Value},
      readMessages (field entries key) = .ok messages → ∀ m ∈ messages, m.hasText = true := by
    intro key messages hread m hm
    obtain ⟨t, rfl⟩ := exists_of_mem_readMessages hread m hm
    rfl
  refine ⟨⟨n, hname⟩, ⟨k, htypeKey⟩, fun p hp => ?_, hsettings hfrom.inputs, hsettings hfrom.outputs,
    hmessages hfrom.warnings, hmessages hfrom.errors⟩
  obtain ⟨e, he, hread⟩ := exists_of_mem_mapM hproperties hp
  have hentry : e.2.IsJson := by
    have hfield := hjson.field "properties"
    unfold readProperties at hraw
    split at hraw
    · cases hraw
      cases he
    · split at hraw
      · next fields heq =>
        cases hraw
        rw [heq] at hfield
        exact hfield.of_mem_entries he
      · cases hraw
  unfold Property.read at hread
  split at hread
  · cases hread
    exact Property.type_ne_empty hentry
  · cases hread

theorem Endpoint.exists_name {v : Value} {e : Endpoint} (h : ofValue v = .ok e) : ∃ n, e.name = .str n := by
  obtain ⟨_, -, hfrom⟩ := readFrom h
  obtain ⟨n, -, hname⟩ := hfrom.name
  exact ⟨n, hname⟩

/-- **Whatever was read can be written and read again.** -/
theorem Document.isReadable_of_ofValue {v : Value} (hjson : v.IsJson) {d : Document} (h : ofValue v = .ok d) :
    d.IsReadable := by
  obtain ⟨entries, rfl, hfrom⟩ := readFrom h
  have hends : ∀ c ∈ d.connections, (∃ n, c.source.name = .str n) ∧ ∃ n, c.target.name = .str n := by
    intro c hc
    obtain ⟨raw, -, hread⟩ := exists_of_mem_readSection hfrom.connections hc
    obtain ⟨_, -, hsource, htarget⟩ := Connection.readFrom hread
    exact ⟨Endpoint.exists_name hsource, Endpoint.exists_name htarget⟩
  refine ⟨fun c hc => ?_, fun c hc => (hends c hc).1, fun c hc => (hends c hc).2⟩
  obtain ⟨raw, hraw, hread⟩ := exists_of_mem_readSection hfrom.components hc
  exact Component.isReadable_of_ofValue ((hjson.field _).items raw hraw) hread

/-! ## What settings mean -/

/-- A value that equals a text is the text. -/
theorem Value.eq_str_of_sameAs {v : Value} {s : String} (h : v.sameAs (.str s) = true) : v = .str s := by
  cases v with
  | str t => rw [Value.sameAs_str, beq_iff_eq] at h; rw [h]
  | _ => simp [sameAs, sameLeaf, number?] at h

namespace ParameterSettings

/-- Settings that mean the same: what one says and the other leaves out is what goes without saying. -/
structure Agree (s s' : ParameterSettings) : Prop where
  variableName : s'.effectiveVariable = s.effectiveVariable
  typeHint : s'.typeHint.orElse .null = s.typeHint.orElse .null
  access : s'.access = s.access
  required : s'.required = s.required
  isPrincipal : s'.isPrincipal = s.isPrincipal
  mapping : s'.mapping.getD (.mapping .none) = s.mapping.getD (.mapping .none)
  modifiers : s'.modifiers = s.modifiers

/-- Modifiers are recorded only if one of them is. -/
theorem modifiers_ne_empty {v : Value} {s : ParameterSettings} (h : ofValue v = .ok s) :
    ∀ m ∈ s.modifiers, m.isEmpty = false := by
  obtain ⟨entries, rfl, hfrom⟩ := readFrom h
  intro m hm
  rw [hfrom.modifiers] at hm
  unfold Modifiers.ofValue at hm
  split at hm
  · dsimp only at hm
    split at hm
    · cases hm
    · next hempty =>
      cases hm
      exact Bool.eq_false_iff.mpr hempty
  · cases hm

/-- What is left of settings when they are written means what they meant. -/
theorem agree_reread {s : ParameterSettings} (hname : ∃ n, s.name = .str n)
    (hmodifiers : ∀ m ∈ s.modifiers, m.isEmpty = false) : s.Agree s.reread where
  variableName := by
    obtain ⟨n, hn⟩ := hname
    change (if s.differs s.variableName then s.variableName else .null).orElse s.name =
      s.variableName.orElse s.name
    cases hdiffers : s.differs s.variableName with
    | true => rfl
    | false =>
        rw [if_neg (by decide)]
        change s.name = _
        unfold Value.orElse
        split
        · next htruthy =>
          -- a variable that is there and not written is the name itself
          unfold differs at hdiffers
          rw [htruthy, Bool.true_and, Bool.not_eq_false', hn] at hdiffers
          rw [hn, Value.eq_str_of_sameAs hdiffers]
        · rfl
  typeHint := by
    change (s.typeHint.orElse .null).orElse .null = _
    unfold Value.orElse
    cases htruthy : s.typeHint.truthy with
    | true => rw [if_pos rfl, if_pos htruthy]
    | false => rfl
  access := rfl
  required := rfl
  isPrincipal := rfl
  mapping := by
    change (s.mapping.filter (· ≠ .mapping .none)).getD (.mapping .none) = _
    rcases s.mapping with _ | (a | (_ | _ | _) | r) <;> rfl
  modifiers := by
    change s.modifiers.filter (!·.isEmpty) = s.modifiers
    cases hm : s.modifiers with
    | none => rfl
    | some m => rw [Option.filter_some, hmodifiers m hm, Bool.not_false, if_pos rfl]

end ParameterSettings

/-- Components whose settings mean the same, one by one. -/
structure Component.Agree (c c' : Component) : Prop where
  inputs : List.Forall₂ ParameterSettings.Agree c.inputs c'.inputs
  outputs : List.Forall₂ ParameterSettings.Agree c.outputs c'.outputs

/-! ## Loading again -/

theorem Component.toValue_reread {c : Component} (hwarnings : ∀ m ∈ c.warnings, ∃ t, m = .str t)
    (herrors : ∀ m ∈ c.errors, ∃ t, m = .str t) : c.reread.toValue = c.toValue := by
  have hsettings : ∀ settings : List ParameterSettings,
      (settings.map (·.reread)).map (·.toValue) = settings.map (·.toValue) := by
    intro settings
    rw [List.map_map]
    exact List.map_congr_left fun s _ => s.toValue_reread
  have hmessages : ∀ {messages : List Value}, (∀ m ∈ messages, ∃ t, m = .str t) →
      messages.map (fun v => .str v.text) = messages := by
    intro messages h
    refine (List.map_congr_left fun m hm => ?_).trans (List.map_id messages)
    obtain ⟨t, rfl⟩ := h m hm
    rfl
  unfold toValue
  dsimp only [reread]
  rw [hsettings, hsettings, hmessages hwarnings, hmessages herrors, List.isEmpty_map, List.isEmpty_map]

/-- A list beside what its items were turned into. -/
theorem forall₂_map {α : Type} {R : α → α → Prop} {f : α → α} {items : List α} (h : ∀ a ∈ items, R a (f a)) :
    List.Forall₂ R items (items.map f) := by
  rw [List.forall₂_map_right_iff, List.forall₂_same]
  exact h

theorem Component.agree_reread {v : Value} {c : Component} (h : ofValue v = .ok c) : c.Agree c.reread := by
  obtain ⟨entries, rfl, hfrom⟩ := readFrom h
  have hsettings : ∀ {key : String} {settings : List ParameterSettings},
      readSettings (field entries key) = .ok settings →
        List.Forall₂ ParameterSettings.Agree settings (settings.map (·.reread)) := by
    intro key settings hread
    refine forall₂_map fun s hs => ?_
    obtain ⟨item, -, hs⟩ := exists_of_mem_readSettings hread hs
    obtain ⟨_, -, hsettings⟩ := ParameterSettings.readFrom hs
    obtain ⟨n, -, -, hname⟩ := hsettings.name
    exact ParameterSettings.agree_reread ⟨n, hname⟩ (ParameterSettings.modifiers_ne_empty hs)
  exact ⟨hsettings hfrom.inputs, hsettings hfrom.outputs⟩

/-- **Loading is stable.**  A document that was read from a JSON value is read again from what it writes;
it is written as before, and its settings mean what they meant. -/
theorem Document.reload {v : Value} (hjson : v.IsJson) {d : Document} (h : ofValue v = .ok d) :
    ∃ d', ofValue d.toValue = .ok d' ∧ d'.toValue = d.toValue ∧
      List.Forall₂ Component.Agree d.components d'.components := by
  refine ⟨d.reread, (isReadable_of_ofValue hjson h).ofValue_toValue, ?_, ?_⟩
  all_goals obtain ⟨entries, rfl, hfrom⟩ := readFrom h
  · have hcomponents : ∀ c ∈ d.components, c.reread.toValue = c.toValue := by
      intro c hc
      obtain ⟨raw, -, hread⟩ := exists_of_mem_readSection hfrom.components hc
      obtain ⟨fields, -, hcomponent⟩ := Component.readFrom hread
      exact Component.toValue_reread (exists_of_mem_readMessages hcomponent.warnings)
        (exists_of_mem_readMessages hcomponent.errors)
    unfold toValue reread
    dsimp only
    rw [List.map_map]
    exact congrArg (fun components => Value.object [("components", .list components), _])
      (List.map_congr_left hcomponents)
  · refine forall₂_map fun c hc => ?_
    obtain ⟨raw, -, hread⟩ := exists_of_mem_readSection hfrom.components hc
    exact Component.agree_reread hread

/-- A document in which much goes without saying: the variable is the name, the hint is empty, nothing is
mapped, the principal flag stands among the modifiers, and names and messages are no texts. -/
def redundantDocument : Value :=
  .object [("components", .list [.object [
    ("name", .int 3),
    ("properties", .object [("Count", .int 5)]),
    ("inputSettings", .list [.object [
      ("name", .str "x"), ("variableName", .str "x"), ("typeHint", .str ""), ("access", .int 1),
      ("dataMapping", .str "none"),
      ("additionalSettings", .object [("isPrincipal", .bool true), ("locked", .null)])]]),
    ("warnings", .list [.bool true])]])]

theorem reload_redundantDocument : ∃ d d', Document.ofValue redundantDocument = .ok d ∧
    Document.ofValue d.toValue = .ok d' ∧ d'.toValue = d.toValue := by
  have hjson : redundantDocument.IsJson := by
    simp [redundantDocument, IsJson, AllJson, EntriesJson]
  obtain ⟨d', hread, hsame, -⟩ := Document.reload hjson rfl
  exact ⟨_, d', rfl, hread, hsame⟩

end Patchbay
