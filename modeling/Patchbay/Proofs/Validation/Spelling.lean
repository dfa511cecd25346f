import Patchbay.Proofs.Validation.Accepting

/-!
# How connections may spell their ends

An endpoint has its id under one of three keys, and its name under one of two.  The reader takes all of
them.  The validator takes both keys of the name, but only two of those of the id: what is written the oldest
way is read, and reported as if it were not there.  Nothing else that is read is reported.

* `seesId`, **`unseenIds`** — whether the id of an endpoint is under a key that the validator looks at, and
  the errors of those that are not
* `checkEndpoint_errors_of_read` — the validator on an endpoint that was read
* `checkComponents_complete` — the validator on components with different ids
* **`checkStructure_spellings`** — for every document whose connections are complete and lead between its
  components, the errors are those of `unseenIds`.
-/

namespace Patchbay

/-- What counts as absent has a text. -/
theorem Value.hasText_of_not_truthy {v : Value} (h : v.truthy = false) : v.hasText = true := by
  cases v with
  | int i =>
      have hzero : i = 0 := by simpa [truthy] using h
      rw [hzero]
      decide
  | list items | object items | tree items | path items =>
      have hempty : items = [] := by simpa [truthy] using h
      rw [hempty]
      rfl
  | _ => rfl

theorem Value.hasText_of_text? {v : Value} {s : String} (h : v.text? = .ok s) : v.hasText = true := by
  unfold text? at h
  split at h
  · assumption
  · cases h

theorem hasText_of_textField {entries : Entries} {key s : String} (h : textField entries key = .ok s) :
    (Value.field entries key).hasText = true := by
  unfold textField Value.orElse at h
  split at h
  · exact Value.hasText_of_text? h
  · next habsent => exact Value.hasText_of_not_truthy (Bool.eq_false_iff.mpr habsent)

/-- A field that is read as something else than nothing counts as present. -/
theorem truthy_of_textField {entries : Entries} {key s : String} (h : textField entries key = .ok s)
    (hs : s ≠ "") : (Value.field entries key).truthy = true := by
  by_contra habsent
  unfold textField Value.orElse at h
  rw [if_neg habsent] at h
  cases h
  exact hs rfl

/-- Nothing is read where every key is missing or null. -/
theorem firstField_eq_null {entries : Entries} {keys : List String}
    (h : ∀ key ∈ keys, Validation.lacks entries key = true) : firstField entries keys = .null := by
  unfold firstField
  cases hfirst : keys.findSome? fun key => Entries.get? entries key with
  | none => rfl
  | some v =>
      obtain ⟨key, hkey, hget⟩ := List.exists_of_findSome?_eq_some hfirst
      have hnull := h key hkey
      unfold Validation.lacks Value.field at hnull
      rw [hget] at hnull
      cases v with
      | null => rfl
      | _ => cases hnull

theorem referenceText_ne {v : Value} {s : String} (h : referenceText v = .ok s) (hs : s ≠ "") :
    v.isNull = false := by
  cases v with
  | null =>
      cases h
      exact absurd rfl hs
  | _ => rfl

namespace Validation

open Report

/-! ## Endpoints -/

/-- Whether the id of an endpoint stands under a key that the validator looks at. -/
def seesId (endpoint : Value) : Bool :=
  ["instanceId", "componentId"].any fun key => (endpoint.get? key).isSome

/-- The error for an endpoint whose id the validator does not see. -/
def unseenId (owner : String) (endpoint : Value) : List String :=
  if seesId endpoint then [] else (missing owner "instanceId").errors

theorem unseenId_eq_nil {owner : String} {endpoint : Value} :
    unseenId owner endpoint = [] ↔ seesId endpoint = true := by
  unfold unseenId
  cases seesId endpoint with
  | true => exact ⟨fun _ => rfl, fun _ => rfl⟩
  | false => exact ⟨(fun h => nomatch h), (fun h => nomatch h)⟩

theorem seenReference_of_not_seesId {entries : Entries} (h : seesId (.object entries) = false) :
    seenReference entries = .null := by
  unfold seesId at h
  simp only [List.any_cons, List.any_nil, Bool.or_false, Bool.or_eq_false_iff, Option.isSome_eq_false_iff,
    Option.isNone_iff_eq_none, Value.get?] at h
  unfold seenReference Value.field
  rw [h.1, h.2]
  rfl

theorem firstField_of_seesId {entries : Entries} (h : seesId (.object entries) = true) :
    firstField entries ["instanceId", "componentId", "id"] = seenReference entries := by
  unfold seenReference firstField Value.field
  rw [List.findSome?_cons]
  cases hid : Entries.get? entries "instanceId" with
  | some v => rfl
  | none =>
      rw [List.findSome?_cons]
      cases hcomponent : Entries.get? entries "componentId" with
      | some v => rfl
      | none =>
          unfold seesId Value.get? at h
          dsimp only [List.any_cons, List.any_nil] at h
          rw [hid, hcomponent] at h
          cases h

/-- On an endpoint that was read, is complete and names a component, the validator stumbles over nothing but
the key of the id. -/
theorem checkEndpoint_errors_of_read {owner : String} {ids : List String} {v : Value} {e : Endpoint}
    (he : Endpoint.ofValue v = .ok e) (hvalid : e.isValid = true) (hid : e.id ∈ ids) :
    (checkEndpoint owner (some ids) v).errors = unseenId owner v := by
  obtain ⟨entries, rfl, hread⟩ := Endpoint.readFrom he
  unfold Endpoint.isValid at hvalid
  rw [Bool.and_eq_true, Bool.not_eq_true', String.isEmpty_eq_false_iff] at hvalid
  have hnamed : (lacks entries "name" && lacks entries "paramName") = false := by
    by_contra hlacks
    rw [Bool.not_eq_false, Bool.and_eq_true] at hlacks
    obtain ⟨n, hn, hname⟩ := hread.name
    rw [firstField_eq_null (by simpa using hlacks)] at hn
    cases hn
    rw [hname] at hvalid
    cases hvalid.2
  cases hsees : seesId (.object entries) with
  | true =>
      have href := hread.id
      rw [firstField_of_seesId hsees] at href
      have hnull := referenceText_ne href hvalid.1
      rw [referenceText_of_not_null hnull] at href
      rw [unseenId_eq_nil.mpr hsees]
      refine checkEndpoint_errors.mpr ⟨entries, rfl, hnull, ?_, hnamed⟩
      rw [Value.text_of_text? href]
      exact hid
  | false =>
      have hnull := seenReference_of_not_seesId hsees
      unfold seenReference at hnull
      unfold checkEndpoint unseenId
      dsimp only
      rw [hnull, hsees, ← Bool.not_and, hnamed]
      rfl

/-- And it can cite the id. -/
theorem citesEndpoint_of_read {v : Value} {e : Endpoint} (he : Endpoint.ofValue v = .ok e) :
    citesEndpoint v = true := by
  obtain ⟨entries, rfl, hread⟩ := Endpoint.readFrom he
  change (seenReference entries).hasText = true
  cases hnull : (seenReference entries).isNull with
  | true =>
      cases href : seenReference entries with
      | null => rfl
      | _ =>
          rw [href] at hnull
          cases hnull
  | false =>
      have href := hread.id
      rw [firstField_of_seen hnull, referenceText_of_not_null hnull] at href
      exact Value.hasText_of_text? href

/-! ## Connections -/

/-- The errors for the ends of a connection whose ids the validator does not see. -/
def unseenEnds (owner : String) (wire : Value) : List String :=
  unseenId (owner ++ ".from") (wire.under "from") ++ unseenId (owner ++ ".to") (wire.under "to")

/-- The errors for all ends of connections whose ids the validator does not see, in order. -/
def unseenIds (wires : List Value) (first : Nat) : List String :=
  (wires.zipIdx first).flatMap fun (wire, index) => unseenEnds (itemName "connections" index) wire

theorem unseenIds_cons (wire : Value) (rest : List Value) (first : Nat) :
    unseenIds (wire :: rest) first =
      unseenEnds (itemName "connections" first) wire ++ unseenIds rest (first + 1) := by
  unfold unseenIds
  rw [List.zipIdx_cons, List.flatMap_cons]

theorem unseenIds_eq_nil {wires : List Value} {first : Nat} :
    unseenIds wires first = [] ↔
      ∀ wire ∈ wires, seesId (wire.under "from") = true ∧ seesId (wire.under "to") = true := by
  induction wires generalizing first with
  | nil => exact ⟨fun _ => List.forall_mem_nil _, fun _ => rfl⟩
  | cons wire rest ih =>
      rw [unseenIds_cons, List.append_eq_nil_iff, ih, List.forall_mem_cons]
      refine and_congr_left fun _ => ?_
      unfold unseenEnds
      rw [List.append_eq_nil_iff, unseenId_eq_nil, unseenId_eq_nil]

/-- The validator on connections that were read and lead between given ids. -/
theorem checkConnections_errors_of_read {ids : List String} {wires : List Value} {first : Nat}
    {connections : List Connection}
    (hread : readSection .connections Connection.ofValue first wires = .ok connections)
    (hjoins : ∀ c ∈ connections, c.isValid = true ∧ c.source.id ∈ ids ∧ c.target.id ∈ ids) :
    (checkConnections first (some ids) wires).errors = unseenIds wires first ∧
      wires.all citesConnection = true := by
  induction wires generalizing first connections with
  | nil => exact ⟨rfl, rfl⟩
  | cons wire rest ih =>
      obtain ⟨c, others, rfl, hwire, hrest⟩ := readSection_cons hread
      rw [List.forall_mem_cons] at hjoins
      obtain ⟨⟨hvalid, hsource, htarget⟩, hothers⟩ := hjoins
      obtain ⟨herrors, hcites⟩ := ih hrest hothers
      obtain ⟨entries, rfl, hfrom, hto⟩ := Connection.readFrom hwire
      unfold Connection.isValid at hvalid
      rw [Bool.and_eq_true] at hvalid
      refine ⟨?_, ?_⟩
      · rw [checkConnections, errors_append, herrors, unseenIds_cons]
        congr 1
        change (_ ++ _ : Report).errors = _
        rw [errors_append, checkEndpoint_errors_of_read hfrom hvalid.1 hsource,
          checkEndpoint_errors_of_read hto hvalid.2 htarget]
        rfl
      · rw [List.all_cons, hcites, Bool.and_true]
        change (_ && _) = true
        rw [citesEndpoint_of_read hfrom, citesEndpoint_of_read hto]
        rfl

/-! ## Components -/

/-- The fields of a component that the validator asks for are there, and its properties are an object. -/
structure Stated (part : Entries) : Prop where
  name : lacks part "name" = false
  typeKey : lacks part "componentGuid" = false
  id : lacks part "instanceGuid" = false
  properties : isNoObject part "properties" = false

/-- The validator finds no errors in components of which each states what it is asked for, and all ids are
different. -/
theorem checkComponents_complete {parts : List Entries} (hstated : ∀ part ∈ parts, Stated part) {first : Nat}
    {defined : List String} (hnew : ∀ part ∈ parts, seenId part ∉ defined)
    (hnodup : (parts.map seenId).Nodup) :
    (checkComponents first defined (parts.map Value.object)).1.errors = [] ∧
      (checkComponents first defined (parts.map Value.object)).2 = defined ++ parts.map seenId := by
  induction parts generalizing first defined with
  | nil => exact ⟨rfl, (List.append_nil _).symm⟩
  | cons part rest ih =>
      rw [List.forall_mem_cons] at hstated hnew
      rw [List.map_cons, List.nodup_cons] at hnodup
      obtain ⟨hpart, hrest⟩ := hstated
      have hlater : ∀ other ∈ rest, seenId other ∉ defined ++ [seenId part] := by
        intro other hother hmem
        rcases List.mem_append.mp hmem with hmem | hmem
        · exact hnew.2 other hother hmem
        · exact hnodup.1 (List.mem_singleton.mp hmem ▸ List.mem_map_of_mem hother)
      obtain ⟨herrors, hids⟩ := @ih hrest (first + 1) _ hlater hnodup.2
      rw [List.map_cons, checkComponents]
      dsimp only
      rw [componentId?_of_lacks hpart.id, Option.toList_some, errors_append_eq_nil, checkComponent_errors]
      refine ⟨⟨⟨hpart.name, hpart.typeKey, hpart.id, hnew.1, hpart.properties⟩, herrors⟩, ?_⟩
      rw [hids, List.append_assoc]
      rfl

/-- The id of a component that was read, unless it is empty, is the one that the validator sees. -/
theorem id_eq_seenId {part : Entries} {c : Component} (hc : c.ReadFrom part) (hid : c.id ≠ "") :
    c.id = seenId part :=
  eq_seenId_of_textField (.inl (truthy_of_textField hc.id hid)) hc.id

/-- The id of a connection's end under which a component was read is one that the validator sees. -/
theorem mem_seenIds_of_component? {parts : List Entries} {d : Document} {first : Nat}
    (hparts : readSection .components Component.ofValue first (parts.map Value.object) = .ok d.components)
    {e : Endpoint} (hvalid : e.isValid = true) (hfound : (d.component? e.id).isSome = true) :
    e.id ∈ parts.map seenId := by
  obtain ⟨c, hc, hid⟩ := List.find?_isSome.mp hfound
  obtain ⟨_, hv, hofValue⟩ := exists_of_mem_readSection hparts hc
  obtain ⟨part, hpart, rfl⟩ := List.mem_map.mp hv
  obtain ⟨_, heq, hreadPart⟩ := Component.readFrom hofValue
  cases heq
  rw [beq_iff_eq] at hid
  have hne : c.id ≠ "" := by
    rw [hid]
    unfold Endpoint.isValid at hvalid
    rw [Bool.and_eq_true, Bool.not_eq_true', String.isEmpty_eq_false_iff] at hvalid
    exact hvalid.1
  rw [← hid, id_eq_seenId hreadPart hne]
  exact List.mem_map_of_mem hpart

/-- And its type key and its id can be cited. -/
theorem citesComponent_of_read {v : Value} {c : Component} (hc : Component.ofValue v = .ok c) :
    citesComponent v = true := by
  obtain ⟨part, rfl, hread⟩ := Component.readFrom hc
  obtain ⟨key, hkey, -⟩ := hread.typeKey
  change (_ && _) = true
  rw [hasText_of_textField hkey, hasText_of_textField hread.id]
  rfl

/-! ## Documents -/

/-- **Of a document whose components are stated and different and whose connections are complete and lead
between them, the validator reports the ends that have their ids under the oldest key, and nothing else.** -/
theorem checkStructure_spellings {entries : Entries} {parts : List Entries} {wires : List Value} {d : Document}
    (hcomponents : Value.field entries "components" = .list (parts.map Value.object))
    (hconnections : Value.field entries "connections" = .list wires)
    (hstated : ∀ part ∈ parts, Stated part) (hnodup : (parts.map seenId).Nodup)
    (hd : Document.ofValue (.object entries) = .ok d)
    (hjoins : ∀ c ∈ d.connections, c.isValid = true ∧ (d.component? c.source.id).isSome = true ∧
      (d.component? c.target.id).isSome = true) :
    citesIds entries = true ∧ (checkStructure entries).errors = unseenIds wires 0 ∧
      ((checkStructure entries).errors = [] ↔
        ∀ wire ∈ wires, seesId (wire.under "from") = true ∧ seesId (wire.under "to") = true) := by
  obtain ⟨_, heq, hread⟩ := Document.readFrom hd
  cases heq
  have hparts := hread.components
  have hwires := hread.connections
  rw [hcomponents, Value.items] at hparts
  rw [hconnections, Value.items] at hwires
  have hwired : ∀ c ∈ d.connections, c.isValid = true ∧ c.source.id ∈ parts.map seenId ∧
      c.target.id ∈ parts.map seenId := by
    intro c hc
    obtain ⟨hvalid, hsource, htarget⟩ := hjoins c hc
    have hends := hvalid
    unfold Connection.isValid at hends
    rw [Bool.and_eq_true] at hends
    exact ⟨hvalid, mem_seenIds_of_component? hparts hends.1 hsource,
      mem_seenIds_of_component? hparts hends.2 htarget⟩
  obtain ⟨herrors, hcites⟩ := checkConnections_errors_of_read hwires hwired
  have hfirst : ∀ part ∈ parts, seenId part ∉ ([] : List String) := fun _ _ => List.not_mem_nil
  obtain ⟨hnone, hids⟩ := @checkComponents_complete parts hstated 0 [] hfirst hnodup
  have hitems : arrayItems? entries "components" = some (parts.map Value.object) := by
    unfold arrayItems?
    rw [hcomponents]
  have hitems' : arrayItems? entries "connections" = some wires := by
    unfold arrayItems?
    rw [hconnections]
  have hall : (checkStructure entries).errors = unseenIds wires 0 := by
    unfold checkStructure checkArray
    rw [hitems, hitems']
    dsimp only [Option.getD_some, Option.map_some]
    rw [hids, List.nil_append, errors_append, errors_append, hnone, herrors]
    rfl
  refine ⟨?_, hall, ?_⟩
  · unfold citesIds
    rw [hitems, hitems', Option.getD_some, Option.getD_some, hcites, Bool.and_true, List.all_eq_true]
    intro v hv
    obtain ⟨part, hpart, rfl⟩ := List.mem_map.mp hv
    obtain ⟨c, -, hc⟩ := exists_read_of_mem hparts hv
    exact citesComponent_of_read hc
  · rw [hall, unseenIds_eq_nil]

/-- A number that feeds a sum, by a connection with one end in the oldest spelling. -/
def oldWire : Value := .object [
  ("from", .object [("id", .str "n"), ("paramName", .str "Number")]),
  ("to", .object [("instanceId", .str "sum"), ("name", .str "A")])]

/-- The two components of `oldWire`. -/
def oldParts : List Entries := [
  [("name", .str "Number"), ("componentGuid", .str "3e8ca6be-fda8-4aaf-b5c0-3c54c8bb7312"),
    ("instanceGuid", .str "n")],
  [("name", .str "Addition"), ("componentGuid", .str "a0d62394-a118-422d-abb3-6af115c75b25"),
    ("instanceGuid", .str "sum")]]

/-- The document of `oldParts` and `oldWire`. -/
def oldEntries : Entries := [("components", .list (oldParts.map Value.object)), ("connections", .list [oldWire])]

/-- What is read from `oldEntries`. -/
def oldDocument : Document where
  components := [
    ⟨.str "Number", .str "3e8ca6be-fda8-4aaf-b5c0-3c54c8bb7312", "n", none, false, [], [], [], [], []⟩,
    ⟨.str "Addition", .str "a0d62394-a118-422d-abb3-6af115c75b25", "sum", none, false, [], [], [], [], []⟩]
  connections := [⟨⟨"n", .str "Number"⟩, ⟨"sum", .str "A"⟩⟩]

theorem ofValue_oldEntries : Document.ofValue (.object oldEntries) = .ok oldDocument := rfl

theorem stated_oldParts : ∀ part ∈ oldParts, Stated part :=
  List.forall_mem_cons.mpr ⟨⟨rfl, rfl, rfl, rfl⟩, List.forall_mem_singleton.mpr ⟨rfl, rfl, rfl, rfl⟩⟩

theorem oldDocument_joined : ∀ c ∈ oldDocument.connections, c.isValid = true ∧
    (oldDocument.component? c.source.id).isSome = true ∧ (oldDocument.component? c.target.id).isSome = true :=
  List.forall_mem_singleton.mpr ⟨by decide, rfl, rfl⟩

/-- The oldest spelling is read, and reported. -/
theorem checkStructure_spellings_oldWire :
    Document.ofValue (.object oldEntries) = .ok oldDocument ∧
      (checkStructure oldEntries).errors = ["connections[0].from.instanceId is missing or null."] :=
  ⟨ofValue_oldEntries, (@checkStructure_spellings oldEntries oldParts [oldWire] oldDocument rfl rfl stated_oldParts
    (by decide) ofValue_oldEntries oldDocument_joined).2.1⟩

/-- A document of which everything is read and complete need not be accepted. -/
theorem not_accepts_spellings :
    ¬ ∀ (entries : Entries) (parts : List Entries) (wires : List Value) (d : Document),
      Value.field entries "components" = .list (parts.map Value.object) →
      Value.field entries "connections" = .list wires →
      (∀ part ∈ parts, Stated part) → (parts.map seenId).Nodup →
      Document.ofValue (.object entries) = .ok d →
      (∀ c ∈ d.connections, c.isValid = true ∧ (d.component? c.source.id).isSome = true ∧
        (d.component? c.target.id).isSome = true) →
      (checkStructure entries).errors = [] := by
  intro h
  have hnone := h oldEntries oldParts [oldWire] oldDocument rfl rfl stated_oldParts (by decide)
    ofValue_oldEntries oldDocument_joined
  cases hnone

end Validation

end Patchbay
