import Patchbay.Proofs.Keyed
import Patchbay.Proofs.Result
import Patchbay.Proofs.Text.Cutting
import Patchbay.Proofs.Text.Digits
import Patchbay.Validation.Semantics

/-!
# Parameters that the validator misses

The validator warns of a connection with an end at a parameter that does not exist.  It knows the
parameters from the document alone.

* **`Side.Unlisted`** is what makes a parameter missing in its eyes.
* **`endpointType_found`** — an end is found unless its parameter is unlisted.
* **`checkWires_warnings`** — the warnings are those of each connection, and no others.
* `eq_of_about`, `mayNotConvert_ne_noParameter` — a text tells which connection it is about, and what about it
* **`checkSemantics_warned`** — the report warns of a connection exactly if one of its ends is unlisted.
-/

namespace Patchbay

theorem Report.mem_warnings_when {condition : Bool} {r : Report} {finding : String} :
    finding ∈ (when condition r).warnings ↔ condition = true ∧ finding ∈ r.warnings := by
  cases condition <;> simp [when, none]

/-- The hints of a component are texts, where they are there. -/
def Component.Hinted (c : Component) : Prop :=
  ∀ side : Validation.Side, ∀ s ∈ side.settings c, s.typeHint.truthy = true → ∃ hint, s.typeHint = .str hint

namespace Validation

/-! ## Ends -/

/-- A parameter is not to be found in the document: it is no script's, the type does not declare it, and no
setting of its side has its name, nor a hint under it. -/
structure Side.Unlisted (side : Side) (t : NodeType) (c : Component) (name : String) : Prop where
  noScript : t.kind ≠ .script
  undeclared : side.spec? t name = none
  unnamed : ∀ s ∈ side.settings c, s.name.isText name = false
  unhinted : ∀ s, ((side.settings c).find? fun s => s.name.isText name || s.nickName.isText name) = some s →
    s.typeHint.truthy = false

section Ends

variable {c : Component}

/-- What the declared parameters say, if no hint comes first. -/
theorem exists_declared (types : DataTypes) (c : Component) (t : Option NodeType) (side : Side) (name : String) :
    ∃ e, (match t with
      | none => .ok ⟨none, true⟩
      | some t =>
        match side.spec? t name with
        | some spec => .ok ⟨types.get? spec.typeName, true⟩
        | none => .ok ⟨none, t.kind == .script || (side.settings c).any fun s => s.name.isText name⟩ :
          Except Fault EndpointType) = .ok e ∧
      (e.found = false ↔ ∃ t', t = some t' ∧ t'.kind ≠ .script ∧ side.spec? t' name = none ∧
        ∀ s ∈ side.settings c, s.name.isText name = false) := by
  cases t with
  | none => exact ⟨_, rfl, by simp⟩
  | some t =>
      dsimp only
      cases hspec : side.spec? t name with
      | some spec => exact ⟨_, rfl, by simp [hspec]⟩
      | none => exact ⟨_, rfl, by simp [hspec]⟩

/-- **An end is found, unless its parameter is unlisted.**  An unknown type is given the benefit of the
doubt. -/
theorem endpointType_found (types : DataTypes) (hhints : c.Hinted) (t : Option NodeType) (side : Side)
    (name : String) : ∃ e, endpointType types c t side name = .ok e ∧
      (e.found = false ↔ ∃ t', t = some t' ∧ side.Unlisted t' c name) := by
  obtain ⟨e, he, hfound⟩ := exists_declared types c t side name
  unfold endpointType
  dsimp only
  cases hfind : (side.settings c).find? fun s => s.name.isText name || s.nickName.isText name with
  | none =>
      dsimp only
      refine ⟨e, he, hfound.trans (exists_congr fun t' => and_congr_right fun _ => ?_)⟩
      exact ⟨fun ⟨hkind, hspec, hnames⟩ => ⟨hkind, hspec, hnames, by simp [hfind]⟩,
        fun h => ⟨h.noScript, h.undeclared, h.unnamed⟩⟩
  | some s =>
      cases hhint : s.typeHint.truthy with
      | false =>
          dsimp only
          rw [hhint, if_neg Bool.false_ne_true]
          refine ⟨e, he, hfound.trans (exists_congr fun t' => and_congr_right fun _ => ?_)⟩
          refine ⟨fun ⟨hkind, hspec, hnames⟩ => ⟨hkind, hspec, hnames, fun s' hs' => ?_⟩,
            fun h => ⟨h.noScript, h.undeclared, h.unnamed⟩⟩
          rw [hfind] at hs'
          cases hs'
          exact hhint
      | true =>
          obtain ⟨hint, hvalue⟩ := hhints side s (List.mem_of_find?_eq_some hfind) hhint
          dsimp only
          rw [hhint, if_pos rfl, hvalue]
          refine ⟨⟨types.ofHint hint, true⟩, rfl, ?_⟩
          -- a hint tells of a parameter
          refine ⟨Bool.noConfusion, fun ⟨t', _, hunlisted⟩ => ?_⟩
          rw [hunlisted.unhinted s hfind] at hhint
          cases hhint

end Ends

/-! ## Connections -/

/-- A parameter of a component is unlisted, in view of what is known of the types by the ids. -/
def Side.Missing (side : Side) (known : FoundTypes) (c : Component) (name : String) : Prop :=
  ∃ t, (known.lookup c.id).join = some t ∧ side.Unlisted t c name

section Wires

variable {types : DataTypes} {known : FoundTypes} {d : Document} {c : Connection} {source target : Component}

/-- What is found out about a connection between two components: parameters that are missing, and nothing
else but types that may not convert. -/
theorem checkWire_warnings (types : DataTypes) (known : FoundTypes) (owner : String) (c : Connection)
    (hsource : source.Hinted) (htarget : target.Hinted) :
    ∃ (r : Report) (others : List String), checkWire types known owner c source target = .ok r ∧
      (∀ finding ∈ others, ∃ a b, finding ∈ (mayNotConvert owner source target a b c).warnings) ∧
      ∀ finding, finding ∈ r.warnings ↔
        Side.output.Missing known source c.source.paramName ∧
          finding ∈ (noParameter owner source .output c.source.paramName).warnings ∨
        Side.input.Missing known target c.target.paramName ∧
          finding ∈ (noParameter owner target .input c.target.paramName).warnings ∨ finding ∈ others := by
  obtain ⟨s, hs, hsfound⟩ := endpointType_found types hsource (known.lookup source.id).join .output c.source.paramName
  obtain ⟨t, ht, htfound⟩ := endpointType_found types htarget (known.lookup target.id).join .input c.target.paramName
  -- whatever else is reported is about types
  obtain ⟨others, hreport, hothers⟩ : ∃ others : Report,
      checkWire types known owner c source target = .ok (
        .when (!s.found) (noParameter owner source .output c.source.paramName)
          ++ .when (!t.found) (noParameter owner target .input c.target.paramName) ++ others) ∧
      ∀ finding ∈ others.warnings, ∃ a b, finding ∈ (mayNotConvert owner source target a b c).warnings := by
    unfold checkWire
    rw [hs, ht]
    refine ⟨_, rfl, fun finding hfinding => ?_⟩
    split at hfinding
    · next a b _ _ => exact ⟨a, b, (Report.mem_warnings_when.mp hfinding).2⟩
    · cases hfinding
  refine ⟨_, others.warnings, hreport, hothers, fun finding => ?_⟩
  unfold Side.Missing
  rw [← hsfound, ← htfound]
  simp only [Report.warnings_append, List.mem_append, Report.mem_warnings_when, Bool.not_eq_true', or_assoc]

/-- **The warnings about connections are those about each of them.** -/
theorem checkWires_warnings (types : DataTypes) (known : FoundTypes) (d : Document)
    (hhints : ∀ c ∈ d.components, c.Hinted) (index : Nat) (connections : List Connection) :
    ∃ report, checkWires types known d index connections = .ok report ∧
      ∀ finding, finding ∈ report.warnings ↔ ∃ i c source target r, connections[i]? = some c ∧
        d.component? c.source.id = some source ∧ d.component? c.target.id = some target ∧
        checkWire types known (itemName "connections" (index + i)) c source target = .ok r ∧
        finding ∈ r.warnings := by
  induction connections generalizing index with
  | nil => exact ⟨.none, rfl, fun finding => by simp [Report.none]⟩
  | cons c rest ih =>
      obtain ⟨report, hreport, hfindings⟩ := ih (index + 1)
      -- the first connection may be passed over
      have hfirst : ∃ r, checkWires types known d index (c :: rest) = .ok (r ++ report) ∧
          ∀ finding, finding ∈ r.warnings ↔ ∃ source target r',
            d.component? c.source.id = some source ∧ d.component? c.target.id = some target ∧
            checkWire types known (itemName "connections" index) c source target = .ok r' ∧
            finding ∈ r'.warnings := by
        unfold checkWires
        cases hsource : d.component? c.source.id with
        | none => exact ⟨.none, by rw [hreport]; rfl, fun finding => by simp [Report.none]⟩
        | some source =>
            cases htarget : d.component? c.target.id with
            | none => exact ⟨.none, by rw [hreport]; rfl, fun finding => by simp [Report.none]⟩
            | some target =>
                obtain ⟨r, -, hr, -⟩ := checkWire_warnings types known (itemName "connections" index) c
                  (hhints source (List.mem_of_find?_eq_some hsource)) (hhints target (List.mem_of_find?_eq_some htarget))
                refine ⟨r, ?_, fun finding => by simp [hr]⟩
                dsimp only
                rw [hr, hreport]
                rfl
      obtain ⟨r, hr, hr'⟩ := hfirst
      refine ⟨r ++ report, hr, fun finding => ?_⟩
      rw [Report.warnings_append, List.mem_append, hr', hfindings]
      constructor
      · rintro (⟨source, target, r', h⟩ | ⟨i, c', source, target, r', hc', h⟩)
        · exact ⟨0, c, source, target, r', rfl, h⟩
        · refine ⟨i + 1, c', source, target, r', hc', ?_⟩
          rwa [← Nat.add_assoc, Nat.add_right_comm]
      · rintro ⟨i, c', source, target, r', hc', h⟩
        cases i with
        | zero =>
            cases hc'
            exact .inl ⟨source, target, r', h⟩
        | succ i =>
            rw [← Nat.add_assoc, Nat.add_right_comm] at h
            exact .inr ⟨i, c', source, target, r', hc', h⟩

end Wires

/-! ## Texts -/

/-- The text of a finding starts with what it is about. -/
def About (owner finding : String) : Prop := ∃ words, finding = owner ++ ": " ++ words

theorem about_noParameter {owner finding : String} {c : Component} {side : Side} {name : String}
    (h : finding ∈ (noParameter owner c side name).warnings) : About owner finding := by
  refine ⟨"'" ++ (c.name.text ++ ("' has no " ++ (side.label ++ (" '" ++ (name ++ "'."))))), ?_⟩
  rw [List.mem_singleton.mp h]
  simp [String.append_assoc, ← String.toList_inj]

theorem about_mayNotConvert {owner finding : String} {source target : Component} {a b : DataType} {c : Connection}
    (h : finding ∈ (mayNotConvert owner source target a b c).warnings) : About owner finding := by
  rw [List.mem_singleton.mp h]
  simp only [About, String.append_assoc, String.append_right_inj]
  exact ⟨_, rfl⟩

/-- It is about one item only. -/
theorem eq_of_about {array finding : String} {i j : Nat} (hi : About (itemName array i) finding)
    (hj : About (itemName array j) finding) : i = j := by
  obtain ⟨a, rfl⟩ := hi
  obtain ⟨b, h⟩ := hj
  have hdigits : ∀ (n : Nat) (rest : List Char),
      Text.cut ']' (Text.digitsOfNat n ++ ']' :: rest) = (Text.digitsOfNat n, some rest) := by
    intro n rest
    refine Text.cut_append (fun hmem => ?_) rest
    exact absurd (Text.isAsciiDigit_of_mem_digitsOfNat hmem) (by decide)
  have hchars := congrArg String.toList h
  simp only [itemName, Text.integerText, String.toList_append, String.toList_ofList, List.append_assoc,
    List.append_cancel_left_eq] at hchars
  have hcut := congrArg (fun cs => Text.natOfDigits (Text.cut ']' cs).1) hchars
  change Text.natOfDigits (Text.cut ']' (_ ++ ']' :: _)).1 = Text.natOfDigits (Text.cut ']' (_ ++ ']' :: _)).1 at hcut
  rwa [hdigits, hdigits, Text.natOfDigits_digitsOfNat, Text.natOfDigits_digitsOfNat] at hcut

/-- And what about it: a text about types is longer than any about a parameter of the same connection. -/
theorem mayNotConvert_ne_noParameter {owner finding : String} {source target : Component} {a b : DataType}
    {c : Connection} (h : finding ∈ (mayNotConvert owner source target a b c).warnings) :
    finding ∉ (noParameter owner source .output c.source.paramName).warnings ∧
      finding ∉ (noParameter owner target .input c.target.paramName).warnings := by
  obtain rfl := List.mem_singleton.mp h
  -- the words between the names
  have hlong : "' may not convert to ".length = 21 := by decide
  have hshort : ": '".length + "' has no ".length + "output".length + " '".length = 20 ∧
      "input".length ≤ "output".length := by decide
  constructor <;> intro hmem <;> have hlength := congrArg String.length (List.mem_singleton.mp hmem) <;>
    simp only [String.length_append, Side.label] at hlength <;> omega

section Wire

variable {types : DataTypes} {known : FoundTypes} {owner : String} {c : Connection} {source target : Component}
  {r : Report}

theorem about_checkWire (hsource : source.Hinted) (htarget : target.Hinted)
    (h : checkWire types known owner c source target = .ok r) {finding : String} (hfinding : finding ∈ r.warnings) :
    About owner finding := by
  obtain ⟨r', others, hr', hothers, hfindings⟩ := checkWire_warnings types known owner c hsource htarget
  obtain rfl := Except.ok.inj (h.symm.trans hr')
  rcases (hfindings finding).mp hfinding with ⟨-, hmem⟩ | ⟨-, hmem⟩ | hmem
  · exact about_noParameter hmem
  · exact about_noParameter hmem
  · obtain ⟨a, b, hmem⟩ := hothers finding hmem
    exact about_mayNotConvert hmem

/-- A connection is warned of exactly if a parameter is missing at one of its ends. -/
theorem checkWire_misses (hsource : source.Hinted) (htarget : target.Hinted)
    (h : checkWire types known owner c source target = .ok r) :
    (noParameter owner source .output c.source.paramName).warnings ⊆ r.warnings ∨
        (noParameter owner target .input c.target.paramName).warnings ⊆ r.warnings ↔
      Side.output.Missing known source c.source.paramName ∨ Side.input.Missing known target c.target.paramName := by
  obtain ⟨r', others, hr', hothers, hfindings⟩ := checkWire_warnings types known owner c hsource htarget
  obtain rfl := Except.ok.inj (h.symm.trans hr')
  constructor
  · intro hwarns
    -- whatever is not about types is about a missing parameter
    have hmissing : ∀ finding ∈ r.warnings, finding ∉ others → Side.output.Missing known source c.source.paramName ∨
        Side.input.Missing known target c.target.paramName := by
      intro finding hfinding hother
      rcases (hfindings finding).mp hfinding with ⟨h, -⟩ | ⟨h, -⟩ | h
      · exact .inl h
      · exact .inr h
      · exact absurd h hother
    rcases hwarns with hwarns | hwarns <;>
      refine hmissing _ (hwarns (List.mem_singleton_self _)) fun hother => ?_ <;>
      obtain ⟨a, b, hother⟩ := hothers _ hother
    · exact (mayNotConvert_ne_noParameter hother).1 (List.mem_singleton_self _)
    · exact (mayNotConvert_ne_noParameter hother).2 (List.mem_singleton_self _)
  · rintro (hmissing | hmissing)
    · exact .inl fun finding hmem => (hfindings finding).mpr (.inl ⟨hmissing, hmem⟩)
    · exact .inr fun finding hmem => (hfindings finding).mpr (.inr (.inl ⟨hmissing, hmem⟩))

end Wire

/-! ## Documents -/

/-- The report warns that an end of a connection, told by its index, names a parameter that does not exist. -/
def Warned (d : Document) (report : Report) (index : Nat) : Prop :=
  ∃ c source target, d.connections[index]? = some c ∧ d.component? c.source.id = some source ∧
    d.component? c.target.id = some target ∧
    ((noParameter (itemName "connections" index) source .output c.source.paramName).warnings ⊆ report.warnings ∨
      (noParameter (itemName "connections" index) target .input c.target.paramName).warnings ⊆ report.warnings)

theorem checkTypes_warnings (catalog : Catalog) (index : Nat) (cs : List Component) :
    (checkTypes catalog index cs).warnings = [] := by
  induction cs generalizing index with
  | nil => rfl
  | cons c rest ih =>
      unfold checkTypes
      rw [Report.warnings_append, ih, List.append_nil]
      cases (catalog.findKey? c.typeKey.text).isNone <;> rfl

/-- Among different ids, the type of each is that of its component. -/
theorem missing_foundTypes {catalog : Catalog} {d : Document} (hids : (d.components.map Component.id).Nodup)
    {side : Side} {c : Component} (hc : c ∈ d.components) {t : NodeType}
    (ht : catalog.findKey? c.typeKey.text = some t) {name : String} :
    side.Missing (foundTypes catalog d) c name ↔ side.Unlisted t c name := by
  have hnodup : ((d.components.map fun c =>
      (c.id, (catalog.findKey? c.typeKey.text).or (catalog.findName? c.name.text))).map Prod.fst).Nodup := by
    rw [List.map_map]
    exact hids
  have hlookup : (foundTypes catalog d).lookup c.id = some (some t) := by
    unfold foundTypes
    rw [Keyed.ofList_of_nodup hnodup, Keyed.lookup_eq_some_iff hnodup]
    exact List.mem_map.mpr ⟨c, hc, by rw [ht]; rfl⟩
  unfold Side.Missing
  rw [hlookup]
  simp

/-- **The validator warns of a connection exactly if one of its ends is unlisted.** -/
theorem checkSemantics_warned (types : DataTypes) (catalog : Catalog) {d : Document}
    (hids : (d.components.map Component.id).Nodup) (hhints : ∀ c ∈ d.components, c.Hinted) :
    ∃ report, checkSemantics types catalog d = .ok report ∧
      ∀ index c source target s t, d.connections[index]? = some c → d.component? c.source.id = some source →
        d.component? c.target.id = some target → catalog.findKey? source.typeKey.text = some s →
        catalog.findKey? target.typeKey.text = some t →
        (Warned d report index ↔
          Side.output.Unlisted s source c.source.paramName ∨ Side.input.Unlisted t target c.target.paramName) := by
  have hhinted : ∀ {id : String} {k : Component}, d.component? id = some k → k.Hinted :=
    fun h => hhints _ (List.mem_of_find?_eq_some h)
  obtain ⟨wires, hwires, hfindings⟩ := checkWires_warnings types (foundTypes catalog d) d hhints 0 d.connections
  refine ⟨checkTypes catalog 0 d.components ++ wires, by unfold checkSemantics; rw [hwires]; rfl, ?_⟩
  intro index c source target s t hc hsource htarget hs ht
  obtain ⟨r, -, hr, -⟩ := checkWire_warnings types (foundTypes catalog d) (itemName "connections" index) c
    (hhinted hsource) (hhinted htarget)
  -- a text about this connection comes from this connection
  have hmem : ∀ finding, About (itemName "connections" index) finding →
      (finding ∈ (checkTypes catalog 0 d.components ++ wires).warnings ↔ finding ∈ r.warnings) := by
    intro finding habout
    rw [Report.warnings_append, checkTypes_warnings, List.nil_append, hfindings]
    constructor
    · rintro ⟨i, c', source', target', r', hc', hsource', htarget', hr', hfinding⟩
      rw [Nat.zero_add] at hr'
      obtain rfl := eq_of_about (about_checkWire (hhinted hsource') (hhinted htarget') hr' hfinding) habout
      obtain rfl := Option.some.inj (hc'.symm.trans hc)
      obtain rfl := Option.some.inj (hsource'.symm.trans hsource)
      obtain rfl := Option.some.inj (htarget'.symm.trans htarget)
      obtain rfl := Except.ok.inj (hr'.symm.trans hr)
      exact hfinding
    · intro hfinding
      refine ⟨index, c, source, target, r, hc, hsource, htarget, ?_, hfinding⟩
      rwa [Nat.zero_add]
  have hsubset : ∀ {k : Component} {side : Side} {name : String},
      (noParameter (itemName "connections" index) k side name).warnings ⊆
          (checkTypes catalog 0 d.components ++ wires).warnings ↔
        (noParameter (itemName "connections" index) k side name).warnings ⊆ r.warnings :=
    forall₂_congr fun finding hfinding => hmem finding (about_noParameter hfinding)
  rw [← missing_foundTypes hids (List.mem_of_find?_eq_some hsource) hs,
    ← missing_foundTypes hids (List.mem_of_find?_eq_some htarget) ht,
    ← checkWire_misses (hhinted hsource) (hhinted htarget) hr, ← hsubset, ← hsubset]
  unfold Warned
  simp [hc, hsource, htarget]

end Validation

end Patchbay
