import Mathlib.Tactic.IntervalCases
import Patchbay.Proofs.Rebuild.Validated
import Patchbay.Proofs.Validation.Endpoints

/-!
# Which parameters exist

The validator tells from a document which of its connections name parameters that do not exist; rebuilding
finds it out on the nodes.  They look up names in different ways, and agree wherever the document decides.

* **`Side.Offers`**, **`Side.Lacks`** — the two ways of deciding about a name: both find it, or neither does
* `Graph.Bears.find?_eq_none_iff` — when a node has no parameter that an endpoint may mean, by its labels
* **`Graph.Labels.decided_iff`** — unless it is a script's, a parameter is offered or lacking exactly if the
  validator is right about it.
* **`Work.rebuild_warned`** — if both ends of a connection are offered, or one is lacking, the validator warns of
  it exactly if rebuilding gives it up for want of a parameter.
* `Work.strayDocument_undecided` — in each of the cases that are left they differ: any name means the only
  parameter of a floating one, settings give nick names, and record parameters that there are not; and of
  scripts the validator knows nothing.
-/

namespace Patchbay

open Validation

/-! ## What a document decides -/

namespace Validation.Side

/-- A component has a parameter of a name, and the validator knows.  Its type declares it; or its settings leave
it to a declared parameter as its nick name; or it is a script, and records the name with a setting that lasts;
or the parameter is the only one of its side, and any name means it. -/
inductive Offers (side : Side) (t : NodeType) (c : Component) (name : String) : Prop
  | declared (hscript : t.kind ≠ .script) (hspec : (side.spec? t name).isSome = true)
  | renamed (hscript : t.kind ≠ .script) (l : Label) (hl : l ∈ side.labels t c)
    (hnick : l.nickName.isText name = true) (hlisted : ¬ side.Unlisted t c name)
  | recorded (hscript : t.kind = .script) (s : ParameterSettings)
    (hlasts : s.Lasts (t.language.getD .csharp) (side.specs t) (side.settings c))
    (hname : s.name.isText name = true ∨ (s.nickName.orElse s.name).isText name = true)
  | only (hkind : t.kind = .parameter) (hone : (side.specs t).length = 1) (hlisted : ¬ side.Unlisted t c name)

/-- A component has no parameter of a name, and the validator knows: its settings leave it to no declared
parameter, and it is not the only parameter of a side of a floating one that is meant. -/
structure Lacks (side : Side) (t : NodeType) (c : Component) (name : String) : Prop where
  unlisted : side.Unlisted t c name
  unborne : ∀ l ∈ side.labels t c, l.nickName.isText name = false
  notOnly : t.kind = .parameter → (side.specs t).length ≠ 1

variable {side : Side} {t : NodeType} {c : Component} {name : String}

theorem spec?_eq (side : Side) (t : NodeType) (name : String) :
    side.spec? t name = (side.specs t).find? (·.name == name) := by
  cases side <;> rfl

/-- No settings make up for a name that is not declared. -/
theorem name_of_undeclared (h : side.spec? t name = none) : ∀ l ∈ side.labels t c, l.name.isText name = false := by
  intro l hl
  have hname : l.name ∈ (side.specs t).map fun s => Value.str s.name := by
    rw [← side.map_name_labels t c]
    exact List.mem_map_of_mem hl
  obtain ⟨spec, hspec, heq⟩ := List.mem_map.mp hname
  rw [spec?_eq, List.find?_eq_none] at h
  rw [← heq]
  simpa [Value.isText] using h spec hspec

/-- The validator finds what is offered. -/
theorem Offers.listed (h : side.Offers t c name) : ¬ side.Unlisted t c name := by
  cases h with
  | declared _ hspec =>
      intro hunlisted
      rw [hunlisted.undeclared] at hspec
      cases hspec
  | renamed _ _ _ _ hlisted => exact hlisted
  | recorded hscript => exact fun hunlisted => hunlisted.noScript hscript
  | only _ _ hlisted => exact hlisted

/-- The parameter of a side that an endpoint means. -/
def find? (g : Graph) (n : NodeRef) (name : String) : Side → Option ParamRef
  | input => g.findTarget? n name
  | output => g.findSource? n name

end Validation.Side

/-! ## What a node has -/

theorem Graph.findParam?_eq_none_iff {g : Graph} {params : List ParamRef} {name : String} :
    g.findParam? params name = none ↔
      ∀ p ∈ params, (g.param p).name.isText name = false ∧ (g.param p).nickName.isText name = false := by
  unfold findParam?
  split
  · next p hp =>
    have hname := List.find?_some hp
    refine ⟨fun h => absurd h (Option.some_ne_none p), fun h => ?_⟩
    rw [(h p (List.mem_of_find?_eq_some hp)).1] at hname
    cases hname
  · next hnone =>
    rw [List.find?_eq_none] at hnone ⊢
    simp only [Bool.not_eq_true] at hnone ⊢
    exact ⟨fun h p hp => ⟨hnone p hp, h p hp⟩, fun h p hp => (h p hp).2⟩

theorem Graph.onlyParam?_eq_none_iff {v : Node} {params : List ParamRef} :
    onlyParam? v params = none ↔ (v.actsAs .parameter = true → params.length ≠ 1) := by
  unfold onlyParam?
  split
  · cases v.actsAs .parameter <;> simp
  · next hlength =>
    refine ⟨fun _ _ hone => ?_, fun _ => rfl⟩
    obtain ⟨p, hp⟩ := List.length_eq_one_iff.mp hone
    exact hlength p hp

/-- A node has no parameter for a name: none goes by it, and it is not one where any name will do. -/
theorem Validation.Side.find?_eq_none_iff {side : Side} {g : Graph} {n : NodeRef} {name : String} :
    side.find? g n name = none ↔ (∀ p ∈ side.params (g.node n), (g.param p).name.isText name = false ∧
        (g.param p).nickName.isText name = false) ∧
      ((g.node n).actsAs .parameter = true → (side.params (g.node n)).length ≠ 1) := by
  cases side
  all_goals
    rw [← Graph.findParam?_eq_none_iff, ← Graph.onlyParam?_eq_none_iff, ← Option.or_eq_none_iff]
    exact Iff.rfl

namespace Graph

variable {g : Graph} {n : NodeRef} {t : NodeType} {c : Component} {side : Side} {name : String}

/-- The declared parameters of a node, in terms of their labels. -/
theorem Bears.find?_eq_none_iff (h : g.Bears (side.params (g.node n)) (side.labels t c)) :
    side.find? g n name = none ↔
      (∀ l ∈ side.labels t c, l.name.isText name = false ∧ l.nickName.isText name = false) ∧
        ((g.node n).actsAs .parameter = true → (side.specs t).length ≠ 1) := by
  have hlength : (side.params (g.node n)).length = (side.specs t).length := by
    have hnames := congrArg List.length (side.map_name_labels t c)
    rwa [← h.labels, List.map_map, List.length_map, List.length_map] at hnames
  rw [Side.find?_eq_none_iff, hlength, ← h.labels, List.forall_mem_map]
  exact Iff.rfl

/-- A node that was made for a component has what the component offers … -/
theorem Labels.find?_of_offers (h : g.Labels n t c) (ho : side.Offers t c name) :
    side.find? g n name ≠ none := by
  intro hnone
  cases ho with
  | declared hscript hspec =>
      rw [((h.shows hscript).side side).find?_eq_none_iff] at hnone
      rw [Side.spec?_eq] at hspec
      obtain ⟨spec, hspec⟩ := Option.isSome_iff_exists.mp hspec
      have hmem : Value.str spec.name ∈ (side.labels t c).map Label.name := by
        rw [side.map_name_labels]
        exact List.mem_map.mpr ⟨spec, List.mem_of_find?_eq_some hspec, rfl⟩
      obtain ⟨l, hl, hname⟩ := List.mem_map.mp hmem
      have hno := (hnone.1 l hl).1
      rw [hname] at hno
      exact absurd (List.find?_some hspec) (by simpa [Value.isText] using hno)
  | renamed hscript l hl hnick _ =>
      rw [((h.shows hscript).side side).find?_eq_none_iff] at hnone
      exact absurd hnick (by simp [(hnone.1 l hl).2])
  | recorded hscript s hlasts hname =>
      rw [Side.find?_eq_none_iff] at hnone
      obtain ⟨p, hp, hfollows⟩ := (h.transcribes hscript).side side s hlasts
      have hno := hnone.1 p hp
      rw [hfollows.name, hfollows.nickName] at hno
      rcases hname with hname | hname
      · exact absurd hname (by simp [hno.1])
      · exact absurd hname (by simp [hno.2])
  | only hkind hone _ =>
      rw [((h.shows (by simp [hkind])).side side).find?_eq_none_iff] at hnone
      exact hnone.2 (h.floats.mpr hkind) hone

/-- … and nothing that it lacks. -/
theorem Labels.find?_of_lacks (h : g.Labels n t c) (hl : side.Lacks t c name) : side.find? g n name = none := by
  rw [((h.shows hl.unlisted.noScript).side side).find?_eq_none_iff]
  exact ⟨fun l hmem => ⟨Side.name_of_undeclared hl.unlisted.undeclared l hmem, hl.unborne l hmem⟩,
    fun hacts => hl.notOnly (h.floats.mp hacts)⟩

/-- Unless it is a script's, a parameter is offered or lacking exactly if the validator is right about it. -/
theorem Labels.decided_iff (h : g.Labels n t c) (hscript : t.kind ≠ .script) :
    side.Offers t c name ∨ side.Lacks t c name ↔ (side.Unlisted t c name ↔ side.find? g n name = none) := by
  constructor
  · rintro (hoffers | hlacks)
    · exact iff_of_false hoffers.listed (h.find?_of_offers hoffers)
    · exact iff_of_true hlacks.unlisted (h.find?_of_lacks hlacks)
  · intro hagree
    rw [((h.shows hscript).side side).find?_eq_none_iff, h.floats] at hagree
    by_cases hunlisted : side.Unlisted t c name
    · obtain ⟨hlabels, hone⟩ := hagree.mp hunlisted
      exact .inr ⟨hunlisted, fun l hl => (hlabels l hl).2, hone⟩
    · refine .inl ?_
      by_cases hspec : (side.spec? t name).isSome = true
      · exact .declared hscript hspec
      by_cases hnick : ∃ l ∈ side.labels t c, l.nickName.isText name = true
      · obtain ⟨l, hl, hnick⟩ := hnick
        exact .renamed hscript l hl hnick hunlisted
      by_cases hone : t.kind = .parameter ∧ (side.specs t).length = 1
      · exact .only hone.1 hone.2 hunlisted
      -- nothing is left that the node could have found
      refine absurd (hagree.mpr ⟨fun l hl => ⟨?_, ?_⟩, fun hkind hlength => hone ⟨hkind, hlength⟩⟩) hunlisted
      · exact Side.name_of_undeclared (Option.not_isSome_iff_eq_none.mp hspec) l hl
      · exact Bool.eq_false_iff.mpr fun htrue => hnick ⟨l, hl, htrue⟩

end Graph

/-! ## The agreement -/

/-- The document decides about a connection: both of its parameters are offered, or one of them is lacking. -/
def Document.Decides (d : Document) (catalog : Catalog) (c : Connection) : Prop :=
  ∃ source target s t, d.component? c.source.id = some source ∧ d.component? c.target.id = some target ∧
    catalog.findKey? source.typeKey.text = some s ∧ catalog.findKey? target.typeKey.text = some t ∧
    (Side.output.Offers s source c.source.paramName ∧ Side.input.Offers t target c.target.paramName ∨
      Side.output.Lacks s source c.source.paramName ∨ Side.input.Lacks t target c.target.paramName)

/-- The components of a connection were placed, and one of its ends names a parameter that its node does not
have. -/
def Connection.Unmet (c : Connection) (g : Graph) (nodes : List (String × NodeRef)) : Prop :=
  ∃ source target, nodes.lookup c.source.id = some source ∧ nodes.lookup c.target.id = some target ∧
    (g.findSource? source c.source.paramName = none ∨ g.findTarget? target c.target.paramName = none)

theorem Connection.Unmet.ends?_eq_none {c : Connection} {g : Graph} {nodes : List (String × NodeRef)}
    (h : c.Unmet g nodes) : c.ends? g nodes = none := by
  obtain ⟨source, target, hsource, htarget, hmissing⟩ := h
  rw [Option.eq_none_iff_forall_not_mem]
  rintro ⟨s, t⟩ hmem
  obtain ⟨-, -, source', target', hsource', htarget', hs, ht⟩ := ends?_eq_some_iff.mp hmem
  obtain rfl := Option.some.inj (hsource.symm.trans hsource')
  obtain rfl := Option.some.inj (htarget.symm.trans htarget')
  rw [hs, ht] at hmissing
  rcases hmissing with h | h <;> cases h

namespace Work

open Procedure

/-- **The validator and rebuilding agree on which parameters exist.**  In a document with different ids, whose
components all have known keys, consider a complete connection that the document decides about.  The validator
warns of it exactly if rebuilding gives it up because one of the parameters does not exist. -/
theorem rebuild_warned (types : DataTypes) {catalog : Catalog} {d : Document}
    (hids : (d.components.map Component.id).Nodup)
    (hkeys : ∀ c ∈ d.components, c.typeKey.text ≠ "" ∧ (catalog.findKey? c.typeKey.text).isSome = true)
    (htyped : ∀ c ∈ d.components, c.TypedFor catalog) (hhints : ∀ c ∈ d.components, c.Hinted) :
    ∃ report, checkSemantics types catalog d = .ok report ∧ ∀ g : Graph, g.Live → g.ids.FreshFor d.usedIds →
      (rebuild ⟨catalog, .live, .full, .standard⟩ d).Succeeds g fun r g' =>
        r.dropped = d.connections.countP (fun c => (c.ends? g' r.nodes).isNone) ∧
        ∀ index c, d.connections[index]? = some c → c.isValid = true → d.Decides catalog c →
          (Warned d report index ↔ c.Unmet g' r.nodes) ∧ (c.Unmet g' r.nodes ↔ c.ends? g' r.nodes = none) := by
  obtain ⟨report, hreport, hwarned⟩ := checkSemantics_warned types catalog hids hhints
  refine ⟨report, hreport, fun g hlive hfresh => ?_⟩
  refine (rebuild_follows catalog hlive htyped hids hfresh).mono fun r g' hfollows => ⟨hfollows.dropped, ?_⟩
  rintro index c hc hvalid ⟨source, target, s, t, hsource, htarget, hs, ht, hdecides⟩
  -- a component is placed, and its node has its labels
  have hplaced : ∀ {id : String} {k : Component} {t : NodeType}, d.component? id = some k →
      catalog.findKey? k.typeKey.text = some t → ∃ n, r.nodes.lookup id = some n ∧ g'.Labels n t k := by
    intro id k t hk ht
    have hmem := List.mem_of_find?_eq_some hk
    have hid : k.id = id := by simpa using List.find?_some hk
    have htype := type?_eq_some (hkeys k hmem).1 ht
    obtain ⟨n, hn⟩ := hfollows.placed k hmem (by rw [htype]; rfl)
    exact ⟨n, hid ▸ hn, hfollows.labelled k hmem t htype n hn⟩
  obtain ⟨n, hn, hsourceLabels⟩ := hplaced hsource hs
  obtain ⟨m, hm, htargetLabels⟩ := hplaced htarget ht
  have hunmet : c.Unmet g' r.nodes ↔
      Side.output.find? g' n c.source.paramName = none ∨ Side.input.find? g' m c.target.paramName = none := by
    unfold Connection.Unmet
    simp only [hn, hm, Option.some.injEq, exists_and_left, exists_eq_left', Side.find?]
  refine ⟨?_, fun h => h.ends?_eq_none, fun hnone => ?_⟩
  · rw [hwarned index c source target s t hc hsource htarget hs ht, hunmet]
    rcases hdecides with ⟨hoffers, hoffers'⟩ | hlacks | hlacks
    · exact iff_of_false (not_or.mpr ⟨hoffers.listed, hoffers'.listed⟩)
        (not_or.mpr ⟨hsourceLabels.find?_of_offers hoffers, htargetLabels.find?_of_offers hoffers'⟩)
    · exact iff_of_true (.inl hlacks.unlisted) (.inl (hsourceLabels.find?_of_lacks hlacks))
    · exact iff_of_true (.inr hlacks.unlisted) (.inr (htargetLabels.find?_of_lacks hlacks))
  · have hnamed : c.source.name.truthy = true ∧ c.target.name.truthy = true := by
      simp only [Connection.isValid, Endpoint.isValid, Bool.and_eq_true] at hvalid
      exact ⟨hvalid.1.2, hvalid.2.2⟩
    exact ⟨n, m, hn, hm, Connection.missing_of_ends?_eq_none hnamed hn hm hnone⟩

/-- A catalog of numbers, their addition, and scripts. -/
def strayTypes : Catalog :=
  [Catalog.floatingType "number" "Number",
    Catalog.plainType "addition" "Addition" "Maths" [.item "A" "Number" true, .item "B" "Number" true]
      [.item "Result" "Number" false],
    Catalog.scriptType "script" "Script" .python].foldl (fun c t => (c.register t).value) .empty

/-- A component of a type, with settings of its inputs. -/
def strayComponent (key id : String) (inputs : List ParameterSettings) : Component where
  name := .str key
  typeKey := .str key
  id := id
  pivot := none
  selected := false
  properties := []
  inputs := inputs
  outputs := []
  warnings := []
  errors := []

/-- A number feeds an addition and a script under names of several kinds: a name that no type declares, a nick
name, a name that is recorded and not declared, an input of the script that is not recorded, a name that is
nowhere else, and a declared one. -/
def strayDocument : Document where
  components :=
    [strayComponent "number" "n" [],
      strayComponent "addition" "sum" [{ ParameterSettings.named (.str "B") with nickName := .str "addend" },
        .named (.str "C")],
      strayComponent "script" "script" []]
  connections :=
    [⟨⟨"n", .str "Value"⟩, ⟨"sum", .str "A"⟩⟩,
      ⟨⟨"n", .str "Number"⟩, ⟨"sum", .str "addend"⟩⟩,
      ⟨⟨"n", .str "Number"⟩, ⟨"sum", .str "C"⟩⟩,
      ⟨⟨"n", .str "Number"⟩, ⟨"script", .str "x"⟩⟩,
      ⟨⟨"n", .str "Number"⟩, ⟨"sum", .str "D"⟩⟩,
      ⟨⟨"n", .str "Number"⟩, ⟨"sum", .str "A"⟩⟩]

theorem strayDocument_plain : ∀ c ∈ strayDocument.components, c.Typed ∧ c.Hinted := by
  have hsettings : ∀ c ∈ strayDocument.components, ∀ s ∈ c.inputs, s.Typed ∧ s.typeHint = .null := by
    intro c hc s hs
    simp only [strayDocument, List.mem_cons, List.not_mem_nil, or_false] at hc
    rcases hc with rfl | rfl | rfl
    · cases hs
    · simp only [strayComponent, List.mem_cons, List.not_mem_nil, or_false] at hs
      rcases hs with rfl | rfl
      · exact ⟨⟨⟨"B", rfl⟩, .inl rfl, .inl rfl⟩, rfl⟩
      · exact ⟨⟨⟨"C", rfl⟩, .inl rfl, .inl rfl⟩, rfl⟩
    · cases hs
  have houtputs : ∀ c ∈ strayDocument.components, c.outputs = [] := by decide
  intro c hc
  refine ⟨⟨fun s hs => (hsettings c hc s hs).1, fun s hs => ?_⟩, fun side s hs htruthy => ?_⟩
  · rw [houtputs c hc] at hs
    cases hs
  · cases side with
    | input =>
        rw [(hsettings c hc s hs).2] at htruthy
        cases htruthy
    | output =>
        change s ∈ c.outputs at hs
        rw [houtputs c hc] at hs
        cases hs

/-- The last two connections: the addition lacks the one input, and offers the other. -/
theorem rebuild_warned_stray :
    ∃ report, checkSemantics .standard strayTypes strayDocument = .ok report ∧
      (rebuild ⟨strayTypes, .live, .full, .standard⟩ strayDocument).Succeeds occupied fun r g' =>
        (Warned strayDocument report 4 ↔
          Connection.Unmet ⟨⟨"n", .str "Number"⟩, ⟨"sum", .str "D"⟩⟩ g' r.nodes) ∧
        (Warned strayDocument report 5 ↔
          Connection.Unmet ⟨⟨"n", .str "Number"⟩, ⟨"sum", .str "A"⟩⟩ g' r.nodes) := by
  have hids : (strayDocument.components.map Component.id).Nodup := by decide
  have hkeys : ∀ c ∈ strayDocument.components, c.typeKey.text ≠ "" ∧
      (strayTypes.findKey? c.typeKey.text).isSome = true := by decide
  obtain ⟨report, hreport, hrebuild⟩ := rebuild_warned .standard hids hkeys
    (fun c hc => (strayDocument_plain c hc).1.typedFor _) fun c hc => (strayDocument_plain c hc).2
  refine ⟨report, hreport, (hrebuild occupied occupied_live (occupied_freshFor (by decide))).mono fun r g' h => ?_⟩
  constructor
  · refine (h.2 4 _ rfl (by decide) ⟨_, _, _, _, rfl, rfl, rfl, rfl, .inr (.inr ?_)⟩).1
    exact ⟨⟨by decide, by decide, by decide, fun s hs => nomatch hs⟩, by decide, by decide⟩
  · refine (h.2 5 _ rfl (by decide) ⟨_, _, _, _, rfl, rfl, rfl, rfl, .inl ⟨?_, ?_⟩⟩).1
    · exact .declared (by decide) (by decide)
    · exact .declared (by decide) (by decide)

/-- Where the document leaves a name open, they differ.  The validator warns of a name that only a floating
parameter answers to and of a nick name, and these connections are made; it does not warn of a parameter that
is recorded only and of a script's, and these are given up. -/
theorem strayDocument_undecided :
    (strayDocument.components.map Component.id).Nodup ∧
    (∀ c ∈ strayDocument.components, (strayTypes.findKey? c.typeKey.text).isSome = true) ∧
    (∀ c ∈ strayDocument.connections, c.isValid = true) ∧
    ∃ report, checkSemantics .standard strayTypes strayDocument = .ok report ∧
      Warned strayDocument report 0 ∧ Warned strayDocument report 1 ∧
      ¬ Warned strayDocument report 2 ∧ ¬ Warned strayDocument report 3 ∧
      (rebuild ⟨strayTypes, .live, .full, .standard⟩ strayDocument).Succeeds occupied fun r g' =>
        (∀ index < 2, ∀ c, strayDocument.connections[index]? = some c → ¬ c.Unmet g' r.nodes) ∧
        ∀ index, 2 ≤ index → index < 4 → ∀ c, strayDocument.connections[index]? = some c → c.Unmet g' r.nodes := by
  refine ⟨by decide, by decide, by decide, ?_⟩
  obtain ⟨report, hreport, hwarned⟩ := checkSemantics_warned .standard strayTypes (d := strayDocument) (by decide)
    fun c hc => (strayDocument_plain c hc).2
  refine ⟨report, hreport, ?_, ?_, ?_, ?_, ?_⟩
  · refine (hwarned 0 _ _ _ _ _ rfl rfl rfl rfl rfl).mpr (.inl ⟨by decide, by decide, by decide, ?_⟩)
    exact fun s hs => nomatch hs
  · refine (hwarned 1 _ _ _ _ _ rfl rfl rfl rfl rfl).mpr (.inr ⟨by decide, by decide, by decide, ?_⟩)
    intro s hs
    cases hs
    rfl
  · rw [hwarned 2 _ _ _ _ _ rfl rfl rfl rfl rfl]
    rintro (h | h)
    · exact absurd h.undeclared (by decide)
    · exact absurd (h.unnamed (.named (.str "C")) (by simp [strayComponent, Side.settings])) (by decide)
  · rw [hwarned 3 _ _ _ _ _ rfl rfl rfl rfl rfl]
    rintro (h | h)
    · exact absurd h.undeclared (by decide)
    · exact h.noScript rfl
  · have hmeans : (((rebuild ⟨strayTypes, .live, .full, .standard⟩ strayDocument).result occupied).1.toOption.map
        fun r => strayDocument.connections.map fun c => (c.ends?
          ((rebuild ⟨strayTypes, .live, .full, .standard⟩ strayDocument).result occupied).2 r.nodes).isSome) =
        some [true, true, false, false, false, true] := by decide +kernel
    obtain ⟨r, g', hresult, hfollows⟩ := rebuild_follows strayTypes occupied_live
      (fun c hc => (strayDocument_plain c hc).1.typedFor _) (by decide) (occupied_freshFor (by decide))
    rw [hresult] at hmeans
    -- which of the connections mean something
    have hends : ∀ index < 4, ∀ c, strayDocument.connections[index]? = some c →
        (c.ends? g' r.nodes).isSome = decide (index < 2) := by
      intro index hlt c hc
      have hget := congrArg (·[index]?) (Option.some.inj hmeans)
      rw [List.getElem?_map, hc] at hget
      interval_cases index <;> exact Option.some.inj hget
    have hplaced : ∀ id ∈ strayDocument.components.map Component.id, ∃ n, r.nodes.lookup id = some n := by
      intro id hid
      obtain ⟨c, hc, rfl⟩ := List.mem_map.mp hid
      refine hfollows.placed c hc ?_
      revert c
      decide
    refine ⟨r, g', hresult, fun index hlt c hc hunmet => ?_, fun index hle hlt c hc => ?_⟩
    · have hsome := hends index (Nat.lt_of_lt_of_le hlt (by decide)) c hc
      rw [hunmet.ends?_eq_none, decide_eq_true hlt] at hsome
      cases hsome
    · have hmem := List.mem_of_getElem? hc
      have hnamed : ∀ c ∈ strayDocument.connections, (c.source.id ∈ strayDocument.components.map Component.id ∧
          c.target.id ∈ strayDocument.components.map Component.id) ∧
          c.source.name.truthy = true ∧ c.target.name.truthy = true := by decide
      obtain ⟨⟨hsource, htarget⟩, hnames⟩ := hnamed c hmem
      obtain ⟨n, hn⟩ := hplaced _ hsource
      obtain ⟨m, hm⟩ := hplaced _ htarget
      have hnone := hends index hlt c hc
      rw [decide_eq_false (Nat.not_lt_of_le hle), Option.isSome_eq_false_iff, Option.isNone_iff_eq_none] at hnone
      exact ⟨n, m, hn, hm, Connection.missing_of_ends?_eq_none hnames hn hm hnone⟩

end Work

end Patchbay
