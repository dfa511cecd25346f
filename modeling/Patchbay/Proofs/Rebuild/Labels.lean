import Patchbay.Proofs.Rebuild.Placing

/-!
# The names on a node

An endpoint finds its parameter by a name.  Which names there are on a new node is decided by its type and
by the settings of its component, and here is how.

* **`Side.labels`** — what becomes of the declared parameters of any node but a script: the settings are
  applied in order, and each may give a nick name to the parameter that it finds.  `Graph.Bears` says that
  parameters have some labels, and a setting does the same to both (`Graph.Bears.adopt_of_some`).
* **`Graph.Records`** — what becomes of a script: each of its settings has a parameter of its names, unless
  a later one is for the same declared variable (`ParameterSettings.Lasts`).  A setting changes one parameter
  and leaves the others alone (`Graph.Assigns`), and so it takes the names of no lasting setting away.
* **`Graph.Labels`** — either of them, by the kind of the type.  It does not depend on the place and the wires
  of a node (`Graph.Labels.congr`).
-/

namespace Patchbay

open Validation (Side)

/-! ## Sides -/

namespace Validation.Side

theorem params_congr (side : Side) {n : NodeRef} {g g' : Graph} (h : g.SameSides n g') :
    side.params (g'.node n) = side.params (g.node n) := by
  cases side
  · exact h.inputs
  · exact h.outputs

end Validation.Side

/-! ## Labels of declared parameters -/

/-- The names that an endpoint may call a parameter by. -/
structure Label where
  name : Value
  nickName : Value

def Parameter.label (p : Parameter) : Label := ⟨p.name, p.nickName⟩

/-- A new parameter goes by its name alone. -/
def ParameterSpec.label (s : ParameterSpec) : Label := ⟨.str s.name, .str s.name⟩

namespace Label

/-- Where a name is found among some labels.  The names come before the nick names. -/
def find? (labels : List Label) (name : String) : Option Nat :=
  (labels.findIdx? fun l => l.name.isText name).or (labels.findIdx? fun l => l.nickName.isText name)

/-- A setting gives its nick name, if it has one, to the label that is found under its name. -/
def adopt (labels : List Label) (s : ParameterSettings) : List Label :=
  match find? labels s.name.text with
  | some i => labels.modify i fun l => { l with nickName := s.nickName.orElse l.nickName }
  | none => labels

theorem map_name_adopt (labels : List Label) (s : ParameterSettings) :
    (adopt labels s).map name = labels.map name := by
  unfold adopt
  split
  · refine List.ext_getElem? fun i => ?_
    simp only [List.getElem?_map, List.getElem?_modify]
    cases labels[i]? with
    | none => rfl
    | some l =>
        simp only [Option.map_eq_map, Option.map_some, Option.some.injEq]
        split <;> rfl
  · rfl

end Label

namespace Validation.Side

/-- The labels of the declared parameters of a side, once a component's settings were applied in order. -/
def labels (side : Side) (t : NodeType) (c : Component) : List Label :=
  (side.settings c).foldl Label.adopt ((side.specs t).map (·.label))

/-- Settings change no names. -/
theorem map_name_labels (side : Side) (t : NodeType) (c : Component) :
    (side.labels t c).map Label.name = (side.specs t).map fun s => .str s.name := by
  refine List.foldlRecOn (motive := fun labels : List Label => labels.map Label.name = _) _ _ ?_
    fun labels h s _ => (Label.map_name_adopt labels s).trans h
  rw [List.map_map]
  rfl

end Validation.Side

/-- Some parameters have these labels, in this order. -/
structure Graph.Bears (g : Graph) (params : List ParamRef) (labels : List Label) : Prop where
  distinct : params.Nodup
  labels : params.map (fun p => (g.param p).label) = labels

namespace Graph.Bears

variable {g g' : Graph} {params : List ParamRef} {labels : List Label}

theorem congr (h : g.Bears params labels) (hparams : ∀ p ∈ params, (g'.param p).label = (g.param p).label) :
    g'.Bears params labels :=
  ⟨h.distinct, (List.map_congr_left hparams).trans h.labels⟩

/-- A parameter is looked up among its labels. -/
theorem findParam?_eq (h : g.Bears params labels) (name : String) :
    g.findParam? params name = (Label.find? labels name).bind (params[·]?) := by
  have hfind : ∀ test : Label → Bool, (params.find? fun p => test (g.param p).label) =
      (labels.findIdx? test).bind (params[·]?) := by
    intro test
    rw [List.find?_eq_bind_findIdx?_getElem?, ← h.labels, List.findIdx?_map]
    rfl
  have hnames : (params.find? fun p => (g.param p).name.isText name) = _ := hfind fun l => l.name.isText name
  have hnicks : (params.find? fun p => (g.param p).nickName.isText name) = _ := hfind fun l => l.nickName.isText name
  unfold findParam? Label.find?
  rw [hnames, hnicks]
  cases hindex : labels.findIdx? fun l => l.name.isText name with
  | none => rfl
  | some i =>
      have hlt : i < params.length := by
        rw [← List.length_map (f := fun p => (g.param p).label), h.labels]
        exact (List.findIdx?_eq_some_iff_getElem.mp hindex).1
      rw [Option.bind_some, Option.some_or, Option.bind_some, List.getElem?_eq_getElem hlt]

/-- Settings that find no parameter change no labels … -/
theorem adopt_of_none (h : g.Bears params labels) {s : ParameterSettings}
    (hfind : g.findParam? params s.name.text = none) : g.Bears params (Label.adopt labels s) := by
  rw [h.findParam?_eq] at hfind
  unfold Label.adopt
  split
  · next i hi =>
    rw [hi, Option.bind_some, List.getElem?_eq_none_iff] at hfind
    rwa [List.modify_eq_self]
    rwa [← h.labels, List.length_map]
  · exact h

/-- … and those that find one change the label of that one. -/
theorem adopt_of_some (h : g.Bears params labels) (hrange : ∀ p ∈ params, p.index < g.params.length)
    {s : ParameterSettings} {p : ParamRef} (hfind : g.findParam? params s.name.text = some p) :
    (g.updateParam p fun v => v.applySettings s).Bears params (Label.adopt labels s) := by
  refine ⟨h.distinct, ?_⟩
  have hparam := param_updateParam (fun v => v.applySettings s) (hrange p (mem_of_findParam? hfind))
  rw [h.findParam?_eq, Option.bind_eq_some_iff] at hfind
  obtain ⟨i, hi, hp⟩ := hfind
  unfold Label.adopt
  rw [hi]
  refine List.ext_getElem? fun j => ?_
  rw [List.getElem?_modify, ← h.labels, List.getElem?_map, List.getElem?_map]
  cases hj : params[j]? with
  | none => rfl
  | some q =>
      -- it is the parameter at the index
      have hq : q = p ↔ i = j := by
        rw [← List.getElem?_inj (List.getElem?_eq_some_iff.mp hp).1 h.distinct, hp, hj, Option.some.injEq, eq_comm]
      simp only [Option.map_eq_map, Option.map_some, Option.some.injEq]
      rw [hparam]
      by_cases hij : i = j
      · rw [if_pos hij, if_pos (hq.mpr hij), hq.mpr hij]
        rfl
      · rw [if_neg hij, if_neg (mt hq.mp hij)]

/-- A parameter that is not among them does not matter. -/
theorem updateParam_aside (h : g.Bears params labels) {p : ParamRef} (hp : p ∉ params) (f : Parameter → Parameter) :
    (g.updateParam p f).Bears params labels := by
  refine h.congr fun q hq => ?_
  have hne : q ≠ p := fun heq => hp (heq ▸ hq)
  rw [updateParam, param_setParam_of_ne g _ hne]

end Graph.Bears

/-- The two sides of a node have these labels. -/
structure Graph.Shows (g : Graph) (n : NodeRef) (inputs outputs : List Label) : Prop where
  inputs : g.Bears (g.node n).inputs inputs
  outputs : g.Bears (g.node n).outputs outputs

theorem Graph.Shows.sameSides {g g' : Graph} {n : NodeRef} {inputs outputs : List Label}
    (h : g.Shows n inputs outputs) (hsides : g.SameSides n g') : g'.Shows n inputs outputs := by
  have hlabels : ∀ p, (g'.param p).label = (g.param p).label := fun p => by rw [hsides.param]
  constructor
  · rw [hsides.inputs]
    exact h.inputs.congr fun p _ => hlabels p
  · rw [hsides.outputs]
    exact h.outputs.congr fun p _ => hlabels p

theorem Graph.Shows.side {g : Graph} {n : NodeRef} {t : NodeType} {c : Component}
    (h : g.Shows n (Side.input.labels t c) (Side.output.labels t c)) (side : Side) :
    g.Bears (side.params (g.node n)) (side.labels t c) := by
  cases side
  · exact h.inputs
  · exact h.outputs

/-- The parameters of a new node are the declared ones. -/
theorem Graph.map_param_make (g : Graph) (t : NodeType) (side : Side) :
    (side.params ((g.make t).2.node (g.make t).1)).map (g.make t).2.param =
      (side.specs t).map (.ofSpec · (.node (g.make t).1)) := by
  rw [node_make]
  cases side with
  | input =>
      have hparams := map_param_handles (g.params_make t)
      rwa [List.length_map] at hparams
  | output =>
      have hlast : (g.make t).2.params = (g.params ++ t.inputs.map (.ofSpec · (.node (g.make t).1))) ++
          (t.outputs.map (.ofSpec · (.node (g.make t).1)) ++ []) := by
        rw [List.append_nil, List.append_assoc]
        exact g.params_make t
      have hparams := map_param_handles hlast
      rwa [List.length_append, List.length_map, List.length_map] at hparams

theorem Graph.shows_make (g : Graph) (t : NodeType) :
    (g.make t).2.Shows (g.make t).1 (t.inputs.map (·.label)) (t.outputs.map (·.label)) := by
  have hlabels : ∀ side : Side, ((side.params ((g.make t).2.node (g.make t).1)).map
      fun p => ((g.make t).2.param p).label) = (side.specs t).map (·.label) := by
    intro side
    have hmade := congrArg (List.map Parameter.label) (g.map_param_make t side)
    rwa [List.map_map, List.map_map] at hmade
  refine ⟨⟨?_, hlabels .input⟩, ⟨?_, hlabels .output⟩⟩ <;> rw [node_make] <;> exact nodup_handles _ _

/-! ## Labels of recorded parameters -/

namespace Language

theorem sameVariable_trans {language : Language} {a b c : String} (hab : language.sameVariable a b = true)
    (hbc : language.sameVariable b c = true) : language.sameVariable a c = true := by
  cases language <;> simp only [sameVariable, beq_iff_eq] at hab hbc ⊢ <;> exact hab.trans hbc

theorem sameVariable_self (language : Language) (a : String) : language.sameVariable a a = true := by
  cases language <;> simp [sameVariable]

/-- A setting is for a variable. -/
def Denotes (language : Language) (s : ParameterSettings) (variableName : String) : Prop :=
  ∃ v, language.sanitizeValue s.effectiveVariable = .ok (.str v) ∧ language.sameVariable variableName v = true

end Language

/-- The setting is one of these, and the parameter that it goes to is not overwritten by a later one.  This
happens to declared parameters only, since a variable that is not declared gets a new parameter every time. -/
def ParameterSettings.Lasts (s : ParameterSettings) (language : Language) (declared : List ParameterSpec)
    (settings : List ParameterSettings) : Prop :=
  ∃ before after, settings = before ++ s :: after ∧ ∀ s' ∈ after, ∀ spec ∈ declared,
    language.Denotes s spec.name → ¬ language.Denotes s' spec.name

theorem ParameterSettings.Lasts.of_concat {s s' : ParameterSettings} {language : Language}
    {declared : List ParameterSpec} {settings : List ParameterSettings}
    (h : s.Lasts language declared (settings ++ [s'])) : s = s' ∨ s.Lasts language declared settings ∧
      ∀ spec ∈ declared, language.Denotes s spec.name → ¬ language.Denotes s' spec.name := by
  obtain ⟨before, after, heq, hafter⟩ := h
  rcases after.eq_nil_or_concat with rfl | ⟨after, last, rfl⟩
  · exact .inl (List.singleton_inj.mp (List.append_inj_right' heq rfl)).symm
  · rw [List.concat_eq_append, ← List.cons_append, ← List.append_assoc] at heq
    have hlast : s' = last := by simpa using List.append_inj_right' heq rfl
    refine .inr ⟨⟨before, after, List.append_inj_left' heq rfl, fun t ht => hafter t (by simp [ht])⟩, ?_⟩
    exact hlast ▸ hafter last (by simp)

/-- A parameter of a script has the names and the variable of a setting. -/
structure Parameter.Follows (p : Parameter) (language : Language) (s : ParameterSettings) : Prop where
  name : p.name = s.name
  nickName : p.nickName = s.nickName.orElse s.name
  variableName : language.sanitizeValue s.effectiveVariable = .ok p.variableName

/-- Each of some settings that lasts has a parameter that follows it. -/
def Graph.Records (g : Graph) (params : List ParamRef) (language : Language) (declared : List ParameterSpec)
    (settings : List ParameterSettings) : Prop :=
  ∀ s : ParameterSettings, s.Lasts language declared settings → ∃ p ∈ params, (g.param p).Follows language s

/-- The variables of some parameters are declared ones. -/
def Graph.Stems (g : Graph) (params : List ParamRef) (language : Language) (declared : List ParameterSpec) : Prop :=
  ∀ p ∈ params, ∃ spec ∈ declared, ∃ v, (g.param p).variableName = .str v ∧ language.sameVariable spec.name v = true

theorem Graph.stems_make (g : Graph) (t : NodeType) (language : Language) (side : Side) :
    (g.make t).2.Stems (side.params ((g.make t).2.node (g.make t).1)) language (side.specs t) := by
  intro p hp
  have hmade : (g.make t).2.param p ∈ (side.specs t).map (.ofSpec · (.node (g.make t).1)) := by
    rw [← g.map_param_make t side]
    exact List.mem_map_of_mem hp
  obtain ⟨spec, hspec, heq⟩ := List.mem_map.mp hmade
  exact ⟨spec, hspec, spec.name, by rw [← heq]; rfl, language.sameVariable_self spec.name⟩

/-- A parameter took on a setting: a new one, or one of some candidates that has the same variable. -/
structure Graph.Assigns (g : Graph) (language : Language) (candidates : List ParamRef) (s : ParameterSettings)
    (p : ParamRef) (g' : Graph) : Prop where
  nodes : g'.nodes = g.nodes
  follows : (g'.param p).Follows language s
  others : ∀ q : ParamRef, q.index < g.params.length → q ≠ p → g'.param q = g.param q
  origin : g.params.length ≤ p.index ∨ p ∈ candidates ∧ ∃ t v, (g.param p).variableName = .str t ∧
    language.sanitizeValue s.effectiveVariable = .ok (.str v) ∧ language.sameVariable t v = true

namespace Graph

variable {g g' : Graph} {n : NodeRef} {params params' candidates : List ParamRef} {language : Language}
  {declared : List ParameterSpec} {settings : List ParameterSettings} {s : ParameterSettings} {p : ParamRef}

theorem Assigns.node (ha : g.Assigns language candidates s p g') (n : NodeRef) : g'.node n = g.node n := by
  unfold Graph.node
  rw [ha.nodes]

theorem Stems.congr (h : g.Stems params language declared)
    (hparams : ∀ p ∈ params, (g'.param p).variableName = (g.param p).variableName) :
    g'.Stems params language declared := by
  intro p hp
  rw [hparams p hp]
  exact h p hp

/-- A parameter that is used again keeps its variable, whatever the spelling. -/
theorem Stems.assign (h : g.Stems params language declared) (hrange : ∀ q ∈ params, q.index < g.params.length)
    (ha : g.Assigns language candidates s p g') : g'.Stems params language declared := by
  intro q hq
  obtain ⟨spec, hspec, v, hv, hsame⟩ := h q hq
  by_cases hne : q = p
  · subst hne
    rcases ha.origin with hnew | ⟨-, t, w, ht, hw, htw⟩
    · exact absurd (hrange q hq) (Nat.not_lt_of_le hnew)
    · obtain rfl : v = t := Value.str.inj (hv.symm.trans ht)
      exact ⟨spec, hspec, w, Except.ok.inj (ha.follows.variableName.symm.trans hw),
        Language.sameVariable_trans hsame htw⟩
  · rw [ha.others q (hrange q hq) hne]
    exact ⟨spec, hspec, v, hv, hsame⟩

theorem records_nil (g : Graph) (params : List ParamRef) (language : Language) (declared : List ParameterSpec) :
    g.Records params language declared [] := by
  rintro s ⟨before, after, heq, -⟩
  simp at heq

theorem Records.mono (h : g.Records params language declared settings) (hsubset : params ⊆ params')
    (hparams : ∀ p ∈ params, ∀ s, (g.param p).Follows language s → (g'.param p).Follows language s) :
    g'.Records params' language declared settings := by
  intro s hs
  obtain ⟨p, hp, hfollows⟩ := h s hs
  exact ⟨p, hsubset hp, hparams p hp s hfollows⟩

/-- One more setting takes no names away but those of its variable. -/
theorem Records.assign (h : g.Records params language declared settings)
    (hrange : ∀ q ∈ params, q.index < g.params.length) (hstems : g.Stems candidates language declared)
    (ha : g.Assigns language candidates s p g') :
    g'.Records (params ++ [p]) language declared (settings ++ [s]) := by
  intro s' hs'
  rcases hs'.of_concat with rfl | ⟨hlasts, hother⟩
  · exact ⟨p, by simp, ha.follows⟩
  · obtain ⟨q, hq, hfollows⟩ := h s' hlasts
    have hne : q ≠ p := by
      rintro rfl
      rcases ha.origin with hnew | ⟨hcandidate, t, v, ht, hv, htv⟩
      · exact absurd (hrange q hq) (Nat.not_lt_of_le hnew)
      · -- then both settings are for its declared variable
        obtain ⟨spec, hspec, t', ht', hsame⟩ := hstems q hcandidate
        obtain rfl : t' = t := Value.str.inj (ht'.symm.trans ht)
        exact hother spec hspec ⟨t', ht ▸ hfollows.variableName, hsame⟩
          ⟨v, hv, Language.sameVariable_trans hsame htv⟩
    refine ⟨q, by simp [hq], ?_⟩
    rw [ha.others q (hrange q hq) hne]
    exact hfollows

/-- Parameters that are no candidates are not concerned. -/
theorem Records.assign_aside (h : g.Records params language declared settings)
    (hrange : ∀ q ∈ params, q.index < g.params.length) (hcandidates : ∀ q ∈ params, q ∉ candidates)
    (ha : g.Assigns language candidates s p g') : g'.Records params language declared settings := by
  refine h.mono (List.Subset.refl _) fun q hq s' hfollows => ?_
  have hne : q ≠ p := by
    rintro rfl
    rcases ha.origin with hnew | ⟨hmem, -⟩
    · exact absurd (hrange q hq) (Nat.not_lt_of_le hnew)
    · exact hcandidates q hq hmem
  rw [ha.others q (hrange q hq) hne]
  exact hfollows

/-- A change that takes no names away from a parameter takes none away from the graph. -/
theorem follows_updateParam {f : Parameter → Parameter}
    (hf : ∀ v : Parameter, v.Follows language s → (f v).Follows language s) (p q : ParamRef)
    (h : (g.param q).Follows language s) : ((g.updateParam p f).param q).Follows language s := by
  by_cases hlt : p.index < g.params.length
  · rw [param_updateParam _ hlt]
    split
    · next hq => exact hf _ (hq ▸ h)
    · exact h
  · rwa [updateParam, setParam, List.set_eq_of_length_le (Nat.le_of_not_lt hlt)]

/-- Names do not depend on what a parameter belongs to. -/
theorem follows_adopt (n : NodeRef) (p q : ParamRef) (h : (g.param q).Follows language s) :
    ((g.updateParam p fun v => { v with owner := .node n }).param q).Follows language s :=
  follows_updateParam (f := fun v => { v with owner := .node n })
    (fun _ hv => ⟨hv.name, hv.nickName, hv.variableName⟩) p q h

theorem variableName_adopt (g : Graph) (n : NodeRef) (p q : ParamRef) :
    ((g.updateParam p fun v => { v with owner := .node n }).param q).variableName = (g.param q).variableName := by
  by_cases hlt : p.index < g.params.length
  · rw [param_updateParam _ hlt]
    split
    · next hq => rw [hq]
    · rfl
  · rw [updateParam, setParam, List.set_eq_of_length_le (Nat.le_of_not_lt hlt)]

theorem follows_nameParams (n : NodeRef) (q : ParamRef) (h : (g.param q).Follows language s) :
    ((g.nameParams n).param q).Follows language s := by
  refine List.foldlRecOn (motive := fun g : Graph => (g.param q).Follows language s) _ _ h fun g h p _ => ?_
  refine follows_updateParam (fun v hv => ?_) p q h
  unfold nameParam
  split
  · exact hv
  · next hnick =>
    refine ⟨hv.name, ?_, hv.variableName⟩
    -- a nick name that says nothing was taken from the name
    have hfalse : s.nickName.truthy = false := by
      rw [hv.nickName, Value.orElse] at hnick
      split at hnick
      · next htruthy => exact absurd htruthy hnick
      · next hfalse => exact Bool.eq_false_iff.mpr hfalse
    rw [Value.orElse, hfalse]
    exact hv.name

/-- What a script has of the settings of its component, some of which are done. -/
structure Transcribes (g : Graph) (n : NodeRef) (t : NodeType) (inputs outputs : List ParameterSettings) : Prop where
  inputs : g.Records (g.node n).inputs (t.language.getD .csharp) t.inputs inputs
  outputs : g.Records (g.node n).outputs (t.language.getD .csharp) t.outputs outputs

namespace Transcribes

variable {t : NodeType} {inputs outputs : List ParameterSettings}

theorem nil (g : Graph) (n : NodeRef) (t : NodeType) : g.Transcribes n t [] [] :=
  ⟨records_nil g _ _ _, records_nil g _ _ _⟩

theorem sameSides (h : g.Transcribes n t inputs outputs) (hsides : g.SameSides n g') :
    g'.Transcribes n t inputs outputs := by
  have hfollows : ∀ p s, (g.param p).Follows (t.language.getD .csharp) s →
      (g'.param p).Follows (t.language.getD .csharp) s := fun p s hp => hsides.param p ▸ hp
  constructor
  · rw [hsides.inputs]
    exact h.inputs.mono (List.Subset.refl _) fun p _ => hfollows p
  · rw [hsides.outputs]
    exact h.outputs.mono (List.Subset.refl _) fun p _ => hfollows p

/-- Nothing is lost when the parameters that have no nick names get some. -/
theorem nameParams (h : g.Transcribes n t inputs outputs) : (g.nameParams n).Transcribes n t inputs outputs := by
  have hnode : (g.nameParams n).node n = g.node n :=
    List.foldlRecOn (motive := fun g' : Graph => g'.node n = g.node n) _ _ rfl fun _ h _ _ => h
  constructor
  · rw [hnode]
    exact h.inputs.mono (List.Subset.refl _) fun p _ s => follows_nameParams n p
  · rw [hnode]
    exact h.outputs.mono (List.Subset.refl _) fun p _ s => follows_nameParams n p

theorem side {c : Component} (h : g.Transcribes n t c.inputs c.outputs) (side : Side) :
    g.Records (side.params (g.node n)) (t.language.getD .csharp) (side.specs t) (side.settings c) := by
  cases side
  · exact h.inputs
  · exact h.outputs

end Transcribes

end Graph

/-! ## Labels of a node -/

/-- The names on a node of a type that was made for a component. -/
structure Graph.Labels (g : Graph) (n : NodeRef) (t : NodeType) (c : Component) : Prop where
  floats : (g.node n).actsAs .parameter = true ↔ t.kind = .parameter
  shows : t.kind ≠ .script → g.Shows n (Side.input.labels t c) (Side.output.labels t c)
  transcribes : t.kind = .script → g.Transcribes n t c.inputs c.outputs

/-- Labels stay when a node is moved or wired, and its component gets another id. -/
theorem Graph.Labels.congr {g g' : Graph} {n : NodeRef} {t : NodeType} {c c' : Component} (h : g.Labels n t c)
    (hnode : (g.node n).SameButPlace (g'.node n))
    (hparams : ∀ p ∈ (g.node n).params, (g.param p).SameButWires (g'.param p))
    (hsettings : c'.inputs = c.inputs ∧ c'.outputs = c.outputs) : g'.Labels n t c' := by
  have hinputs : (g'.node n).inputs = (g.node n).inputs := by rw [hnode]
  have houtputs : (g'.node n).outputs = (g.node n).outputs := by rw [hnode]
  have hlabels : ∀ p ∈ (g.node n).params, (g'.param p).label = (g.param p).label := fun p hp => by
    rw [hparams p hp]
    rfl
  have hfollows : ∀ p ∈ (g.node n).params, ∀ s, (g.param p).Follows (t.language.getD .csharp) s →
      (g'.param p).Follows (t.language.getD .csharp) s := by
    intro p hp s h
    rw [hparams p hp]
    exact ⟨h.name, h.nickName, h.variableName⟩
  constructor
  case floats =>
    rw [hnode]
    exact h.floats
  case shows =>
    intro hscript
    unfold Side.labels Side.settings
    dsimp only
    rw [hsettings.1, hsettings.2]
    have hshows := h.shows hscript
    constructor
    · rw [hinputs]
      exact hshows.inputs.congr fun p hp => hlabels p (List.mem_append_left _ hp)
    · rw [houtputs]
      exact hshows.outputs.congr fun p hp => hlabels p (List.mem_append_right _ hp)
  case transcribes =>
    intro hscript
    rw [hsettings.1, hsettings.2]
    have htranscribes := h.transcribes hscript
    constructor
    · rw [hinputs]
      exact htranscribes.inputs.mono (List.Subset.refl _) fun p hp => hfollows p (List.mem_append_left _ hp)
    · rw [houtputs]
      exact htranscribes.outputs.mono (List.Subset.refl _) fun p hp => hfollows p (List.mem_append_right _ hp)

end Patchbay
