import Patchbay.Proofs.Rebuild.Labels

/-!
# The names on the nodes of a rebuilt document

* **`Work.applySettings_shows`** — the settings of a component do to the parameters of its node what they do to
  the declared labels.
* **`Work.rebuildScript_transcribes`** — a script gets a parameter for each setting that lasts.  Its old
  parameters are used again, and keep their variables (`Work.Transcribing`).
* **`Work.makeNode_labels`**, **`Work.placeAll_labels`** — all nodes that were placed have their labels.
-/

namespace Patchbay

open Validation (Side)

/-- Of some components, those that were placed have nodes with their labels. -/
def Rebuilt.Labelled (r : Rebuilt) (catalog : Catalog) (components : List Component) (g : Graph) : Prop :=
  ∀ c ∈ components, ∀ t, c.type? catalog = some t → ∀ n, r.nodes.lookup c.id = some n → g.Labels n t c

namespace Rebuilt.Labelled

variable {catalog : Catalog} {g₀ g g' : Graph} {r : Rebuilt} {done : List Component} {ids : List String}
  {c : Component} {n : NodeRef} {k : NodeKind}

/-- A component of no known type has no labels to have. -/
theorem skip (h : r.Labelled catalog done g) (hc : c.type? catalog = Option.none) (id : String) :
    (r.skip id).Labelled catalog (done ++ [c]) g := by
  intro c' hc' t ht
  rcases List.mem_append.mp hc' with hc' | hc'
  · exact h c' hc' t ht
  · rw [List.mem_singleton.mp hc', hc] at ht
    cases ht

/-- One more node is placed, which has its labels. -/
theorem add {renamed : Renaming} (h : r.Labelled catalog done g)
    (hplacing : Placing g₀ renamed ids r g) (hbuilds : g.Builds n k g')
    (hlabels : ∀ t, c.type? catalog = some t → g'.Labels n t c) (hnew : ∀ c' ∈ done, c'.id ≠ c.id)
    (p : Position Float) (liveId : String) :
    (r.add c n liveId).Labelled catalog (done ++ [c]) (g'.place n p) := by
  have hgrows := hbuilds.grows_place hplacing.live p
  intro c' hc' t ht m hm
  change (Keyed.put r.nodes c.id n).lookup c'.id = some m at hm
  rcases List.mem_append.mp hc' with hc' | hc'
  · rw [Keyed.lookup_put_of_ne _ _ (hnew c' hc')] at hm
    have hplaced : m ∈ r.nodes.map Prod.snd := Keyed.mem_values_of_lookup hm
    refine (h c' hc' t ht m hm).congr (.of_eq (hgrows.oldNodes m (hplacing.placed m hplaced)))
      (fun q hq => .of_eq ?_) ⟨rfl, rfl⟩
    exact hgrows.oldParams q (hplacing.live.params m (hplacing.canvas ▸ List.mem_append_right _ hplaced) q hq)
  · obtain rfl := List.mem_singleton.mp hc'
    rw [Keyed.lookup_put_self] at hm
    obtain rfl := Option.some.inj hm
    refine (hlabels t ht).congr (hbuilds.sameButPlace_place hplacing.live p) (fun q _ => .of_eq ?_) ⟨rfl, rfl⟩
    rw [hbuilds.place_eq hplacing.live]
    rfl

end Rebuilt.Labelled

namespace Work

open Procedure

variable {g₀ g : Graph} {n : NodeRef} {k : NodeKind} {t : NodeType} {c : Component}

/-! ## Settings of declared parameters -/

theorem applyInput_shows (h : g₀.Builds n k g) {inputs outputs : List Label} (hshows : g.Shows n inputs outputs)
    (c : Component) (s : ParameterSettings) :
    (applyInput n c s).Succeeds g fun _ g' => g'.Shows n (Label.adopt inputs s) outputs := by
  unfold applyInput
  refine succeeds_graph_bind ?_
  cases hfind : g.findInput? n s.name.text with
  | none => exact succeeds_report ⟨hshows.inputs.adopt_of_none hfind, hshows.outputs⟩
  | some p =>
      have hp : p ∈ (g.node n).inputs := Graph.mem_of_findParam? hfind
      have hadopts : (g.updateParam p fun v => v.applySettings s).Shows n (Label.adopt inputs s) outputs :=
        ⟨hshows.inputs.adopt_of_some (fun q hq => (h.own q (List.mem_append_left _ hq)).2) hfind,
          hshows.outputs.updateParam_aside (h.parted p hp) _⟩
      refine (succeeds_update (Q := fun _ g' => g'.Shows n (Label.adopt inputs s) outputs) hadopts).andThen
        fun g' h' => ?_
      split
      · exact succeeds_update (h'.sameSides (.setNode _ rfl rfl))
      · exact succeeds_pure h'

theorem applyOutput_shows (h : g₀.Builds n k g) {inputs outputs : List Label} (hshows : g.Shows n inputs outputs)
    (c : Component) (s : ParameterSettings) :
    (applyOutput n c s).Succeeds g fun _ g' => g'.Shows n inputs (Label.adopt outputs s) := by
  unfold applyOutput
  refine succeeds_graph_bind ?_
  cases hfind : g.findOutput? n s.name.text with
  | none => exact succeeds_report ⟨hshows.inputs, hshows.outputs.adopt_of_none hfind⟩
  | some p =>
      have hp : p ∈ (g.node n).outputs := Graph.mem_of_findParam? hfind
      exact succeeds_update ⟨hshows.inputs.updateParam_aside (fun hmem => h.parted p hmem hp) _,
        hshows.outputs.adopt_of_some (fun q hq => (h.own q (List.mem_append_right _ hq)).2) hfind⟩

/-- The settings of a component are applied in order. -/
theorem applySettings_shows (h : g₀.Builds n k g) {inputs outputs : List Label} (hshows : g.Shows n inputs outputs)
    (c : Component) : (applySettings n c).Succeeds g fun _ g' =>
      g'.Shows n (c.inputs.foldl Label.adopt inputs) (c.outputs.foldl Label.adopt outputs) := by
  unfold applySettings
  refine (succeeds_forM_done (I := fun done g' => g₀.Builds n k g' ∧
      g'.Shows n (done.foldl Label.adopt inputs) outputs) (fun done s _ g' ⟨h, hshows⟩ => ?_) ⟨h, hshows⟩).andThen
    fun g' ⟨h', hshows'⟩ => ?_
  · rw [List.foldl_append]
    exact (applyInput_succeeds h c s).and (applyInput_shows h hshows c s)
  · refine (succeeds_forM_done (I := fun done g' => g₀.Builds n k g' ∧
      g'.Shows n (c.inputs.foldl Label.adopt inputs) (done.foldl Label.adopt outputs))
      (fun done s _ g' ⟨h, hshows⟩ => ?_) ⟨h', hshows'⟩).mono fun _ _ h => h.2
    rw [List.foldl_append]
    exact (applyOutput_succeeds h c s).and (applyOutput_shows h hshows c s)

/-- A node that is no script has the declared parameters, and its settings were applied to them. -/
theorem configure_shows {b : Rebuilder} (hb : ∀ d ∈ b.properties, d.source.isOpen = true)
    (hsettings : b.options.settings = true) (hscript : k ≠ .script) (h : g₀.Builds n k g)
    (hshows : g.Shows n (t.inputs.map (·.label)) (t.outputs.map (·.label))) (c : Component) :
    (configure b n c).Succeeds g fun _ g' => g'.Shows n (Side.input.labels t c) (Side.output.labels t c) := by
  -- properties come before settings, and leave the parameters alone
  have hgeneric : ∀ (exclude : List String) (g : Graph), g₀.Builds n k g →
      g.Shows n (t.inputs.map (·.label)) (t.outputs.map (·.label)) → Succeeds (do
        applyProperties b n c exclude
        applyParameters b n c) g fun _ g' => g'.Shows n (Side.input.labels t c) (Side.output.labels t c) := by
    intro exclude g h hshows
    refine (applyProperties_retouches hb h.plain.known c exclude).andThen fun g' ⟨v, hv, hg'⟩ => ?_
    subst hg'
    unfold applyParameters
    rw [if_pos hsettings]
    exact applySettings_shows (h.retouch hv) (hshows.sameSides (.retouch g hv)) c
  unfold configure
  refine succeeds_graph_bind ?_
  rw [h.plain.kind]
  split
  · refine (applySlider_retouches n c g).andThen fun g' ⟨v, hv, hg'⟩ => ?_
    subst hg'
    exact hgeneric _ _ (h.retouch hv) (hshows.sameSides (.retouch g hv))
  · exact absurd rfl hscript
  · exact hgeneric [] g h hshows

/-! ## Settings of scripts -/

section Scripts

variable {language : Language} {candidates : List ParamRef} {s : ParameterSettings} {old : Node}
  {inputs outputs : List ParameterSettings}

/-- A setting goes to the parameter with its variable, or to a new one. -/
theorem scriptParameter_assigns (hcandidates : ∀ p ∈ candidates, p.index < g.params.length ∧
    ∃ t, (g.param p).variableName = .str t) (hs : s.Typed) :
    (scriptParameter language candidates s).Succeeds g fun p g' => g.Assigns language candidates s p g' := by
  -- what the setting makes of a parameter
  have hfollows : ∀ v : Parameter, (v.applyScriptSettings s (.str (s.variableIn language))).Follows language s := by
    refine fun v => ⟨rfl, ?_, hs.sanitizeValue language⟩
    change s.nickName.orElse (s.nickName.orElse s.name) = s.nickName.orElse s.name
    unfold Value.orElse
    split <;> rfl
  refine (scriptParameter_receives hs fun p hp => (hcandidates p hp).2).mono fun p g' hreceives => ?_
  cases hreceives with
  | reused hholder =>
      have hp := List.mem_of_find?_eq_some hholder
      obtain ⟨hlt, t, ht⟩ := hcandidates p hp
      have hsame := List.find?_some hholder
      rw [ht] at hsame
      have hparam := Graph.param_updateParam (fun v => v.applyScriptSettings s (.str (s.variableIn language))) hlt
      refine ⟨rfl, ?_, fun q _ hq => ?_, .inr ⟨hp, t, _, ht, hs.sanitizeValue language, hsame⟩⟩
      · rw [hparam, if_pos rfl]
        exact hfollows _
      · rw [hparam, if_neg hq]
  | created =>
      have hlt := Nat.lt_of_lt_of_eq (Nat.lt_succ_self _) (g.length_newParam (.ofVariable (.str (s.variableIn language)))).symm
      have hparam := Graph.param_updateParam (s := ⟨g.params.length⟩)
        (fun v => v.applyScriptSettings s (.str (s.variableIn language))) hlt
      refine ⟨rfl, ?_, fun q hq hne => ?_, .inl (Nat.le_refl _)⟩
      · rw [hparam, if_pos rfl]
        exact hfollows _
      · rw [hparam, if_neg hne, g.param_newParam _ hq]

/-- A script is being rebuilt: some of the settings of its component are done, and the parameters that it had
have the variables of the declared ones. -/
structure Transcribing (g₀ : Graph) (n : NodeRef) (k : NodeKind) (old : Node) (t : NodeType)
    (inputs outputs : List ParameterSettings) (g : Graph) : Prop where
  rebuilds : Rebuilds g₀ n k old g
  stems : ∀ side : Side, g.Stems (side.params old) (t.language.getD .csharp) (side.specs t)
  transcribes : g.Transcribes n t inputs outputs

namespace Transcribing

/-- The parameters that a script had are there, and go by texts. -/
theorem named (h : Transcribing g₀ n k old t inputs outputs g) (side : Side) :
    ∀ p ∈ side.params old, p.index < g.params.length ∧ ∃ t, (g.param p).variableName = .str t := by
  intro p hp
  obtain ⟨-, -, v, hv, -⟩ := h.stems side p hp
  exact ⟨(h.rebuilds.existing p (side.params_subset old hp)).2, v, hv⟩

end Transcribing

/-- One more input is recorded. -/
theorem rebuildInput_transcribes (h : Transcribing g₀ n k old t inputs outputs g) (hs : s.Typed) :
    Succeeds (do
      let p ← scriptParameter (t.language.getD .csharp) old.inputs s
      update fun g => g.registerInput n p
      if s.isPrincipal then setPrincipal n p) g fun _ g' =>
        Transcribing g₀ n k old t (inputs ++ [s]) outputs g' := by
  suffices hnames : Succeeds (do
      let p ← scriptParameter (t.language.getD .csharp) old.inputs s
      update fun g => g.registerInput n p
      if s.isPrincipal then setPrincipal n p) g fun _ g' =>
        (∀ side : Side, g'.Stems (side.params old) (t.language.getD .csharp) (side.specs t)) ∧
          g'.Transcribes n t (inputs ++ [s]) outputs from
    ((rebuildInput_succeeds h.rebuilds _ hs).and hnames).mono fun _ _ h => ⟨h.1, h.2.1, h.2.2⟩
  refine (scriptParameter_assigns (h.named .input) hs).bind fun p g' ha => ?_
  have hnode := g'.node_registerInput (ha.nodes ▸ h.rebuilds.builds.index_lt) p
  rw [ha.node n] at hnode
  have hstems : ∀ side : Side,
      (g'.registerInput n p).Stems (side.params old) (t.language.getD .csharp) (side.specs t) := fun side =>
    ((h.stems side).assign (fun q hq => (h.named side q hq).1) ha).congr fun q _ => g'.variableName_adopt n p q
  have htranscribes : (g'.registerInput n p).Transcribes n t (inputs ++ [s]) outputs := by
    constructor
    case inputs =>
      refine (h.transcribes.inputs.assign (fun q hq => (h.rebuilds.builds.own q (List.mem_append_left _ hq)).2)
        (h.stems .input) ha).mono ?_ fun q _ s' => Graph.follows_adopt n p q
      rw [hnode]
      split
      · next hmem => exact List.append_subset.mpr ⟨List.Subset.refl _, by simpa using hmem⟩
      · exact List.Subset.refl _
    case outputs =>
      refine (h.transcribes.outputs.assign_aside (fun q hq => (h.rebuilds.builds.own q (List.mem_append_right _ hq)).2)
        h.rebuilds.outputs ha).mono ?_ fun q _ s' => Graph.follows_adopt n p q
      rw [hnode]
      split <;> exact List.Subset.refl _
  refine (succeeds_update (Q := fun _ g'' => g'' = g'.registerInput n p) rfl).andThen fun g'' hg'' => ?_
  subst hg''
  split
  · exact succeeds_update ⟨fun side => (hstems side).congr fun _ _ => rfl, htranscribes.sameSides (.setNode _ rfl rfl)⟩
  · exact succeeds_pure ⟨hstems, htranscribes⟩

/-- One more output is recorded. -/
theorem rebuildOutput_transcribes (h : Transcribing g₀ n k old t inputs outputs g) (hs : s.Typed) :
    Succeeds (do
      let p ← scriptParameter (t.language.getD .csharp) old.outputs s
      update fun g => g.registerOutput n p) g fun _ g' =>
        Transcribing g₀ n k old t inputs (outputs ++ [s]) g' := by
  suffices hnames : Succeeds (do
      let p ← scriptParameter (t.language.getD .csharp) old.outputs s
      update fun g => g.registerOutput n p) g fun _ g' =>
        (∀ side : Side, g'.Stems (side.params old) (t.language.getD .csharp) (side.specs t)) ∧
          g'.Transcribes n t inputs (outputs ++ [s]) from
    ((rebuildOutput_succeeds h.rebuilds _ hs).and hnames).mono fun _ _ h => ⟨h.1, h.2.1, h.2.2⟩
  refine (scriptParameter_assigns (h.named .output) hs).bind fun p g' ha => ?_
  have hnode := g'.node_registerOutput (ha.nodes ▸ h.rebuilds.builds.index_lt) p
  rw [ha.node n] at hnode
  refine succeeds_update ⟨fun side => ?_, ?_, ?_⟩
  · exact ((h.stems side).assign (fun q hq => (h.named side q hq).1) ha).congr fun q _ => g'.variableName_adopt n p q
  · refine (h.transcribes.inputs.assign_aside (fun q hq => (h.rebuilds.builds.own q (List.mem_append_left _ hq)).2)
      h.rebuilds.inputs ha).mono ?_ fun q _ s' => Graph.follows_adopt n p q
    rw [hnode]
    split <;> exact List.Subset.refl _
  · refine (h.transcribes.outputs.assign (fun q hq => (h.rebuilds.builds.own q (List.mem_append_right _ hq)).2)
      (h.stems .output) ha).mono ?_ fun q _ s' => Graph.follows_adopt n p q
    rw [hnode]
    split
    · next hmem => exact List.append_subset.mpr ⟨List.Subset.refl _, by simpa using hmem⟩
    · exact List.Subset.refl _

end Scripts

/-- **A script gets a parameter for each setting that lasts.** -/
theorem rebuildScript_transcribes (h : g₀.Builds n k g) (hlanguage : (g.node n).language = t.language.getD .csharp)
    (hstems : ∀ side : Side, g.Stems (side.params (g.node n)) (t.language.getD .csharp) (side.specs t))
    (hc : c.Typed) : (rebuildScript n c).Succeeds g fun _ g' => g'.Transcribes n t c.inputs c.outputs := by
  have hstart : Transcribing g₀ n k (g.node n) t [] [] (g.unregisterAll n) := by
    refine ⟨.of_unregisterAll h, fun side => (hstems side).congr fun p _ => ?_, .nil _ n t⟩
    unfold Graph.param
    rw [h.unregisterAll.2.params]
  unfold rebuildScript
  refine succeeds_graph_bind ?_
  generalize g.node n = old at hlanguage hstart ⊢
  dsimp only
  rw [hlanguage]
  refine (succeeds_update (Q := fun _ g' => Transcribing g₀ n k old t [] [] g') hstart).andThen fun g' h' => ?_
  refine (succeeds_forM_done (I := fun done g' => Transcribing g₀ n k old t done [] g')
    (fun done s hs g h => rebuildInput_transcribes h (hc.inputs s hs)) h').andThen fun g' h' => ?_
  refine (succeeds_forM_done (I := fun done g' => Transcribing g₀ n k old t c.inputs done g')
    (fun done s hs g h => rebuildOutput_transcribes h (hc.outputs s hs)) h').andThen fun g' h' => ?_
  obtain ⟨inputs, hinputs⟩ := exists_mapM_eq_ok fun s hs => declaredHint_ok (hc.inputs s hs)
  obtain ⟨outputs, houtputs⟩ := exists_mapM_eq_ok fun s hs => declaredHint_ok (hc.outputs s hs)
  refine succeeds_ofResult_bind hinputs (succeeds_ofResult_bind houtputs ?_)
  split
  · refine succeeds_graph_bind ?_
    refine (succeeds_logged (Q := fun _ s => s = g') rfl).bind fun retyped s hs => ?_
    subst hs
    exact succeeds_update (h'.transcribes.sameSides (.setNode _ rfl rfl))
  · exact succeeds_pure h'.transcribes

/-- A script keeps its parameters while it is configured. -/
theorem configure_transcribes {b : Rebuilder} (hb : ∀ d ∈ b.properties, d.source.isOpen = true)
    (hsettings : b.options.settings = true) (h : g₀.Builds n .script g)
    (hlanguage : (g.node n).language = t.language.getD .csharp)
    (hstems : ∀ side : Side, g.Stems (side.params (g.node n)) (t.language.getD .csharp) (side.specs t))
    (hc : c.Typed) : (configure b n c).Succeeds g fun _ g' => g'.Transcribes n t c.inputs c.outputs := by
  unfold configure
  refine succeeds_graph_bind ?_
  rw [h.plain.kind, hsettings]
  refine (applyScript_retouches n c g).andThen fun g₁ ⟨v, hv, hg₁⟩ => ?_
  have hlanguage₁ : (g₁.node n).language = t.language.getD .csharp := by
    rw [hg₁, Graph.node_setNode_self _ _ h.index_lt, hv.body]
    exact hlanguage
  have hsides : g.SameSides n g₁ := hg₁ ▸ .retouch g hv
  have hstems₁ : ∀ side : Side, g₁.Stems (side.params (g₁.node n)) (t.language.getD .csharp) (side.specs t) := by
    intro side
    rw [side.params_congr hsides]
    exact (hstems side).congr fun p _ => by rw [hsides.param]
  have h₁ : g₀.Builds n .script g₁ := hg₁ ▸ h.retouch hv
  refine ((rebuildScript_succeeds h₁ hc).and (rebuildScript_transcribes h₁ hlanguage₁ hstems₁ hc)).andThen
    fun g₂ ⟨h₂, htranscribes⟩ => ?_
  refine (applyProperties_retouches hb h₂.plain.known c _).andThen fun g₃ ⟨w, hw, hg₃⟩ => ?_
  have htranscribes' : g₃.Transcribes n t c.inputs c.outputs := hg₃ ▸ htranscribes.sameSides (.retouch g₂ hw)
  have h₃ : g₀.Builds n .script g₃ := hg₃ ▸ h₂.retouch hw
  exact (maintain_succeeds h₃).mono fun _ g₄ ⟨_, hsides⟩ => htranscribes'.nameParams.sameSides hsides

/-! ## Making and placing -/

/-- The node of a component has its labels. -/
theorem makeNode_labels {b : Rebuilder} (hb : ∀ d ∈ b.properties, d.source.isOpen = true)
    (hhost : b.host = .live) (hsettings : b.options.settings = true) (hc : c.TypedFor b.catalog) (g : Graph) :
    (makeNode b c).Succeeds g fun made g' =>
      ∀ t, c.type? b.catalog = some t → ∀ n, made = some n → g'.Labels n t c := by
  unfold makeNode
  refine (succeeds_logged (Q := fun found g' => c.type? b.catalog = found ∧ g' = g) ⟨rfl, rfl⟩).bind
    fun found g' ⟨htype, hg'⟩ => ?_
  subst hg'
  cases found with
  | none =>
      refine (succeeds_report (Q := fun _ _ => True) trivial).andThen fun _ _ => succeeds_pure ?_
      exact fun _ _ _ hn => nomatch hn
  | some t =>
      refine (instantiate_succeeds hhost c t g').bind fun made g'' ⟨hmade, hg''⟩ => ?_
      subst hmade hg''
      have hbuilds := g'.builds_make t
      have hlanguage : ((g'.make t).2.node (g'.make t).1).language = t.language.getD .csharp := by
        rw [Graph.node_make]
        rfl
      have hnames : (configure b (g'.make t).1 c).Succeeds (g'.make t).2 fun _ g₁ =>
          (t.kind ≠ .script → g₁.Shows (g'.make t).1 (Side.input.labels t c) (Side.output.labels t c)) ∧
            (t.kind = .script → g₁.Transcribes (g'.make t).1 t c.inputs c.outputs) := by
        by_cases hscript : t.kind = .script
        · refine (configure_transcribes hb hsettings (hscript ▸ hbuilds) hlanguage (g'.stems_make t _)
            (hc t htype hscript)).mono fun _ _ h => ?_
          exact ⟨fun hno => absurd hscript hno, fun _ => h⟩
        · refine (configure_shows hb hsettings hscript hbuilds (g'.shows_make t) c).mono fun _ _ h => ?_
          exact ⟨fun _ => h, fun hyes => absurd hyes hscript⟩
      refine ((configure_succeeds hb hbuilds (hc t htype)).and hnames).andThen
        fun g₁ ⟨h₁, hshows, htranscribes⟩ => ?_
      -- the selection is no name
      refine ((put_succeeds h₁ (by decide) _).and (succeeds_update (Q := fun _ g₂ => g₁.SameSides (g'.make t).1 g₂)
        (.setNode g₁ rfl rfl))).andThen fun g₂ ⟨h₂, hsides⟩ => succeeds_pure fun t' ht' n hn => ?_
      cases hn
      obtain rfl := Option.some.inj (htype.symm.trans ht')
      exact ⟨h₂.plain.actsAs_iff .parameter, fun hscript => (hshows hscript).sameSides hsides,
        fun hscript => (htranscribes hscript).sameSides hsides⟩

/-- **The nodes of all components have their labels.** -/
theorem placeAll_labels {b : Rebuilder} (hb : ∀ d ∈ b.properties, d.source.isOpen = true)
    (hhost : b.host = .live) (hsettings : b.options.settings = true)
    {positions : List (String × Position Float)} {renamed : Renaming} {cs : List Component}
    (hcs : ∀ c ∈ cs, c.TypedFor b.catalog) (hpositions : ∀ c ∈ cs, ∃ p, positions.lookup c.id = some p)
    {ids : List String} (hnodup : (ids ++ cs.map Component.id).Nodup) {r : Rebuilt}
    (hplacing : Placing g₀ renamed ids r g) :
    (placeAll b renamed positions r cs).Succeeds g fun r' g' => r'.Labelled b.catalog cs g' := by
  refine (placeAll_keeps (I := fun done r g => r.Labelled b.catalog done g)
    (M := fun c n g' => ∀ t, c.type? b.catalog = some t → g'.Labels n t c) hb hhost ?_
    (fun done c r g h htype => h.skip htype _) ?_ hcs hpositions hnodup [] (fun _ h => nomatch h) hplacing
    fun _ h => nomatch h).mono fun _ _ h => h.2
  · exact fun c hc g => (makeNode_labels hb hhost hsettings hc g).mono fun made g' h n hn t ht => h t ht n hn
  · exact fun done ids c r g n k g' p h hplacing hnew _ hbuilds hlabels => h.add hplacing hbuilds hlabels hnew p _

end Work

end Patchbay
