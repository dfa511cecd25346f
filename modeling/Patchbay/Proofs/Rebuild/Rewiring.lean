import Patchbay.Proofs.Distinct
import Patchbay.Proofs.Rebuild.Imaging

/-!
# Images are wired

The connections between some nodes lead to their images, so that these are wired as the nodes are.

* `Graph.Exchangeable` — nodes that are exchanged without loss
* `Graph.source`, `Graph.target` — a parameter of an image by the name of the parameter of a node.  Names are
  all that connections have, and all that is needed, since no two parameters of a side share one.
* **`Imaged.targets_source`** — from the image of an output, the connections lead to the images of the inputs
  that it feeds, in the same order.
* **`Imaged.wiresOf_images`** — so the wires of the images, under the ids of the nodes, are those of the nodes.
-/

namespace Patchbay

/-! ## Lists -/

/-- Items of two lists that look the same in one way do so in another, and are kept by the same filters. -/
theorem filter_map_congr {α β γ : Type} {f : α → β} {f' : α → γ} {keep : α → Bool}
    (hf : ∀ a b, f a = f b → f' a = f' b) (hkeep : ∀ a b, f a = f b → keep a = keep b) {items others : List α}
    (h : items.map f = others.map f) : (items.filter keep).map f' = (others.filter keep).map f' := by
  induction items generalizing others with
  | nil =>
      cases others with
      | nil => rfl
      | cons b others => cases h
  | cons a items ih =>
      cases others with
      | nil => cases h
      | cons b others =>
          obtain ⟨hab, hrest⟩ := List.cons.inj h
          rw [List.filter_cons, List.filter_cons, hkeep a b hab]
          split
          · rw [List.map_cons, List.map_cons, hf a b hab, ih hrest]
          · exact ih hrest

theorem map_congr {α β γ : Type} {f : α → β} {f' : α → γ} (hf : ∀ a b, f a = f b → f' a = f' b)
    {items others : List α} (h : items.map f = others.map f) : items.map f' = others.map f' := by
  have hkeep : ∀ a b : α, f a = f b → (fun _ => true) a = (fun _ => true) b := fun _ _ _ => rfl
  have hall := filter_map_congr hf hkeep h
  rwa [List.filter_true, List.filter_true] at hall

namespace ParameterSettings

variable {s s' : ParameterSettings}

theorem name_eq_of_toValue (h : s.toValue = s'.toValue) : s.name = s'.name := by
  have hentries : s.entries = s'.entries := Value.object.inj h
  have hhead := congrArg List.head? hentries
  exact congrArg Prod.snd (Option.some.inj hhead)

end ParameterSettings

/-! ## Parameters -/

namespace Graph

variable {s g : Graph} {o m : NodeRef} {t : NodeType} {p : ParamRef}

theorem Mirrors.outputNames (h : s.Mirrors o g m) : ((g.node m).outputs.map fun p => (g.param p).name) =
    (s.node o).outputs.map fun p => (s.param p).name := by
  have hnames := map_congr (fun _ _ => ParameterSettings.name_eq_of_toValue) h.outputs
  unfold outputSettings at hnames
  rwa [List.map_map, List.map_map] at hnames

theorem map_name_inputSettings (g : Graph) (v : Node) :
    (g.inputSettings v).map (·.name) = v.inputs.map fun p => (g.param p).name := by
  have hnames := congrArg (List.map Parameter.name) (g.map_fst_markedInputs v)
  rw [List.map_map, List.map_map] at hnames
  rw [inputSettings, List.map_map]
  exact hnames

theorem Mirrors.inputNames (h : s.Mirrors o g m) : ((g.node m).inputs.map fun p => (g.param p).name) =
    (s.node o).inputs.map fun p => (s.param p).name := by
  rw [← map_name_inputSettings, ← map_name_inputSettings]
  exact map_congr (fun _ _ => ParameterSettings.name_eq_of_toValue) h.inputs

theorem Instantiates.nodup_outputs (h : s.Instantiates o t) :
    ((s.node o).outputs.map fun p => (s.param p).name).Nodup :=
  h.outputs ▸ ParameterSpec.nodup_names h.distinctOutputs

theorem Instantiates.nodup_inputs (h : s.Instantiates o t) :
    ((s.node o).inputs.map fun p => (s.param p).name).Nodup :=
  h.inputs ▸ ParameterSpec.nodup_names h.distinctInputs

/-- The sides of a node that looks like one of a type have names, too. -/
theorem Mirrors.namedOutputs (h : s.Mirrors o g m) (ho : s.Instantiates o t) : g.Named (g.node m).outputs :=
  .of_specs (fun p hp => h.range p (List.mem_append_right _ hp)) (h.outputNames.trans ho.outputs)
    ho.distinctOutputs

theorem Mirrors.namedInputs (h : s.Mirrors o g m) (ho : s.Instantiates o t) : g.Named (g.node m).inputs :=
  .of_specs (fun p hp => h.range p (List.mem_append_left _ hp)) (h.inputNames.trans ho.inputs)
    ho.distinctInputs

/-- On sides with the same names, what has a name on the one is found by it on the other. -/
theorem Named.exists_findParam? {side side' : List ParamRef} (h : g.Named side)
    (hnames : (side.map fun q => (g.param q).name) = side'.map fun p => (s.param p).name) (hp : p ∈ side')
    (hplain : (s.param p).IsPlain) : ∃ q ∈ side, g.findParam? side (s.param p).name.text = some q ∧
      (g.param q).name = (s.param p).name := by
  obtain ⟨n, -, hn⟩ := hplain.name
  obtain ⟨q, hq, hname⟩ := List.mem_map.mp (hnames ▸ List.mem_map_of_mem hp)
  refine ⟨q, hq, ?_, hname⟩
  rw [hn, Value.text_str]
  exact h.findParam?_eq hq (hname.trans hn)

/-- The output of a node that has the name of an output of another. -/
def source (s g : Graph) (m : NodeRef) (p : ParamRef) : ParamRef :=
  (g.findSource? m (s.param p).name.text).getD default

/-- The input of a node that has the name of an input of another. -/
def target (s g : Graph) (m : NodeRef) (p : ParamRef) : ParamRef :=
  (g.findTarget? m (s.param p).name.text).getD default

/-- An output is found again by its name. -/
theorem Mirrors.source_spec (h : s.Mirrors o g m) (ho : s.Instantiates o t) (hp : p ∈ (s.node o).outputs) :
    g.findSource? m (s.param p).name.text = some (s.source g m p) ∧ s.source g m p ∈ (g.node m).outputs ∧
      (g.param (s.source g m p)).name = (s.param p).name := by
  obtain ⟨q, hq, hfound, hname⟩ := (h.namedOutputs ho).exists_findParam? h.outputNames hp
    (ho.plain p (List.mem_append_right _ hp))
  have hfind : g.findSource? m (s.param p).name.text = some q := by
    unfold findSource? findOutput?
    rw [hfound]
    rfl
  have hsource : s.source g m p = q := by rw [source, hfind, Option.getD_some]
  rw [hsource]
  exact ⟨hfind, hq, hname⟩

theorem Mirrors.target_spec (h : s.Mirrors o g m) (ho : s.Instantiates o t) (hp : p ∈ (s.node o).inputs) :
    g.findTarget? m (s.param p).name.text = some (s.target g m p) ∧ s.target g m p ∈ (g.node m).inputs ∧
      (g.param (s.target g m p)).name = (s.param p).name := by
  obtain ⟨q, hq, hfound, hname⟩ := (h.namedInputs ho).exists_findParam? h.inputNames hp
    (ho.plain p (List.mem_append_left _ hp))
  have hfind : g.findTarget? m (s.param p).name.text = some q := by
    unfold findTarget? findInput?
    rw [hfound]
    rfl
  have htarget : s.target g m p = q := by rw [target, hfind, Option.getD_some]
  rw [htarget]
  exact ⟨hfind, hq, hname⟩

/-- The outputs of a node are those found by the names of the outputs of the other. -/
theorem Mirrors.outputs_eq (h : s.Mirrors o g m) (ho : s.Instantiates o t) :
    (g.node m).outputs = (s.node o).outputs.map (s.source g m) := by
  have hnames := h.outputNames
  refine List.ext_getElem (by simpa using congrArg List.length hnames) fun i hi hi' => ?_
  rw [List.length_map] at hi'
  have hname := List.getElem_of_eq hnames (by simpa using hi)
  rw [List.getElem_map, List.getElem_map] at hname
  obtain ⟨-, hmem, hsource⟩ := h.source_spec ho (List.getElem_mem hi')
  rw [List.getElem_map]
  exact List.inj_on_of_nodup_map (h.namedOutputs ho).nodup (List.getElem_mem hi) hmem (hname.trans hsource.symm)

/-- Nodes of types that a catalog knows, with ids that need no repair, and wired among each other: from
outputs to inputs.  They may have messages. -/
structure Exchangeable (catalog : Catalog) (g : Graph) (nodes : List NodeRef) : Prop where
  ids : (nodes.map fun n => (g.node n).id).Nodup
  guids : ∀ n ∈ nodes, isGuid (g.node n).id = true
  types : ∀ n ∈ nodes, ∃ t, g.Instantiates n t ∧ t.key ≠ "" ∧ catalog.findKey? t.key = some t
  pivots : ∀ n ∈ nodes, ∃ x y, (g.node n).pivot = .spot x y
  messages : ∀ n ∈ nodes, ∀ a ∈ [Attribute.warnings, .errors], ∃ texts : List String,
    (g.node n).read a = .list (texts.map .str)
  single : ∀ n ∈ nodes, ∀ p ∈ (g.node n).outputs, (g.param p).recipients.Nodup
  wires : ∀ n ∈ nodes, ∀ p ∈ (g.node n).outputs, ∀ q ∈ (g.param p).recipients,
    ∃ m ∈ nodes, (g.param q).owner = .node m ∧ q ∈ (g.node m).inputs

/-- The wires that leave some nodes, as connections. -/
def wiresOf (g : Graph) (nodes : List NodeRef) : List Connection :=
  nodes.flatMap fun n => (g.node n).outputs.flatMap fun p => (g.param p).recipients.map (g.connectionOf n p)

end Graph

/-- What a filter finds in one of several lists only, it finds there. -/
theorem filterMap_flatMap_of_mem {α β γ : Type} {items : List α} (hnodup : items.Nodup) {f : α → List β}
    {find : β → Option γ} {a : α} (ha : a ∈ items)
    (hothers : ∀ b ∈ items, b ≠ a → ∀ c ∈ f b, find c = none) :
    (items.flatMap f).filterMap find = (f a).filterMap find := by
  obtain ⟨before, after, rfl⟩ := List.append_of_mem ha
  rw [List.nodup_middle, List.nodup_cons] at hnodup
  have hnone : ∀ rest ⊆ before ++ after, (rest.flatMap f).filterMap find = [] := by
    intro rest hrest
    refine List.filterMap_eq_nil_iff.mpr fun c hc => ?_
    obtain ⟨b, hb, hc⟩ := List.mem_flatMap.mp hc
    have hb' := hrest hb
    refine hothers b ?_ (fun heq => hnodup.1 (heq ▸ hb')) c hc
    rcases List.mem_append.mp hb' with hb' | hb'
    · exact List.mem_append_left _ hb'
    · exact List.mem_append_right _ (List.mem_cons_of_mem _ hb')
  rw [List.flatMap_append, List.flatMap_cons, List.filterMap_append, List.filterMap_append,
    hnone before (List.subset_append_left _ _), hnone after (List.subset_append_right _ _), List.nil_append,
    List.append_nil]

namespace Imaged

variable {catalog : Catalog} {s g : Graph} {place : NodeRef → Position Float} {nodes : List NodeRef}
  {image : NodeRef → NodeRef} {r : Rebuilt} {o : NodeRef} {p q : ParamRef}

theorem lookup (himaged : Imaged s place nodes image r g) (h : s.Exchangeable catalog nodes) (ho : o ∈ nodes) :
    r.nodes.lookup (s.node o).id = some (image o) := by
  have hkeys : (r.nodes.map Prod.fst).Nodup := by
    rw [himaged.nodes, List.map_map]
    exact h.ids
  rw [Keyed.lookup_eq_some_iff hkeys, himaged.nodes]
  exact List.mem_map_of_mem (f := fun o => ((s.node o).id, image o)) ho

/-- Different nodes have different images. -/
theorem injective (himaged : Imaged s place nodes image r g) {o' : NodeRef} (ho : o ∈ nodes) (ho' : o' ∈ nodes)
    (heq : image o = image o') : o = o' :=
  List.inj_on_of_nodup_map himaged.distinct ho ho' (congrArg (fun m => (g.node m).id) heq)

/-- The connection of a wire means the wire between the images. -/
theorem ends?_connectionOf (himaged : Imaged s place nodes image r g) (h : s.Exchangeable catalog nodes)
    (ho : o ∈ nodes) (hp : p ∈ (s.node o).outputs) (hq : q ∈ (s.param p).recipients) :
    (s.connectionOf o p q).ends? g r.nodes =
      some (s.source g (image o) p, s.target g (image (s.ownerOf q)) q) := by
  obtain ⟨m, hm, howner, hq'⟩ := h.wires o ho p hp q hq
  obtain ⟨t, ht, -, -⟩ := h.types o ho
  obtain ⟨t', ht', -, -⟩ := h.types m hm
  have howner' : s.ownerOf q = m := Graph.ownerOf_eq howner
  have htruthy : ∀ v : Parameter, v.IsPlain → v.name.truthy = true := by
    intro v hv
    obtain ⟨n, hn, hname⟩ := hv.name
    rw [hname]
    simpa [Value.truthy, String.isEmpty_iff] using hn
  rw [howner']
  refine Connection.ends?_eq_some_iff.mpr ⟨htruthy _ (ht.plain p (List.mem_append_right _ hp)),
    htruthy _ (ht'.plain q (List.mem_append_left _ hq')), image o, image m, himaged.lookup h ho, ?_,
    ((himaged.mirrors o ho).source_spec ht hp).1, ((himaged.mirrors m hm).target_spec ht' hq').1⟩
  rw [Graph.connectionOf, howner']
  exact himaged.lookup h hm

/-- The outputs of images are different if the outputs are. -/
theorem source_injective (himaged : Imaged s place nodes image r g) (h : s.Exchangeable catalog nodes)
    {o' : NodeRef} {p' : ParamRef} (ho : o ∈ nodes) (ho' : o' ∈ nodes) (hp : p ∈ (s.node o).outputs)
    (hp' : p' ∈ (s.node o').outputs) (heq : s.source g (image o) p = s.source g (image o') p') :
    o = o' ∧ p = p' := by
  obtain ⟨t, ht, -, -⟩ := h.types o ho
  obtain ⟨t', ht', -, -⟩ := h.types o' ho'
  obtain ⟨-, hmem, hname⟩ := (himaged.mirrors o ho).source_spec ht hp
  obtain ⟨-, hmem', hname'⟩ := (himaged.mirrors o' ho').source_spec ht' hp'
  have howner := (himaged.mirrors o ho).owners _ (List.mem_append_right _ hmem)
  have howner' := (himaged.mirrors o' ho').owners _ (List.mem_append_right _ hmem')
  rw [heq, howner'] at howner
  have hsame := himaged.injective ho ho' (Owner.node.inj howner).symm
  subst hsame
  have hsources := congrArg (fun p => (g.param p).name) heq
  exact ⟨rfl, List.inj_on_of_nodup_map ht.nodup_outputs hp hp' ((hname.symm.trans hsources).trans hname')⟩

/-- **From the image of an output, the connections lead to the images of the inputs that it feeds**, in the
same order. -/
theorem targets_source (himaged : Imaged s place nodes image r g) (h : s.Exchangeable catalog nodes)
    (ho : o ∈ nodes) (hp : p ∈ (s.node o).outputs) :
    Connection.targets g r.nodes (s.wiresOf nodes) (s.source g (image o) p) =
      (s.param p).recipients.map fun q => s.target g (image (s.ownerOf q)) q := by
  have hnodup : nodes.Nodup := h.ids.of_map
  obtain ⟨t, ht, -, -⟩ := h.types o ho
  have houtputs : (s.node o).outputs.Nodup := ht.nodup_outputs.of_map
  unfold Connection.targets Graph.wiresOf
  rw [filterMap_flatMap_of_mem hnodup ho, filterMap_flatMap_of_mem houtputs hp, List.filterMap_map]
  · refine (List.filterMap_congr fun q hq => ?_).trans (congrFun List.filterMap_eq_map _)
    rw [Function.comp_apply, himaged.ends?_connectionOf h ho hp hq, Option.bind_some, if_pos rfl]
    rfl
  · intro p' hp' hne c hc
    obtain ⟨q, hq, rfl⟩ := List.mem_map.mp hc
    rw [himaged.ends?_connectionOf h ho hp' hq, Option.bind_some, if_neg]
    exact fun heq => hne (himaged.source_injective h ho ho hp' hp heq).2
  · intro o' ho' hne c hc
    obtain ⟨p', hp', hc⟩ := List.mem_flatMap.mp hc
    obtain ⟨q, hq, rfl⟩ := List.mem_map.mp hc
    rw [himaged.ends?_connectionOf h ho' hp' hq, Option.bind_some, if_neg]
    exact fun heq => hne (himaged.source_injective h ho' ho hp' hp heq).1

/-- And so it is with the inputs. -/
theorem target_injective (himaged : Imaged s place nodes image r g) (h : s.Exchangeable catalog nodes)
    {o' : NodeRef} {q' : ParamRef} (ho : o ∈ nodes) (ho' : o' ∈ nodes) (hq : q ∈ (s.node o).inputs)
    (hq' : q' ∈ (s.node o').inputs) (heq : s.target g (image o) q = s.target g (image o') q') :
    o = o' ∧ q = q' := by
  obtain ⟨t, ht, -, -⟩ := h.types o ho
  obtain ⟨t', ht', -, -⟩ := h.types o' ho'
  obtain ⟨-, hmem, hname⟩ := (himaged.mirrors o ho).target_spec ht hq
  obtain ⟨-, hmem', hname'⟩ := (himaged.mirrors o' ho').target_spec ht' hq'
  have howner := (himaged.mirrors o ho).owners _ (List.mem_append_left _ hmem)
  have howner' := (himaged.mirrors o' ho').owners _ (List.mem_append_left _ hmem')
  rw [heq, howner'] at howner
  have hsame := himaged.injective ho ho' (Owner.node.inj howner).symm
  subst hsame
  have htargets := congrArg (fun p => (g.param p).name) heq
  exact ⟨rfl, List.inj_on_of_nodup_map ht.nodup_inputs hq hq' ((hname.symm.trans htargets).trans hname')⟩

variable {g' : Graph}

/-- So these are the recipients of the image, once all connections are made. -/
theorem recipients_source (himaged : Imaged s place nodes image r g) (h : s.Exchangeable catalog nodes)
    (hready : g.Ready r.nodes) (hwires : Wires g r.nodes (s.wiresOf nodes) g') (ho : o ∈ nodes)
    (hp : p ∈ (s.node o).outputs) : (g'.param (s.source g (image o) p)).recipients =
      (s.param p).recipients.map fun q => s.target g (image (s.ownerOf q)) q := by
  obtain ⟨t, ht, -, -⟩ := h.types o ho
  have hmem := ((himaged.mirrors o ho).source_spec ht hp).2.1
  have hplaced : image o ∈ r.nodes.map Prod.snd := by
    rw [himaged.nodes, List.map_map]
    exact List.mem_map_of_mem ho
  rw [hwires.order, (hready.bare _ hplaced _ (List.mem_append_right _ hmem)).2, himaged.targets_source h ho hp,
    eraseDups_of_nodup, List.nil_append]
  refine (h.single o ho p hp).map_on fun q hq q' hq' heq => ?_
  obtain ⟨m, hm, howner, hside⟩ := h.wires o ho p hp q hq
  obtain ⟨m', hm', howner', hside'⟩ := h.wires o ho p hp q' hq'
  rw [Graph.ownerOf_eq howner, Graph.ownerOf_eq howner'] at heq
  exact (himaged.target_injective h hm hm' hside hside' heq).2

/-- The wires that leave the images stay among them. -/
theorem enclosed (himaged : Imaged s place nodes image r g) (h : s.Exchangeable catalog nodes)
    (hready : g.Ready r.nodes) (hwires : Wires g r.nodes (s.wiresOf nodes) g') :
    g'.Enclosed (nodes.map image) := by
  intro n hn p' hp' q' hq'
  obtain ⟨o, ho, rfl⟩ := List.mem_map.mp hn
  obtain ⟨t, ht, -, -⟩ := h.types o ho
  rw [hwires.node, (himaged.mirrors o ho).outputs_eq ht] at hp'
  obtain ⟨p, hp, rfl⟩ := List.mem_map.mp hp'
  rw [himaged.recipients_source h hready hwires ho hp] at hq'
  obtain ⟨q, hq, rfl⟩ := List.mem_map.mp hq'
  obtain ⟨m, hm, howner, hmem⟩ := h.wires o ho p hp q hq
  obtain ⟨t', ht', -, -⟩ := h.types m hm
  have howner' : s.ownerOf q = m := Graph.ownerOf_eq howner
  obtain ⟨-, hside, -⟩ := (himaged.mirrors m hm).target_spec ht' hmem
  refine ⟨image m, List.mem_map_of_mem hm, ?_⟩
  rw [howner', hwires.same]
  exact (himaged.mirrors m hm).owners _ (List.mem_append_left _ hside)

end Imaged

end Patchbay
