import Patchbay.Proofs.DataTree.RoundTrip
import Patchbay.Proofs.Keyed
import Patchbay.Proofs.Property.Applying
import Patchbay.Proofs.Slider.RoundTrip

/-!
# Properties are captured again

A node to which captured properties were applied has these properties.

* `PropertySource.attributes`, **`PropertySource.read_congr`** — what a source reads depends on the
  attributes that it names, and on nothing else of a node but its kind.
* **`PropertyDescriptor.Restores`** — any node to which the property is applied has it from then on, and
  keeps all attributes that the source does not name.
* **`PropertyTable.applyAll_restores`** — so does a table whose sources name different attributes.  The
  value and the rounding of a slider do not, so the value is not left to the table.
* **`Node.Presentable`** — a node with attributes of their declared types; its properties are restored
  (`Node.Presentable.restores`).
-/

namespace Patchbay

/-! ## What sources depend on -/

/-- The attributes that a node keeps in fields of its own, or makes up. -/
def Attribute.special : List Attribute :=
  [.id, .typeKey, .name, .pivot, .inputs, .outputs, .principal, .kind, .language, .description]

namespace Node

theorem read_eq (n : Node) {a : Attribute} (ha : a ∉ Attribute.special) :
    n.read a = (n.attributes.get? a).getD .null := by
  cases a <;> first
    | exact absurd (by decide) ha
    | rfl

theorem write_eq (n : Node) {a : Attribute} (ha : a ∉ Attribute.special) (v : Value) :
    n.write a v = .ok (n.put a v) := by
  have hcomputed : (computed n.kind).contains a = false := by
    rw [Bool.eq_false_iff, Ne, List.contains_iff_mem]
    intro hmem
    refine ha ?_
    unfold computed at hmem
    rcases List.mem_append.mp hmem with hmem | hmem
    · revert hmem
      simp only [List.mem_cons, List.not_mem_nil, or_false]
      rintro (rfl | rfl | rfl) <;> decide
    · split at hmem
      · rw [List.mem_singleton.mp hmem]
        decide
      · cases hmem
  unfold write
  rw [hcomputed]
  cases a <;> first
    | exact absurd (by decide) ha
    | rfl

end Node

namespace PropertySource

/-- The attributes that a source reads and writes. -/
def attributes : PropertySource → List Attribute
  | stored a => [a]
  | persistentData => [.persistentData]
  | sliderValue => .description :: Node.sliderAttributes
  | sliderRounding => [.rounding]
  | listItems => [.listItems]

/-- Whether a source reads an attribute as it is stored. -/
def isPlain : PropertySource → Bool
  | stored a => !Attribute.special.contains a
  | _ => true

/-- **What is read depends on the attributes that the source names.** -/
theorem read_congr {s : PropertySource} (hs : s.isPlain = true) {n m : Node} (hkind : m.kind = n.kind)
    (h : ∀ a ∈ s.attributes, m.attributes.get? a = n.attributes.get? a) : s.read m = s.read n := by
  have hread : ∀ a ∈ s.attributes, a ∉ Attribute.special → m.read a = n.read a := by
    intro a ha hplain
    rw [m.read_eq hplain, n.read_eq hplain, h a ha]
  cases s with
  | stored a =>
      have ha : a ∉ Attribute.special := by simpa [isPlain] using hs
      have hstored := hread a (by simp [attributes]) ha
      cases a with
      | description => exact absurd (by decide) ha
      | _ => exact congrArg pure hstored
  | persistentData =>
      unfold read
      rw [hread .persistentData (by simp [attributes]) (by decide)]
  | sliderValue =>
      have hslider : ∀ a ∈ Node.sliderAttributes, m.read a = n.read a := by
        intro a ha
        refine hread a (List.mem_cons_of_mem _ ha) ?_
        revert a
        decide
      unfold read Node.packedSlider Node.describe
      rw [hkind, hslider .rounding (by decide), hslider .decimals (by decide),
        hslider .minimum (by decide), hslider .maximum (by decide), hslider .value (by decide),
        h .description List.mem_cons_self]
  | sliderRounding =>
      unfold read
      rw [hread .rounding (by simp [attributes]) (by decide)]
  | listItems =>
      unfold read
      rw [h .listItems (by simp [attributes])]

end PropertySource

/-! ## Properties that are restored -/

namespace PropertyDescriptor

theorem capture?_congr {d : PropertyDescriptor} (hd : d.source.isPlain = true) {n m : Node}
    (hkind : m.kind = n.kind)
    (h : ∀ a ∈ d.source.attributes, m.attributes.get? a = n.attributes.get? a) :
    d.capture? m = d.capture? n := by
  rw [capture?, capture?, PropertySource.read_congr hd hkind h]

/-- A node to which the property is applied has it, and has kept the attributes that are not the
property's. -/
def Restores (d : PropertyDescriptor) (p : Property) : Prop :=
  ∀ n : Node, ∃ n', (d.apply n p).outcome.value = .ok n' ∧
    (∀ a ∉ d.source.attributes, n'.attributes.get? a = n.attributes.get? a) ∧
    (d.capture? n').outcome.value = .ok (some p)

/-- A node has the property, under a label, and would have it again. -/
def Keeps (d : PropertyDescriptor) (n : Node) : Prop :=
  ∃ p, (d.capture? n).outcome.value = .ok (some p) ∧ p.type ≠ "" ∧ d.Restores p

/-- What is captured of a node that has a value, if the value can be written. -/
theorem capture?_of_read {d : PropertyDescriptor} {n : Node} {v : Value} {p : Property}
    (hread : (d.source.read n).outcome.value = .ok v) (hv : v.isNull = false)
    (hlive : Property.ofLive v d.codec = .ok p) : (d.capture? n).outcome.value = .ok (some p) := by
  unfold capture?
  rw [Attempt.outcome_bind, hread]
  dsimp only
  rw [hv, hlive]
  rfl

theorem apply_of_toLive {d : PropertyDescriptor} {p : Property} {v : Value}
    (h : Property.toLive p.value d.codec = .ok v) (n : Node) :
    (d.apply n p).outcome.value = (d.source.write n v).outcome.value := by
  unfold apply
  rw [Attempt.outcome_bind, h]
  rfl

/-- A source of one attribute restores what it gives this attribute a value for. -/
theorem restores_of_put {d : PropertyDescriptor} {a : Attribute} {p : Property} {v w : Value}
    (hsource : d.source.attributes = [a]) (hlive : Property.toLive p.value d.codec = .ok v)
    (hwrite : ∀ n, (d.source.write n v).outcome.value = .ok (n.put a w))
    (hcapture : ∀ n : Node, n.attributes.get? a = some w →
      (d.capture? n).outcome.value = .ok (some p)) : d.Restores p := by
  intro n
  refine ⟨n.put a w, (apply_of_toLive hlive n).trans (hwrite n), ?_, ?_⟩
  · rw [hsource]
    exact fun b hb => Attributes.get?_put_of_ne _ w fun h => hb (by simp [h])
  · exact hcapture _ (Attributes.get?_put_self _ _ _)

end PropertyDescriptor

namespace Property

/-- A plain value as a captured property. -/
def plain (v : Value) : Property := ⟨v, v.jsonTypeName, .null⟩

theorem ofLive_plain {v : Value} (hv : v.isPlain = true) : ofLive v none = .ok (plain v) := by
  unfold ofLive written
  rw [hv]
  rfl

end Property

theorem Property.plain_type_ne {v : Value} (h : v.isPlain = true) : (plain v).type ≠ "" := by
  unfold plain
  dsimp only
  cases v <;> first
    | cases h; done
    | simp [Value.jsonTypeName]

theorem ListItem.ofValue_toValue (i : ListItem) : ofValue i.toValue = .ok i := by
  rfl

/-! ## The sources one by one -/

namespace PropertyDescriptor

variable {d : PropertyDescriptor} {n : Node}

theorem capture?_of_plain {v : Value} (hread : (d.source.read n).outcome.value = .ok v)
    (hcodec : d.codec = none) (hplain : v.isPlain = true) (hnull : v.isNull = false) :
    (d.capture? n).outcome.value = .ok (some (.plain v)) :=
  capture?_of_read hread hnull (by rw [hcodec, Property.ofLive_plain hplain])

theorem keeps_stored {a : Attribute} (hsource : d.source = .stored a) (hcodec : d.codec = none)
    (ha : a ∉ Attribute.special) {v : Value} (hn : n.attributes.get? a = some v)
    (hplain : v.isPlain = true) (hnull : v.isNull = false) : d.Keeps n := by
  have hcapture : ∀ n : Node, n.attributes.get? a = some v →
      (d.capture? n).outcome.value = .ok (some (.plain v)) := by
    intro n hn
    refine capture?_of_plain ?_ hcodec hplain hnull
    have hread : n.read a = v := by rw [n.read_eq ha, hn, Option.getD_some]
    rw [hsource]
    cases a with
    | description => exact absurd (by decide) ha
    | _ => exact congrArg Except.ok hread
  refine ⟨.plain v, hcapture n hn, Property.plain_type_ne hplain, restores_of_put (by rw [hsource]; rfl) (by rw [hcodec]; rfl) ?_ hcapture⟩
  intro n
  rw [hsource]
  change n.write a v = _
  exact n.write_eq ha v

theorem keeps_color (hsource : d.source = .stored .color) (hcodec : d.codec = some "Color") {c : Color}
    (hn : n.attributes.get? .color = some (.color (some c))) (hr : c.red ≤ 255) (hg : c.green ≤ 255)
    (hb : c.blue ≤ 255) (ha : c.alpha ≤ 255) : d.Keeps n := by
  have hcolor : Codec.color ∈ Codec.builtins.map Prod.fst := by simp [Codec.builtins]
  have hget : Registry.builtin.get "Color" = .ok Codec.color := by
    rw [Registry.get, show "Color" = Codec.color.typeName from rfl, (Registry.builtin_lookup hcolor).1]
  have hserialize : Codec.color.serialize (.color (some c)) =
      .ok (Codec.color.tag ++ ":" ++ Token.writeColor c) := rfl
  have hread : Codec.color.read (Token.writeColor c) = .ok (.color (some c)) := by
    simp only [Codec.color, Token.readColor_spec hr hg hb ha]
    rfl
  have hdecode := (Registry.deserialize_token hcolor hread rfl).1
  generalize Codec.color.tag ++ ":" ++ Token.writeColor c = token at hserialize hdecode
  have hwritten : Property.written (.color (some c)) (some "Color") = .ok (.str token, "Color") := by
    unfold Property.written
    simp only [hget, hserialize, bind, Except.bind]
    rfl
  obtain ⟨human, hlive⟩ : ∃ human, Property.ofLive (.color (some c)) (some "Color") =
      .ok ⟨.str token, "Color", human⟩ := by
    unfold Property.ofLive
    rw [hwritten]
    exact ⟨_, rfl⟩
  have hcapture : ∀ n : Node, n.attributes.get? .color = some (.color (some c)) →
      (d.capture? n).outcome.value = .ok (some ⟨.str token, "Color", human⟩) := by
    intro n hn
    refine capture?_of_read ?_ rfl (by rw [hcodec, hlive])
    rw [hsource]
    change Except.ok (n.read .color) = _
    rw [n.read_eq (by decide), hn, Option.getD_some]
  have hlabel : "Color" ≠ "" := by decide
  refine ⟨_, hcapture n hn, hlabel, restores_of_put (v := .color (some c)) (by rw [hsource]; rfl) ?_ ?_ hcapture⟩
  · rw [hcodec]
    unfold Property.toLive Registry.deserialize
    simp only [hget, bind, Except.bind]
    exact hdecode
  · intro n
    rw [hsource]
    exact n.write_eq (by decide) _

theorem keeps_rounding (hsource : d.source = .sliderRounding) (hcodec : d.codec = none) (n : Node) :
    d.Keeps n := by
  have hcapture : ∀ (n : Node) (r : Rounding), Rounding.read (n.read .rounding) = r →
      (d.capture? n).outcome.value = .ok (some (.plain (.str r.code))) := by
    intro n r hr
    refine capture?_of_plain ?_ hcodec rfl rfl
    rw [hsource, ← hr]
    rfl
  generalize hr : Rounding.read (n.read .rounding) = r
  have hcode : Rounding.read (.str r.code) = r := by cases r <;> decide
  refine ⟨_, hcapture n r hr, Property.plain_type_ne rfl, restores_of_put (a := .rounding) (v := .str r.code) (w := .rounding r)
    (by rw [hsource]; rfl) (by rw [hcodec]; rfl) (fun n => ?_) fun m hm => hcapture m r ?_⟩
  · rw [hsource]
    have hread : Rounding.read? (.str r.code) = .ok (Rounding.read (.str r.code)) := if_pos rfl
    change (do return n.put .rounding (.rounding (← Rounding.read? (.str r.code))) : Except Fault Node) = _
    rw [hread, hcode]
    rfl
  · rw [m.read_eq (by decide), hm]
    rfl

theorem keeps_listItems (hsource : d.source = .listItems) (hcodec : d.codec = none)
    {items : List ListItem} (hn : n.attributes.get? .listItems = some (.list (items.map .item))) :
    d.Keeps n := by
  have hcapture : ∀ n : Node, n.attributes.get? .listItems = some (.list (items.map .item)) →
      (d.capture? n).outcome.value = .ok (some (.plain (.list (items.map ListItem.toValue)))) := by
    intro n hn
    refine capture?_of_plain ?_ hcodec rfl rfl
    have hitems : (items.map Value.item).mapM listItemValue = .ok (items.map ListItem.toValue) := by
      rw [List.mapM_map]
      exact mapM_eq_ok fun _ _ => rfl
    rw [hsource]
    unfold PropertySource.read
    rw [hn]
    simp only [Value.elements, bind, Except.bind]
    rw [hitems]
    rfl
  refine ⟨_, hcapture n hn, Property.plain_type_ne rfl,
    restores_of_put (by rw [hsource]; rfl) (by rw [hcodec]; rfl) (fun n => ?_) hcapture⟩
  have hread : readListItems (items.map ListItem.toValue) = .ok (items.map .item) := by
    unfold readListItems
    rw [List.filter_eq_self.mpr, List.mapM_map]
    · exact mapM_eq_ok fun i _ => by rw [Function.comp_apply, ListItem.ofValue_toValue]; rfl
    · intro v hv
      obtain ⟨i, -, rfl⟩ := List.mem_map.mp hv
      rfl
  rw [hsource]
  change ((do return n.put .listItems (.list (← readListItems (items.map ListItem.toValue)))) :
    Except Fault Node) = _
  rw [hread]
  rfl

/-- A tree without branches is no property. -/
theorem capture?_noPersistentData (hsource : d.source = .persistentData)
    (hn : n.attributes.get? .persistentData = some (.tree [])) :
    (d.capture? n).outcome.value = .ok none := by
  have hread : n.read .persistentData = .tree [] := by rw [n.read_eq (by decide), hn, Option.getD_some]
  unfold capture?
  rw [hsource]
  unfold PropertySource.read
  rw [hread]
  rfl

theorem keeps_persistentData (hsource : d.source = .persistentData) (hcodec : d.codec = none)
    {branches : DataTree.Branches} (hn : n.attributes.get? .persistentData = some (.tree branches))
    (hexact : DataTree.Exact branches) (hne : branches ≠ []) : d.Keeps n := by
  obtain ⟨entries, read, hflatten, hexpand, hagain, hlength⟩ := DataTree.flatten_repeats hexact
  have hcapture : ∀ {t : DataTree.Branches}, t ≠ [] →
      (DataTree.flatten t).outcome.value = .ok (.object entries) → ∀ n : Node,
        n.attributes.get? .persistentData = some (.tree t) →
          (d.capture? n).outcome.value = .ok (some (.plain (.object entries))) := by
    intro t ht hflatten n hn
    refine capture?_of_plain ?_ hcodec rfl rfl
    have hread : n.read .persistentData = .tree t := by
      rw [n.read_eq (by decide), hn, Option.getD_some]
    have htruthy : (Value.tree t).truthy = true := by simpa [Value.truthy] using ht
    rw [hsource]
    unfold PropertySource.read
    rw [hread]
    dsimp only
    rw [if_pos htruthy]
    exact hflatten
  have hread : read ≠ [] := by
    rintro rfl
    exact hne (List.eq_nil_of_length_eq_zero hlength.symm)
  refine ⟨_, hcapture hne hflatten n hn, Property.plain_type_ne rfl,
    restores_of_put (by rw [hsource]; rfl) (by rw [hcodec]; rfl) (fun n => ?_) (hcapture hread hagain)⟩
  rw [hsource]
  change (do return n.put .persistentData (.tree (← DataTree.expand (.object entries))) :
    Attempt Node).outcome.value = _
  rw [Attempt.outcome_bind, hexpand]
  rfl

end PropertyDescriptor

/-! ## The table -/

namespace PropertyTable

variable {n : Node} {ps : Properties}

theorem passOver_ok {α : Type} {words : String} {instead a : α} {x : Attempt α}
    (h : x.outcome.value = .ok a) : (passOver words instead x).outcome.value = .ok a := by
  rw [outcome_passOver, h]

theorem applyOne_restores {d : PropertyDescriptor} (n : Node)
    (h : match ps.lookup d.name with
      | some p => d.Restores p
      | none => (d.capture? n).outcome.value = .ok none) :
    (applyOne ps d n).Succeeds fun r =>
      (∀ a ∉ d.source.attributes, r.1.attributes.get? a = n.attributes.get? a) ∧
        (d.capture? r.1).outcome.value = .ok (ps.lookup d.name) := by
  unfold applyOne
  cases hp : ps.lookup d.name with
  | none =>
      rw [hp] at h
      exact Attempt.succeeds_pure ⟨fun _ _ => rfl, h⟩
  | some p =>
      rw [hp] at h
      obtain ⟨n', happly, hframe, hcapture⟩ := h n
      refine ⟨(n', true), passOver_ok ?_, hframe, hcapture⟩
      rw [Attempt.outcome_bind, happly]
      rfl

/-- **Properties whose sources name different attributes are restored one after the other.** -/
theorem applyAll_restores {t : PropertyTable} (hopen : ∀ d ∈ t, d.source.isOpen = true)
    (hplain : ∀ d ∈ t, d.source.isPlain = true) (hdistinct : (t.flatMap (·.source.attributes)).Nodup)
    (h : ∀ d ∈ t, match ps.lookup d.name with
      | some p => d.Restores p
      | none => (d.capture? n).outcome.value = .ok none) :
    (applyAll ps t n).Succeeds fun r => n.Retouched r.1 ∧
      (∀ a ∉ t.flatMap (·.source.attributes), r.1.attributes.get? a = n.attributes.get? a) ∧
      ∀ d ∈ t, (d.capture? r.1).outcome.value = .ok (ps.lookup d.name) := by
  induction t generalizing n with
  | nil => exact Attempt.succeeds_pure ⟨.refl n, fun _ _ => rfl, fun _ hd => nomatch hd⟩
  | cons d rest ih =>
      rw [List.flatMap_cons, List.nodup_append] at hdistinct
      obtain ⟨-, hrest, hapart⟩ := hdistinct
      refine ((applyOne_succeeds (hopen d (by simp)) ps n).and
        (applyOne_restores n (h d (by simp)))).bind fun (n', _) ⟨hretouched, hframe, hcapture⟩ => ?_
      -- what is left of the table finds the attributes that it needs as they were
      have hothers : ∀ e ∈ rest, e.capture? n' = e.capture? n := by
        intro e he
        refine PropertyDescriptor.capture?_congr (hplain e (by simp [he])) hretouched.kind
          fun a ha => hframe a fun hmem => ?_
        exact hapart a hmem a (List.mem_flatMap.mpr ⟨e, he, ha⟩) rfl
      refine (ih (fun e he => hopen e (by simp [he])) (fun e he => hplain e (by simp [he])) hrest
        fun e he => ?_).bind fun (n'', _) ⟨hretouched', hframe', hcapture'⟩ => ?_
      · have hgiven := h e (by simp [he])
        rwa [← hothers e he] at hgiven
      · refine Attempt.succeeds_pure ⟨hretouched.trans hretouched', fun a ha => ?_, fun e he => ?_⟩
        · rw [List.flatMap_cons, List.mem_append, not_or] at ha
          exact (hframe' a ha.2).trans (hframe a ha.1)
        · rcases List.mem_cons.mp he with rfl | he
          · have hsame : e.capture? n'' = e.capture? n' :=
              PropertyDescriptor.capture?_congr (hplain e (by simp)) hretouched'.kind
                fun a ha => hframe' a fun hmem => hapart a ha a hmem rfl
            exact hsame ▸ hcapture
          · exact hcapture' e he

/-! ### What is exchanged for a kind of nodes -/

/-- The properties of the standard table that are exchanged in full for a kind of nodes. -/
def exchanged (exclude : List String) (k : NodeKind) : PropertyTable :=
  (standard.forKind (some k)).filter fun d =>
    Context.full.admits d.name (some k) && !exclude.contains d.name

theorem mem_of_exchanged {exclude : List String} {k : NodeKind} {d : PropertyDescriptor}
    (h : d ∈ exchanged exclude k) : d ∈ standard ∧ d.appliesTo (some k) = true :=
  List.mem_filter.mp (List.mem_filter.mp h).1

theorem isPlain_exchanged {exclude : List String} {k : NodeKind} :
    ∀ d ∈ exchanged exclude k, d.source.isPlain = true := by
  have hstandard : ∀ d ∈ standard, d.source.isPlain = true := by decide
  exact fun d hd => hstandard d (mem_of_exchanged hd).1

theorem actingKind_of_known (hn : n.attributes.get? .kind = none) : n.actingKind = .ok (some n.kind) := by
  unfold Node.actingKind
  rw [hn]

/-- What is captured of a node, told by what is captured of each property. -/
theorem capture_eq {f : PropertyDescriptor → Option Property} (hn : n.attributes.get? .kind = none)
    (h : ∀ d ∈ exchanged [] n.kind, (d.capture? n).outcome.value = .ok (f d)) :
    (standard.capture .full true [] n).outcome.value =
      .ok ((exchanged [] n.kind).filterMap fun d => (f d).map (d.name, ·)) := by
  unfold capture
  rw [Attempt.outcome_bind, actingKind_of_known hn]
  change (do
    let found ← (exchanged [] n.kind).mapM _
    return found.filterMap id : Attempt Properties).outcome.value = _
  rw [Attempt.outcome_bind, Attempt.outcome_mapM (g := fun d => (f d).map (d.name, ·))]
  · change Except.ok (((exchanged [] n.kind).map _).filterMap id) = _
    rw [List.filterMap_map]
    rfl
  · intro d hd
    rw [Attempt.outcome_bind, passOver_ok (h d hd)]
    rfl

/-- What is applied is what would be captured. -/
theorem apply_restores {exclude : List String} (hn : n.attributes.get? .kind = none)
    (hdistinct : ((exchanged exclude n.kind).flatMap (·.source.attributes)).Nodup)
    (h : ∀ d ∈ exchanged exclude n.kind, match ps.lookup d.name with
      | some p => d.Restores p
      | none => (d.capture? n).outcome.value = .ok none) :
    (standard.apply .full exclude n ps).Succeeds fun r => n.Retouched r.1 ∧
      (∀ a ∉ (exchanged exclude n.kind).flatMap (·.source.attributes),
        r.1.attributes.get? a = n.attributes.get? a) ∧
      ∀ d ∈ exchanged exclude n.kind, (d.capture? r.1).outcome.value = .ok (ps.lookup d.name) := by
  have hwritten : ∀ d ∈ standard, d.readOnly = false := by decide
  have htable : ((standard.forKind (some n.kind)).filter fun d =>
      !d.readOnly && !exclude.contains d.name && Context.full.admits d.name (some n.kind)) =
      exchanged exclude n.kind := by
    refine List.filter_congr fun d hd => ?_
    rw [hwritten d (List.mem_filter.mp hd).1, Bool.not_false, Bool.true_and, Bool.and_comm]
  unfold apply
  refine (Attempt.succeeds_ofExcept (Q := (· = some n.kind)) (actingKind_of_known hn) rfl).bind
    fun kind hkind => ?_
  subst hkind
  refine (Attempt.succeeds_forM fun p _ =>
    reportIgnored_succeeds standard .full exclude hn (some n.kind) p.1).bind fun _ _ => ?_
  rw [htable]
  exact applyAll_restores (fun d hd => isOpen_standard d (mem_of_exchanged hd).1) isPlain_exchanged
    hdistinct h

end PropertyTable

/-! ## Nodes with attributes of their declared types -/

/-- A node that is no script, and that has what its kind declares: texts and truth values, a data tree of
items that lose nothing, a slider value within its limits, a colour with channels in range. -/
structure Node.Presentable (n : Node) : Prop where
  known : n.attributes.get? .kind = none
  noScript : n.kind ≠ .script
  nickName : ∃ s, n.attributes.get? .nickName = some (.str s)
  locked : ∃ b, n.attributes.get? .locked = some (.bool b)
  hidden : ∃ b, n.attributes.get? .hidden = some (.bool b)
  data : n.kind = .parameter → ∃ branches, n.attributes.get? .persistentData = some (.tree branches) ∧
    DataTree.Exact branches
  slider : n.kind = .slider → ∃ value low high places text, n.Packable value low high places text
  userText : n.kind = .panel → ∃ s, n.attributes.get? .userText = some (.str s)
  text : n.kind = .scribble → ∃ s, n.attributes.get? .text = some (.str s)
  listMode : n.kind = .valueList → ∃ s, n.attributes.get? .listMode = some (.str s)
  listItems : n.kind = .valueList → ∃ items : List ListItem,
    n.attributes.get? .listItems = some (.list (items.map .item))
  state : n.kind = .toggle → ∃ b, n.attributes.get? .value = some (.bool b)
  color : n.kind = .swatch → ∃ c : Color, n.attributes.get? .color = some (.color (some c)) ∧
    c.red ≤ 255 ∧ c.green ≤ 255 ∧ c.blue ≤ 255 ∧ c.alpha ≤ 255

/-- What a property of a node comes to: it is captured and would be restored; or it is a data tree
without branches, which is nothing to capture. -/
def PropertyDescriptor.Settled (d : PropertyDescriptor) (n : Node) : Prop :=
  d.Keeps n ∨ (d.source = .persistentData ∧ (d.capture? n).outcome.value = .ok none)

namespace Node.Presentable

variable {n : Node}

theorem settled (h : n.Presentable) {d : PropertyDescriptor} (hd : d ∈ PropertyTable.exchanged [] n.kind)
    (hslider : d.source ≠ .sliderValue) : d.Settled n := by
  obtain ⟨hd, hkind⟩ := PropertyTable.mem_of_exchanged hd
  have hown : ∀ {k : NodeKind}, d.kinds = some [k] → n.kind = k := by
    intro k hk
    unfold PropertyDescriptor.appliesTo at hkind
    rw [hk] at hkind
    simpa using hkind
  have hstored : ∀ {a : Attribute} {v : Value}, d.source = .stored a → d.codec = none →
      a ∉ Attribute.special → n.attributes.get? a = some v → v.isPlain = true → v.isNull = false →
        d.Settled n :=
    fun hsource hcodec ha hn hplain hnull =>
      Or.inl (PropertyDescriptor.keeps_stored hsource hcodec ha hn hplain hnull)
  simp only [PropertyTable.standard, List.mem_cons, List.not_mem_nil, or_false] at hd
  rcases hd with hd | hd | hd | hd | hd | hd | hd | hd | hd | hd | hd | hd | hd | hd | hd
  · obtain ⟨s, hs⟩ := h.nickName
    exact hstored (by rw [hd]; rfl) (by rw [hd]; rfl) (by decide) hs rfl rfl
  · obtain ⟨b, hb⟩ := h.locked
    exact hstored (by rw [hd]; rfl) (by rw [hd]; rfl) (by decide) hb rfl rfl
  · obtain ⟨b, hb⟩ := h.hidden
    exact hstored (by rw [hd]; rfl) (by rw [hd]; rfl) (by decide) hb rfl rfl
  · obtain ⟨branches, hn, hexact⟩ := h.data (hown (by rw [hd]))
    have hsource : d.source = .persistentData := by rw [hd]
    by_cases hne : branches = []
    · subst hne
      exact Or.inr ⟨hsource, PropertyDescriptor.capture?_noPersistentData hsource hn⟩
    · exact Or.inl (PropertyDescriptor.keeps_persistentData hsource (by rw [hd]) hn hexact hne)
  · obtain ⟨s, hs⟩ := h.userText (hown (by rw [hd]; rfl))
    exact hstored (by rw [hd]; rfl) (by rw [hd]; rfl) (by decide) hs rfl rfl
  · obtain ⟨s, hs⟩ := h.text (hown (by rw [hd]; rfl))
    exact hstored (by rw [hd]; rfl) (by rw [hd]; rfl) (by decide) hs rfl rfl
  · exact absurd (by rw [hd]) hslider
  · exact Or.inl (PropertyDescriptor.keeps_rounding (by rw [hd]) (by rw [hd]) n)
  · obtain ⟨s, hs⟩ := h.listMode (hown (by rw [hd]; rfl))
    exact hstored (by rw [hd]; rfl) (by rw [hd]; rfl) (by decide) hs rfl rfl
  · obtain ⟨items, hitems⟩ := h.listItems (hown (by rw [hd]))
    exact Or.inl (PropertyDescriptor.keeps_listItems (by rw [hd]) (by rw [hd]) hitems)
  · exact absurd (hown (by rw [hd]; rfl)) h.noScript
  · exact absurd (hown (by rw [hd]; rfl)) h.noScript
  · exact absurd (hown (by rw [hd]; rfl)) h.noScript
  · obtain ⟨b, hb⟩ := h.state (hown (by rw [hd]; rfl))
    exact hstored (by rw [hd]; rfl) (by rw [hd]; rfl) (by decide) hb rfl rfl
  · obtain ⟨c, hc, hr, hg, hb, ha⟩ := h.color (hown (by rw [hd]))
    exact Or.inl (PropertyDescriptor.keeps_color (by rw [hd]) (by rw [hd]) hc hr hg hb ha)

end Node.Presentable

/-! ## All properties of a node -/

/-- Properties as they are captured of a node of a kind, and as they would be restored. -/
structure Properties.Restorable (k : NodeKind) (ps : Properties) : Prop where
  listed : ((PropertyTable.exchanged [] k).filterMap fun d => (ps.lookup d.name).map (d.name, ·)) = ps
  labelled : ∀ p ∈ ps, p.2.type ≠ ""
  single : ∀ d ∈ PropertyTable.exchanged [] k, d.source ≠ .sliderValue →
    match ps.lookup d.name with
    | some p => d.Restores p
    | none => d.source = .persistentData
  packed : k = .slider → ∃ packed value low high places,
    ps.lookup "CurrentValue" = some (.plain (.str packed)) ∧
      (∀ m : Node, m.kind = .slider → ∃ m', m.applySlider packed = .ok m' ∧
        m'.IsSlider value low high places ∧
        ∀ a ∉ Node.sliderAttributes, m'.attributes.get? a = m.attributes.get? a) ∧
      ∀ m : Node, m.IsSlider value low high places → m.packedSlider.outcome.value = .ok packed

/-- The node has the properties, and no others. -/
structure Node.Presents (n : Node) (ps : Properties) : Prop where
  known : n.attributes.get? .kind = none
  captured : ∀ d ∈ PropertyTable.exchanged [] n.kind,
    (d.capture? n).outcome.value = .ok (ps.lookup d.name)

namespace PropertyTable

theorem nodup_names (exclude : List String) (k : NodeKind) :
    ((exchanged exclude k).map PropertyDescriptor.name).Nodup := by
  have hsublist : (exchanged exclude k).Sublist standard :=
    List.filter_sublist.trans List.filter_sublist
  have hstandard : (standard.map PropertyDescriptor.name).Nodup := by decide
  exact (hsublist.map PropertyDescriptor.name).nodup hstandard

/-- The value of a slider is the one property that names attributes of another. -/
theorem packed_of_source {d : PropertyDescriptor} (hd : d ∈ standard) (h : d.source = .sliderValue) :
    d.name = "CurrentValue" ∧ d.codec = none ∧ d.kinds = some [.slider] := by
  revert d
  decide

/-- Only sliders have a packed value. -/
theorem kind_of_source {d : PropertyDescriptor} {k : NodeKind} (hd : d ∈ exchanged [] k)
    (h : d.source = .sliderValue) : k = .slider := by
  obtain ⟨hd, hkind⟩ := mem_of_exchanged hd
  unfold PropertyDescriptor.appliesTo at hkind
  rw [(packed_of_source hd h).2.2] at hkind
  simpa using hkind

theorem capture?_packed {d : PropertyDescriptor} (hd : d ∈ standard) (h : d.source = .sliderValue)
    {n : Node} {packed : String} (hn : n.packedSlider.outcome.value = .ok packed) :
    (d.capture? n).outcome.value = .ok (some (.plain (.str packed))) := by
  refine PropertyDescriptor.capture?_of_plain ?_ (packed_of_source hd h).2.1 rfl rfl
  rw [h]
  change (Value.str <$> n.packedSlider : Attempt Value).outcome.value = _
  rw [map_eq_pure_bind, Attempt.outcome_bind, hn]
  rfl

end PropertyTable

namespace Node

variable {n : Node} {ps : Properties}

theorem Presents.capture (h : n.Presents ps) (hps : Properties.Restorable n.kind ps) :
    (PropertyTable.standard.capture .full true [] n).outcome.value = .ok ps :=
  (PropertyTable.capture_eq h.known h.captured).trans (congrArg Except.ok hps.listed)

/-- Which properties a node has depends on its kind and its attributes.  Its selection is no
property. -/
theorem Presents.congr (h : n.Presents ps) {m : Node} (hkind : m.kind = n.kind)
    (hattributes : ∀ a ≠ .selected, m.attributes.get? a = n.attributes.get? a) : m.Presents ps where
  known := (hattributes .kind (by decide)).trans h.known
  captured := by
    intro d hd
    rw [hkind] at hd
    have hselected : ∀ d ∈ PropertyTable.standard, .selected ∉ d.source.attributes := by decide
    have hsame : d.capture? m = d.capture? n :=
      PropertyDescriptor.capture?_congr (PropertyTable.isPlain_exchanged d hd) hkind fun a ha =>
        hattributes a fun heq => hselected d (PropertyTable.mem_of_exchanged hd).1 (heq ▸ ha)
    rw [hsame]
    exact h.captured d hd

/-- The packed value of a slider that can be packed is captured, and would be restored. -/
theorem Presentable.packed (h : n.Presentable) (hslider : n.kind = .slider) :
    ∃ packed value low high places, n.packedSlider.outcome.value = .ok packed ∧
      (∀ m : Node, m.kind = .slider → ∃ m', m.applySlider packed = .ok m' ∧
        m'.IsSlider value low high places ∧
        ∀ a ∉ sliderAttributes, m'.attributes.get? a = m.attributes.get? a) ∧
      ∀ m : Node, m.IsSlider value low high places → m.packedSlider.outcome.value = .ok packed := by
  obtain ⟨value, low, high, places, text, hpackable⟩ := h.slider hslider
  exact packedSlider_applySlider hpackable

/-- A property of such a node is captured or left out, and what is captured has the label of its type. -/
theorem Presentable.exists_captured (h : n.Presentable) {d : PropertyDescriptor}
    (hd : d ∈ PropertyTable.exchanged [] n.kind) :
    ∃ p, (d.capture? n).outcome.value = .ok p ∧ ∀ q ∈ p, q.type ≠ "" := by
  by_cases hsource : d.source = .sliderValue
  · obtain ⟨packed, _, _, _, _, hpacked, -⟩ := h.packed (PropertyTable.kind_of_source hd hsource)
    refine ⟨_, PropertyTable.capture?_packed (PropertyTable.mem_of_exchanged hd).1 hsource hpacked, ?_⟩
    exact fun q hq => Option.some.inj hq ▸ Property.plain_type_ne rfl
  · rcases h.settled hd hsource with ⟨p, hp, hlabel, -⟩ | ⟨-, hp⟩
    · exact ⟨_, hp, fun q hq => Option.some.inj hq ▸ hlabel⟩
    · exact ⟨_, hp, fun q hq => nomatch hq⟩

/-- **The properties of a node with attributes of their declared types would be restored.** -/
theorem Presentable.presents (h : n.Presentable) :
    ∃ ps, n.Presents ps ∧ Properties.Restorable n.kind ps := by
  generalize hf : (fun d : PropertyDescriptor => ((d.capture? n).outcome.value.toOption).join) = f
  have hvalue : ∀ d ∈ PropertyTable.exchanged [] n.kind, (d.capture? n).outcome.value = .ok (f d) := by
    intro d hd
    obtain ⟨p, hp, -⟩ := h.exists_captured hd
    simp only [← hf, hp]
    rfl
  have hlookup := fun d hd => Keyed.lookup_filterMap f (PropertyTable.nodup_names [] n.kind) (i := d) hd
  refine ⟨(PropertyTable.exchanged [] n.kind).filterMap fun d => (f d).map (d.name, ·),
    ⟨h.known, fun d hd => ?_⟩, ?_, fun p hp => ?_, fun d hd hsource => ?_, fun hkind => ?_⟩
  · rw [hlookup d hd]
    exact hvalue d hd
  · exact List.filterMap_congr fun d hd => by rw [hlookup d hd]
  · obtain ⟨d, hd, hsome⟩ := List.mem_filterMap.mp hp
    obtain ⟨q, hq, rfl⟩ := Option.map_eq_some_iff.mp hsome
    obtain ⟨p, hp, hlabel⟩ := h.exists_captured hd
    rw [hvalue d hd] at hp
    exact hlabel q (Except.ok.inj hp ▸ hq)
  · rw [hlookup d hd]
    rcases h.settled hd hsource with ⟨p, hp, -, hrestores⟩ | ⟨hdata, hp⟩
    · rw [hvalue d hd] at hp
      rw [Except.ok.inj hp]
      exact hrestores
    · rw [hvalue d hd] at hp
      rw [Except.ok.inj hp]
      exact hdata
  · obtain ⟨packed, value, low, high, places, hpacked, happly, hagain⟩ := h.packed hkind
    refine ⟨packed, value, low, high, places, ?_, happly, hagain⟩
    have hd : (⟨"CurrentValue", .sliderValue, some [.slider], none, false⟩ : PropertyDescriptor) ∈
        PropertyTable.exchanged [] n.kind := by
      rw [hkind]
      decide
    have hcaptured := hvalue _ hd
    rw [PropertyTable.capture?_packed (PropertyTable.mem_of_exchanged hd).1 rfl hpacked] at hcaptured
    rw [Except.ok.inj hcaptured]
    exact hlookup _ hd

end Node

/-! ## Restoring all of them -/

/-- Attributes that are captured, but not as properties. -/
def Attribute.aside : List Attribute := [.selected, .warnings, .errors]

namespace Properties.Restorable

variable {n : Node} {ps : Properties}

/-- What the table finds on a node that was not configured yet: where nothing was captured, there is
nothing. -/
theorem given {exclude : List String} (h : Restorable n.kind ps)
    (hexclude : ∀ d ∈ PropertyTable.exchanged exclude n.kind, d.source ≠ .sliderValue)
    (hdata : n.kind = .parameter → n.attributes.get? .persistentData = some (.tree []))
    {d : PropertyDescriptor} (hd : d ∈ PropertyTable.exchanged exclude n.kind) :
    match ps.lookup d.name with
    | some p => d.Restores p
    | none => (d.capture? n).outcome.value = .ok none := by
  have hmem : d ∈ PropertyTable.exchanged [] n.kind := by
    obtain ⟨hd, hadmits⟩ := List.mem_filter.mp hd
    rw [Bool.and_eq_true] at hadmits
    exact List.mem_filter.mpr ⟨hd, by simpa using hadmits.1⟩
  have hsingle := h.single d hmem (hexclude d hd)
  cases hp : ps.lookup d.name with
  | some p =>
      rw [hp] at hsingle
      exact hsingle
  | none =>
      rw [hp] at hsingle
      obtain ⟨hstandard, hkind⟩ := PropertyTable.mem_of_exchanged hd
      have hparameter : ∀ d ∈ PropertyTable.standard, d.source = .persistentData →
          d.kinds = some [.parameter] := by decide
      unfold PropertyDescriptor.appliesTo at hkind
      rw [hparameter d hstandard hsingle] at hkind
      exact PropertyDescriptor.capture?_noPersistentData hsingle (hdata (by simpa using hkind))

/-- **A new node that is no slider has the properties after they were applied.** -/
theorem apply (h : Restorable n.kind ps) (hn : n.attributes.get? .kind = none)
    (hslider : n.kind ≠ .slider)
    (hdata : n.kind = .parameter → n.attributes.get? .persistentData = some (.tree [])) :
    (PropertyTable.standard.apply .full [] n ps).Succeeds fun r => n.Retouched r.1 ∧ r.1.Presents ps ∧
      ∀ a ∈ Attribute.aside, r.1.attributes.get? a = n.attributes.get? a := by
  have hexclude : ∀ k, k ≠ .slider → ∀ d ∈ PropertyTable.exchanged [] k, d.source ≠ .sliderValue := by
    intro k hk
    cases k <;> first
      | exact absurd rfl hk
      | decide
  have hdistinct : ∀ k, k ≠ .slider →
      ((PropertyTable.exchanged [] k).flatMap (·.source.attributes)).Nodup := by
    intro k hk
    cases k <;> first
      | exact absurd rfl hk
      | decide
  refine (PropertyTable.apply_restores hn (hdistinct _ hslider)
    fun d hd => h.given (hexclude _ hslider) hdata hd).mono fun r ⟨hretouched, hframe, hcaptured⟩ => ?_
  refine ⟨hretouched, ⟨(hretouched.reserved .kind (by decide)).trans hn, ?_⟩, fun a ha => hframe a ?_⟩
  · rw [hretouched.kind]
    exact hcaptured
  · have haside : ∀ k, ∀ a ∈ Attribute.aside,
        a ∉ (PropertyTable.exchanged [] k).flatMap (·.source.attributes) := by
      intro k
      cases k <;> decide
    exact haside _ a ha

/-- **A new slider has the properties after it was configured from the packed value and the others were
applied.** -/
theorem applySlider (h : Restorable n.kind ps) (hn : n.attributes.get? .kind = none)
    (hslider : n.kind = .slider) :
    ∃ packed n', ps.lookup "CurrentValue" = some (.plain (.str packed)) ∧
      n.applySlider packed = .ok n' ∧
      (PropertyTable.standard.apply .full ["CurrentValue"] n' ps).Succeeds fun r =>
        n'.Retouched r.1 ∧ r.1.Presents ps ∧
          ∀ a ∈ Attribute.aside, r.1.attributes.get? a = n.attributes.get? a := by
  obtain ⟨packed, value, low, high, places, hlookup, happly, hagain⟩ := h.packed hslider
  obtain ⟨n', hn', hIsSlider, hrest⟩ := happly n hslider
  have hretouched := Node.applySlider_retouched hn'
  refine ⟨packed, n', hlookup, hn', ?_⟩
  rw [← hretouched.kind] at h
  have hkind := hretouched.kind.trans hslider
  have hknown := (hretouched.reserved .kind (by decide)).trans hn
  have hexclude : ∀ d ∈ PropertyTable.exchanged ["CurrentValue"] n'.kind, d.source ≠ .sliderValue := by
    rw [hkind]
    decide
  have hdistinct :
      ((PropertyTable.exchanged ["CurrentValue"] n'.kind).flatMap (·.source.attributes)).Nodup := by
    rw [hkind]
    decide
  refine (PropertyTable.apply_restores hknown hdistinct
    fun d hd => h.given hexclude (fun hk => by rw [hkind] at hk; cases hk) hd).mono
    fun r ⟨hretouched', hframe, hcaptured⟩ => ?_
  refine ⟨hretouched', ⟨(hretouched'.reserved .kind (by decide)).trans hknown, ?_⟩, fun a ha => ?_⟩
  case refine_2 =>
    have haside : a ∉ (PropertyTable.exchanged ["CurrentValue"] n'.kind).flatMap (·.source.attributes) ∧
        a ∉ Node.sliderAttributes := by
      rw [hkind]
      revert a
      decide
    exact (hframe a haside.1).trans (hrest a haside.2)
  rw [hretouched'.kind]
  -- the other properties of a slider leave its value and its limits alone
  have hstill : r.1.IsSlider value low high places := by
    have hsame : ∀ a ∈ [Attribute.value, .minimum, .maximum, .decimals],
        r.1.attributes.get? a = n'.attributes.get? a := by
      intro a ha
      refine hframe a ?_
      rw [hkind]
      revert a
      decide
    exact ⟨hretouched'.kind.trans hkind, (hsame _ (by decide)).trans hIsSlider.value,
      (hsame _ (by decide)).trans hIsSlider.minimum, (hsame _ (by decide)).trans hIsSlider.maximum,
      (hsame _ (by decide)).trans hIsSlider.places⟩
  intro d hd
  by_cases hsource : d.source = .sliderValue
  · have hstandard := (PropertyTable.mem_of_exchanged hd).1
    rw [(PropertyTable.packed_of_source hstandard hsource).1, hlookup]
    exact PropertyTable.capture?_packed hstandard hsource (hagain _ hstill)
  · refine hcaptured d ?_
    rw [hkind] at hd ⊢
    revert d
    decide

end Properties.Restorable

end Patchbay
