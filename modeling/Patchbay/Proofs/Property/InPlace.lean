import Patchbay.Proofs.Property.Restoring

/-!
# Properties that fail leave no trace

A table works on the node itself: a property is decoded, its attributes are written one after the other, and
what cannot be applied is passed over. Nothing is taken back, so a property that failed half way would be
seen.

* `PropertySource.perform`, `PropertyTable.perform` — the same as `write` and `apply`, attribute by attribute on
  the node as a state, which a fault leaves as it then is
* **`PropertySource.write_or_refuse`** — whatever the node, a value is refused before anything is written, or all
  the attributes that belong to the source are.  This is where each source is looked at.
* `PropertyTable.written?`, `PropertyTable.applied` — what applying comes to; whether a property can be written
  does not depend on the node (`written?_isSome_congr`), so properties that share attributes do not get
  in each other's way.
* `PropertyTable.applied_congr` — records that are not applied might as well not be there.
* **`PropertyTable.apply_traceless`** — all of it for the standard table
-/

namespace Patchbay

namespace Procedure

theorem result_ofResult {σ α : Type} (x : Except Fault α) (s : σ) : (ofResult x).result s = (x, s) := rfl

theorem result_attempt {σ α : Type} (x : Attempt α) (s : σ) : (attempt x).result s = (x.outcome.value, s) := rfl

end Procedure

/-! ## Attributes one after the other -/

namespace Node

/-- Gives attributes values, one after the other. -/
def putAll (n : Node) (changes : List (Attribute × Value)) : Node :=
  changes.foldl (fun n change => n.put change.1 change.2) n

theorem get?_putAll_of_notMem (n : Node) {changes : List (Attribute × Value)} {a : Attribute}
    (h : a ∉ changes.map Prod.fst) : (n.putAll changes).attributes.get? a = n.attributes.get? a := by
  induction changes generalizing n with
  | nil => rfl
  | cons change rest ih =>
      rw [List.map_cons, List.mem_cons, not_or] at h
      exact (ih (n.put change.1 change.2) h.2).trans (Attributes.get?_put_of_ne _ _ h.1)

/-- Writes an attribute of the node itself. -/
def assign (a : Attribute) (v : Value) : Procedure Node Unit := do
  set (← Procedure.ofResult ((← MonadState.get).write a v))

theorem result_assign {a : Attribute} (ha : a ∉ Attribute.special) (v : Value) (n : Node) :
    (assign a v).result n = (.ok (), n.put a v) := by
  unfold assign
  rw [Procedure.result_bind]
  show (do set (← Procedure.ofResult (n.write a v)) : Procedure Node Unit).result n = _
  rw [n.write_eq ha v]
  rfl

/-- Writes attributes of the node itself, one after the other. -/
def assignAll (changes : List (Attribute × Value)) : Procedure Node Unit :=
  changes.forM fun change => assign change.1 change.2

theorem result_assignAll (changes : List (Attribute × Value))
    (h : ∀ a ∈ changes.map Prod.fst, a ∉ Attribute.special) (n : Node) :
    (assignAll changes).result n = (.ok (), n.putAll changes) := by
  induction changes generalizing n with
  | nil => rfl
  | cons change rest ih =>
      show (assign change.1 change.2 >>= fun _ => assignAll rest).result n = _
      rw [Procedure.result_bind, result_assign (h change.1 List.mem_cons_self)]
      exact ih (fun a ha => h a (List.mem_cons_of_mem _ ha)) _

end Node

namespace PropertySource

/-- The attributes of a slider that its packed value gives. -/
def sliderChanges (p : Slider.Packed) : List (Attribute × Value) :=
  [(.minimum, .decimal p.minimum), (.maximum, .decimal p.maximum), (.decimals, .int p.places),
    (.rounding, .rounding (if p.places = 0 then .integer else .float)), (.value, .decimal p.value)]

/-- Writes a property to the node itself, attribute by attribute. -/
def perform (s : PropertySource) (v : Value) : Procedure Node Unit :=
  match s with
  | stored a => Node.assign a v
  | persistentData => do Node.assign .persistentData (.tree (← Procedure.attempt (DataTree.expand v)))
  | sliderValue => do
    let p ← Procedure.ofResult do Slider.unpack (← v.text?)
    Node.assignAll (sliderChanges p)
  | sliderRounding => do Node.assign .rounding (.rounding (← Procedure.ofResult (Rounding.read? v)))
  | listItems =>
    match v with
    | .list items => do Node.assign .listItems (.list (← Procedure.ofResult (readListItems items)))
    | other => throw (.itemsNotList other.kind.typeName)

/-- A value is refused whatever the node, and the node stays as it was. -/
def Refused (s : PropertySource) (v : Value) : Prop :=
  ∃ fault, ∀ n, (s.write n v).outcome.value = .error fault ∧ (s.perform v).result n = (.error fault, n)

/-- A value is written whatever the node, to attributes of the source only. -/
def Taken (s : PropertySource) (v : Value) : Prop :=
  ∃ changes : List (Attribute × Value), changes.map Prod.fst ⊆ s.attributes ∧
    ∀ n, (s.write n v).outcome.value = .ok (n.putAll changes) ∧ (s.perform v).result n = (.ok (), n.putAll changes)

/-- Decoding comes first, and what comes after it cannot fail. -/
theorem write_or_refuse_of_decoded {s : PropertySource} {v : Value} {α : Type} {x : Attempt α}
    {finish : α → Procedure Node Unit} (changes : α → List (Attribute × Value))
    (hattributes : ∀ y, (changes y).map Prod.fst ⊆ s.attributes)
    (hfinish : ∀ y n, (finish y).result n = (.ok (), n.putAll (changes y)))
    (hwrite : ∀ n, (s.write n v).outcome.value = x.outcome.value.map fun y => n.putAll (changes y))
    (hperform : s.perform v = Procedure.attempt x >>= finish) : s.Refused v ∨ s.Taken v := by
  cases hx : x.outcome.value with
  | error fault =>
      refine .inl ⟨fault, fun n => ⟨?_, ?_⟩⟩
      · rw [hwrite, hx]
        rfl
      · rw [hperform, Procedure.result_bind, Procedure.result_attempt, hx]
  | ok y =>
      refine .inr ⟨changes y, hattributes y, fun n => ⟨?_, ?_⟩⟩
      · rw [hwrite, hx]
        rfl
      · rw [hperform, Procedure.result_bind, Procedure.result_attempt, hx]
        exact hfinish y n

/-- A source that has one attribute. -/
theorem write_or_refuse_of_single {s : PropertySource} {v : Value} {α : Type} {x : Attempt α} {a : Attribute}
    {f : α → Value} (hattributes : s.attributes = [a]) (ha : a ∉ Attribute.special)
    (hwrite : ∀ n, (s.write n v).outcome.value = x.outcome.value.map fun y => n.put a (f y))
    (hperform : s.perform v = Procedure.attempt x >>= fun y => Node.assign a (f y)) : s.Refused v ∨ s.Taken v :=
  write_or_refuse_of_decoded (fun y => [(a, f y)]) (fun _ => hattributes ▸ List.Subset.refl _)
    (fun y n => Node.result_assign ha (f y) n) hwrite hperform

/-- **A value is refused before anything is written, or all of it is written**, whatever the node. -/
theorem write_or_refuse {s : PropertySource} (hs : s.isPlain = true) (v : Value) : s.Refused v ∨ s.Taken v := by
  cases s with
  | stored a =>
      have ha : a ∉ Attribute.special := by simpa [isPlain] using hs
      exact write_or_refuse_of_single (x := pure v) (f := id) rfl ha (fun n => n.write_eq ha v) rfl
  | persistentData =>
      exact write_or_refuse_of_single (x := DataTree.expand v) (f := .tree) rfl (by decide)
        (fun n => Attempt.outcome_bind_pure (DataTree.expand v) fun branches =>
          n.put .persistentData (.tree branches)) rfl
  | sliderValue =>
      have hspecial : ∀ a ∈ Node.sliderAttributes, a ∉ Attribute.special := by decide
      refine write_or_refuse_of_decoded (x := Attempt.ofExcept (v.text? >>= Slider.unpack)) sliderChanges
        (fun _ => List.subset_cons_self _ _) (fun p n => Node.result_assignAll (sliderChanges p) hspecial n)
        (fun n => ?_) rfl
      -- five attributes are written, but only after all of the text was read
      show (v.text? >>= n.applySlider) = (v.text? >>= Slider.unpack).map _
      cases v.text? with
      | error fault => rfl
      | ok text =>
          show n.applySlider text = (Slider.unpack text).map _
          unfold Node.applySlider
          cases Slider.unpack text <;> rfl
  | sliderRounding =>
      refine write_or_refuse_of_single (x := Attempt.ofExcept (Rounding.read? v)) (f := .rounding) rfl (by decide)
        (fun n => ?_) rfl
      show (do return n.put .rounding (.rounding (← Rounding.read? v)) : Except Fault Node) = _
      cases Rounding.read? v <;> rfl
  | listItems =>
      cases v with
      | list items =>
          refine write_or_refuse_of_single (x := Attempt.ofExcept (readListItems items)) (f := .list) rfl (by decide)
            (fun n => ?_) rfl
          show (do return n.put .listItems (.list (← readListItems items)) : Except Fault Node) = _
          cases readListItems items <;> rfl
      | _ => exact .inl ⟨_, fun n => ⟨rfl, rfl⟩⟩

end PropertySource

/-! ## One property -/

namespace PropertyDescriptor

/-- Writes the value of a captured property to the node itself. -/
def perform (d : PropertyDescriptor) (p : Property) : Procedure Node Unit := do
  d.source.perform (← Procedure.ofResult (Property.toLive p.value d.codec))

variable {d : PropertyDescriptor}

/-- A property is refused whatever the node, which stays as it was, or its attributes are written. -/
theorem apply_or_refuse (hd : d.source.isPlain = true) (p : Property) :
    (∃ fault, ∀ n, (d.apply n p).outcome.value = .error fault ∧ (d.perform p).result n = (.error fault, n)) ∨
      ∃ changes : List (Attribute × Value), changes.map Prod.fst ⊆ d.source.attributes ∧
        ∀ n, (d.apply n p).outcome.value = .ok (n.putAll changes) ∧
          (d.perform p).result n = (.ok (), n.putAll changes) := by
  cases hlive : Property.toLive p.value d.codec with
  | error fault =>
      refine .inl ⟨fault, fun n => ?_⟩
      unfold apply perform
      rw [hlive]
      exact ⟨rfl, rfl⟩
  | ok v =>
      have happly : ∀ n, d.apply n p = d.source.write n v := by
        intro n
        unfold apply
        rw [hlive]
        rfl
      have hperform : ∀ n, (d.perform p).result n = (d.source.perform v).result n := by
        intro n
        unfold perform
        rw [hlive]
        rfl
      simp only [happly, hperform]
      exact PropertySource.write_or_refuse hd v

end PropertyDescriptor

namespace PropertyTable

/-! ## What applying comes to -/

/-- The node with a property of a document, if the document has it and its value can be written. -/
def written? (ps : Properties) (d : PropertyDescriptor) (n : Node) : Option Node :=
  (ps.lookup d.name).bind fun p => (d.apply n p).outcome.value.toOption

/-- The node with all the properties that can be written, in the order of the table, and their names. -/
def applied (ps : Properties) : PropertyTable → Node → Node × List String
  | [], n => (n, [])
  | d :: rest, n =>
    match written? ps d n with
    | some n' => ((applied ps rest n').1, d.name :: (applied ps rest n').2)
    | none => applied ps rest n

/-- The properties of a table that are written to nodes of a kind, if a document has them. -/
def selected (t : PropertyTable) (context : Context) (exclude : List String) (k : Option NodeKind) : PropertyTable :=
  (t.forKind k).filter fun d => !d.readOnly && !exclude.contains d.name && context.admits d.name k

variable {t : PropertyTable} {ps ps' : Properties} {d : PropertyDescriptor} {n n' : Node}

theorem exists_of_written? (h : written? ps d n = some n') :
    ∃ p, ps.lookup d.name = some p ∧ (d.apply n p).outcome.value = .ok n' := by
  obtain ⟨p, hp, happly⟩ := Option.bind_eq_some_iff.mp h
  refine ⟨p, hp, ?_⟩
  cases hvalue : (d.apply n p).outcome.value with
  | error fault =>
      rw [hvalue] at happly
      cases happly
  | ok m =>
      rw [hvalue] at happly
      exact congrArg _ (Option.some.inj happly)

theorem applied_of_none (h : written? ps d n = none) : applied ps (d :: t) n = applied ps t n := by
  rw [applied, h]

theorem applied_of_some (h : written? ps d n = some n') :
    applied ps (d :: t) n = ((applied ps t n').1, d.name :: (applied ps t n').2) := by
  rw [applied, h]

/-- The table is gone through once. -/
theorem selected_eq (t : PropertyTable) (context : Context) (exclude : List String) (k : Option NodeKind) :
    t.selected context exclude k = t.filter fun d =>
      (!d.readOnly && !exclude.contains d.name && context.admits d.name k) && d.appliesTo k :=
  List.filter_filter

theorem mem_of_selected {context : Context} {exclude : List String} {k : Option NodeKind}
    (h : d ∈ t.selected context exclude k) : d ∈ t :=
  (List.mem_filter.mp (List.mem_filter.mp h).1).1

theorem outcome_applyOne (hd : d.source.isOpen = true) (ps : Properties) (n : Node) :
    (applyOne ps d n).outcome.value = .ok (match written? ps d n with
      | some n' => (n', true)
      | none => (n, false)) := by
  unfold applyOne written?
  cases ps.lookup d.name with
  | none => rfl
  | some p =>
      dsimp only [Option.bind_some]
      rw [outcome_passOver, Attempt.outcome_bind_pure]
      rcases PropertyDescriptor.apply_ends hd n p with ⟨n', hn', -⟩ | ⟨fault, hfault, hlocal⟩
      · rw [hn']
        rfl
      · rw [hfault]
        exact if_pos hlocal

theorem outcome_applyAll (ht : ∀ d ∈ t, d.source.isOpen = true) (ps : Properties) (n : Node) :
    (applyAll ps t n).outcome.value = .ok (applied ps t n) := by
  induction t generalizing n with
  | nil => rfl
  | cons d rest ih =>
      have hrest := ih fun e he => ht e (List.mem_cons_of_mem d he)
      rw [applyAll, Attempt.outcome_bind, outcome_applyOne (ht d List.mem_cons_self)]
      cases hwritten : written? ps d n with
      | none =>
          rw [applied_of_none hwritten]
          dsimp only
          rw [Attempt.outcome_bind, hrest]
          rfl
      | some n' =>
          rw [applied_of_some hwritten]
          dsimp only
          rw [Attempt.outcome_bind, hrest]
          rfl

/-- **What a table of open sources does to a node whose kind was not overwritten.** -/
theorem outcome_apply (ht : ∀ d ∈ t, d.source.isOpen = true) (context : Context) (exclude : List String)
    (hn : n.attributes.get? .kind = none) (ps : Properties) :
    (t.apply context exclude n ps).outcome.value = .ok (applied ps (t.selected context exclude (some n.kind)) n) := by
  obtain ⟨u, hreports, -⟩ := Attempt.succeeds_forM fun (p : String × Property) (_ : p ∈ ps) =>
    reportIgnored_succeeds t context exclude hn (some n.kind) p.1
  unfold apply
  rw [Attempt.outcome_bind, actingKind_of_known hn]
  show (ps.forM _ >>= _ : Attempt _).outcome.value = _
  rw [Attempt.outcome_bind, hreports]
  exact outcome_applyAll (fun d hd => ht d (mem_of_selected hd)) ps n

/-! ## In place -/

/-- Applies one property to the node itself, if the document has it; returns whether it was applied. -/
def performOne (properties : Properties) (d : PropertyDescriptor) : Procedure Node Bool :=
  match properties.lookup d.name with
  | none => pure false
  | some p =>
    Procedure.recover Fault.isLocal (do d.perform p; return true) fun fault => do
      let n ← MonadState.get
      Procedure.logged (Logged.report ⟨"Properties", .warning,
        [.words ("Could not apply " ++ d.name ++ " to '" ++ n.name.text ++ "': "), .cause fault]⟩)
      return false

/-- Applies properties to the node itself, in the order of the table; returns the names of those that were
applied. -/
def performAll (properties : Properties) : PropertyTable → Procedure Node (List String)
  | [] => pure []
  | d :: rest => do
    let done ← performOne properties d
    let names ← performAll properties rest
    return if done then d.name :: names else names

/-- Writes the properties of a document to the node itself, as far as the context admits them and `exclude`
does not name them. -/
def perform (t : PropertyTable) (context : Context) (exclude : List String) (properties : Properties) :
    Procedure Node (List String) := do
  let n ← MonadState.get
  let kind ← Procedure.ofResult n.actingKind
  Procedure.attempt (properties.forM fun (name, _) => t.reportIgnored context exclude n kind name)
  performAll properties (t.selected context exclude kind)

/-- A property that was not applied has left the node as it was. -/
theorem result_performOne (hopen : d.source.isOpen = true) (hplain : d.source.isPlain = true) (ps : Properties)
    (n : Node) : (performOne ps d).result n = match written? ps d n with
      | some n' => (.ok true, n')
      | none => (.ok false, n) := by
  unfold performOne written?
  cases ps.lookup d.name with
  | none => rfl
  | some p =>
      dsimp only [Option.bind_some]
      rw [Procedure.result_recover, Procedure.result_bind]
      rcases d.apply_or_refuse hplain p with ⟨fault, hfault⟩ | ⟨changes, -, hchanges⟩
      · have hlocal : fault.isLocal = true := by
          rcases d.apply_ends hopen n p with ⟨n', hn', -⟩ | ⟨fault', hfault', hlocal⟩
          · rw [(hfault n).1] at hn'
            cases hn'
          · rw [(hfault n).1] at hfault'
            cases hfault'
            exact hlocal
        rw [(hfault n).1, (hfault n).2]
        exact if_pos hlocal
      · rw [(hchanges n).1, (hchanges n).2]
        rfl

theorem result_performAll (hopen : ∀ d ∈ t, d.source.isOpen = true) (hplain : ∀ d ∈ t, d.source.isPlain = true)
    (ps : Properties) (n : Node) : (performAll ps t).result n = (.ok (applied ps t n).2, (applied ps t n).1) := by
  induction t generalizing n with
  | nil => rfl
  | cons d rest ih =>
      have hrest := ih (fun e he => hopen e (List.mem_cons_of_mem d he))
        fun e he => hplain e (List.mem_cons_of_mem d he)
      rw [performAll, Procedure.result_bind,
        result_performOne (hopen d List.mem_cons_self) (hplain d List.mem_cons_self)]
      cases hwritten : written? ps d n with
      | none =>
          rw [applied_of_none hwritten]
          dsimp only
          rw [Procedure.result_bind, hrest]
          rfl
      | some n' =>
          rw [applied_of_some hwritten]
          dsimp only
          rw [Procedure.result_bind, hrest]
          rfl

/-- **The node itself ends as `apply` has it.** -/
theorem result_perform (hopen : ∀ d ∈ t, d.source.isOpen = true) (hplain : ∀ d ∈ t, d.source.isPlain = true)
    (context : Context) (exclude : List String) (hn : n.attributes.get? .kind = none) (ps : Properties) :
    (t.perform context exclude ps).result n =
      (.ok (applied ps (t.selected context exclude (some n.kind)) n).2,
        (applied ps (t.selected context exclude (some n.kind)) n).1) := by
  obtain ⟨u, hreports, -⟩ := Attempt.succeeds_forM fun (p : String × Property) (_ : p ∈ ps) =>
    reportIgnored_succeeds t context exclude hn (some n.kind) p.1
  unfold perform
  rw [Procedure.result_bind]
  show (do
    let kind ← Procedure.ofResult n.actingKind
    Procedure.attempt (ps.forM fun p => t.reportIgnored context exclude n kind p.1)
    performAll ps (t.selected context exclude kind) : Procedure Node (List String)).result n = _
  rw [actingKind_of_known hn, Procedure.result_bind, Procedure.result_ofResult]
  dsimp only
  rw [Procedure.result_bind, Procedure.result_attempt, hreports]
  exact result_performAll (fun d hd => hopen d (mem_of_selected hd)) (fun d hd => hplain d (mem_of_selected hd)) ps n

/-! ## Which properties are applied -/

/-- Whether a property can be written does not depend on the node. -/
theorem written?_isSome_congr (hd : d.source.isPlain = true) (ps : Properties) (n m : Node) :
    (written? ps d n).isSome = (written? ps d m).isSome := by
  unfold written?
  cases ps.lookup d.name with
  | none => rfl
  | some p =>
      dsimp only [Option.bind_some]
      rcases d.apply_or_refuse hd p with ⟨fault, hfault⟩ | ⟨changes, -, hchanges⟩
      · rw [(hfault n).1, (hfault m).1]
      · rw [(hchanges n).1, (hchanges m).1]
        rfl

theorem names_applied (ht : ∀ d ∈ t, d.source.isPlain = true) (ps : Properties) (n m : Node) :
    (applied ps t n).2 = (t.filter fun d => (written? ps d m).isSome).map (·.name) := by
  induction t generalizing n with
  | nil => rfl
  | cons d rest ih =>
      have hrest := ih fun e he => ht e (List.mem_cons_of_mem d he)
      rw [List.filter_cons, written?_isSome_congr (ht d List.mem_cons_self) ps m n]
      cases hwritten : written? ps d n with
      | none =>
          rw [applied_of_none hwritten]
          exact hrest n
      | some n' =>
          rw [applied_of_some hwritten]
          exact congrArg (d.name :: ·) (hrest n')

/-- Attributes that belong to no property that is applied are left alone. -/
theorem get?_applied (ht : ∀ d ∈ t, d.source.isPlain = true) (ps : Properties) (n : Node) {a : Attribute}
    (ha : ∀ d ∈ t, d.name ∈ (applied ps t n).2 → a ∉ d.source.attributes) :
    (applied ps t n).1.attributes.get? a = n.attributes.get? a := by
  induction t generalizing n with
  | nil => rfl
  | cons d rest ih =>
      have hrest := fun m => ih (fun e he => ht e (List.mem_cons_of_mem d he)) m
      cases hwritten : written? ps d n with
      | none =>
          rw [applied_of_none hwritten] at ha ⊢
          exact hrest n fun e he hmem => ha e (List.mem_cons_of_mem d he) hmem
      | some n' =>
          rw [applied_of_some hwritten] at ha ⊢
          refine (hrest n' fun e he hmem => ha e (List.mem_cons_of_mem d he) (List.mem_cons_of_mem _ hmem)).trans ?_
          have hout : a ∉ d.source.attributes := ha d List.mem_cons_self List.mem_cons_self
          obtain ⟨p, -, hp⟩ := exists_of_written? hwritten
          rcases d.apply_or_refuse (ht d List.mem_cons_self) p with ⟨fault, hfault⟩ | ⟨changes, hchanges, happly⟩
          · rw [(hfault n).1] at hp
            cases hp
          · rw [(happly n).1] at hp
            cases hp
            exact n.get?_putAll_of_notMem fun hmem => hout (hchanges hmem)

/-! ## Records that do not matter -/

/-- **Records that are not applied might as well not be there.** -/
theorem applied_congr (h : ∀ d ∈ t, ps'.lookup d.name = ps.lookup d.name ∨
    ps'.lookup d.name = none ∧ d.name ∉ (applied ps t n).2) : applied ps' t n = applied ps t n := by
  induction t generalizing n with
  | nil => rfl
  | cons d rest ih =>
      cases hwritten : written? ps d n with
      | none =>
          rw [applied_of_none hwritten] at h ⊢
          have hsame : written? ps' d n = none := by
            rcases h d List.mem_cons_self with hsame | ⟨hnone, -⟩
            · rw [written?, hsame]
              exact hwritten
            · rw [written?, hnone]
              rfl
          rw [applied_of_none hsame]
          exact ih fun e he => h e (List.mem_cons_of_mem d he)
      | some n' =>
          rw [applied_of_some hwritten] at h ⊢
          have hsame : written? ps' d n = some n' := by
            rcases h d List.mem_cons_self with hsame | ⟨-, hnot⟩
            · rw [written?, hsame]
              exact hwritten
            · exact absurd List.mem_cons_self hnot
          have hrest : applied ps' rest n' = applied ps rest n' := ih fun e he =>
            (h e (List.mem_cons_of_mem d he)).imp_right fun ⟨hnone, hnot⟩ =>
              ⟨hnone, fun hmem => hnot (List.mem_cons_of_mem _ hmem)⟩
          rw [applied_of_some hsame, hrest]

/-- Applies the properties that a document has, in the order of the table; the first fault ends it. -/
def applyEach (properties : Properties) : PropertyTable → Node → Attempt Node
  | [], n => pure n
  | d :: rest, n => do
    match properties.lookup d.name with
    | none => applyEach properties rest n
    | some p => applyEach properties rest (← d.apply n p)

theorem applied_sublist (ps : Properties) (t : PropertyTable) (n : Node) :
    (applied ps t n).2.Sublist (t.map (·.name)) := by
  induction t generalizing n with
  | nil => exact List.Sublist.refl []
  | cons d rest ih =>
      cases hwritten : written? ps d n with
      | none =>
          rw [applied_of_none hwritten]
          exact (ih n).cons d.name
      | some n' =>
          rw [applied_of_some hwritten]
          exact (ih n').cons_cons d.name

/-- The records that are applied can be applied one after the other, without passing over any, and the rest
of the table has none. -/
theorem outcome_applyEach (hnames : (t.map (·.name)).Nodup) (sel : PropertyDescriptor → Bool)
    (h : ∀ d ∈ t, ps'.lookup d.name =
      if d.name ∈ (applied ps (t.filter sel) n).2 then ps.lookup d.name else none) :
    (applyEach ps' t n).outcome.value = .ok (applied ps (t.filter sel) n).1 := by
  induction t generalizing n with
  | nil => rfl
  | cons d rest ih =>
      rw [List.map_cons, List.nodup_cons] at hnames
      obtain ⟨hd, hrest⟩ := hnames
      -- the descriptor is the only one of its name, so nothing else applies its record
      have hnot : ∀ m, d.name ∉ (applied ps (rest.filter sel) m).2 := fun m hmem =>
        hd ((List.filter_sublist.map _).subset ((applied_sublist ps (rest.filter sel) m).subset hmem))
      have hskip : applied ps ((d :: rest).filter sel) n = applied ps (rest.filter sel) n →
          (applyEach ps' (d :: rest) n).outcome.value = .ok (applied ps ((d :: rest).filter sel) n).1 := by
        intro hsame
        rw [hsame] at h ⊢
        rw [applyEach, h d List.mem_cons_self, if_neg (hnot n)]
        exact ih hrest fun e he => h e (List.mem_cons_of_mem d he)
      cases hsel : sel d with
      | false => exact hskip (by rw [List.filter_cons, hsel, if_neg Bool.false_ne_true])
      | true =>
          rw [List.filter_cons, hsel, if_pos rfl] at h hskip ⊢
          cases hwritten : written? ps d n with
          | none => exact hskip (applied_of_none hwritten)
          | some n' =>
              obtain ⟨p, hp, happly⟩ := exists_of_written? hwritten
              rw [applied_of_some hwritten] at h ⊢
              rw [applyEach, h d List.mem_cons_self, if_pos List.mem_cons_self, hp]
              dsimp only
              rw [Attempt.outcome_bind, happly]
              refine ih hrest fun e he => ?_
              have hne : e.name ≠ d.name := fun heq => hd (heq ▸ List.mem_map_of_mem he)
              rw [h e (List.mem_cons_of_mem d he)]
              simp only [List.mem_cons, hne, false_or]

/-! ## The standard table -/

theorem isPlain_standard : ∀ d ∈ standard, d.source.isPlain = true := by decide

theorem nodup_names_standard : (standard.map (·.name)).Nodup := by decide

/-- **Properties that fail leave no trace.**  Whatever the records hold, the standard table applies them to a node
whose kind was not overwritten, and the node itself ends as the result has it.  The names that come back are
those of the properties that are admitted, belong to the kind, and whose values can be written, in the order of
the table.  The node is what comes of applying just these records one after the other; records under other
names can be left out, other attributes are left alone, and the order of the records does not matter. -/
theorem apply_traceless {n : Node} (hn : n.attributes.get? .kind = none) (context : Context)
    (exclude : List String) (properties : Properties) :
    ∃ n' names, (standard.apply context exclude n properties).outcome.value = .ok (n', names) ∧
      (standard.perform context exclude properties).result n = (.ok names, n') ∧
      names = ((standard.selected context exclude (some n.kind)).filter fun d =>
        (written? properties d n).isSome).map (·.name) ∧
      (applyEach (properties.filter fun record => names.contains record.1) standard n).outcome.value = .ok n' ∧
      (∀ keep : String → Bool, (∀ name ∈ names, keep name = true) →
        (standard.apply context exclude n (properties.filter fun record => keep record.1)).outcome.value =
          .ok (n', names)) ∧
      (∀ a, (∀ d ∈ standard, d.name ∈ names → a ∉ d.source.attributes) →
        n'.attributes.get? a = n.attributes.get? a) ∧
      n.Retouched n' ∧
      ((properties.map Prod.fst).Nodup → ∀ properties', properties'.Perm properties →
        (standard.apply context exclude n properties').outcome.value = .ok (n', names)) := by
  have happly := outcome_apply isOpen_standard context exclude hn
  have hplain : ∀ d ∈ standard.selected context exclude (some n.kind), d.source.isPlain = true := fun d hd =>
    isPlain_standard d (mem_of_selected hd)
  refine ⟨_, _, happly properties, result_perform isOpen_standard isPlain_standard context exclude hn properties,
    names_applied hplain properties n n, ?_, fun keep hkeep => ?_, fun a ha => ?_, ?_,
    fun hnodup properties' hperm => ?_⟩
  · rw [selected_eq]
    refine outcome_applyEach nodup_names_standard _ fun d _ => ?_
    simp only [Keyed.lookup_filter, List.contains_iff_mem]
  · rw [happly]
    congr 1
    refine applied_congr fun d _ => ?_
    rw [Keyed.lookup_filter]
    cases hname : keep d.name with
    | true => exact .inl rfl
    | false => exact .inr ⟨rfl, fun hmem => Bool.false_ne_true (hname.symm.trans (hkeep d.name hmem))⟩
  · exact get?_applied hplain properties n fun d hd => ha d (mem_of_selected hd)
  · obtain ⟨r, hr, hretouched⟩ := apply_succeeds isOpen_standard context exclude hn properties
    rw [happly] at hr
    cases hr
    exact hretouched
  · rw [happly]
    congr 1
    exact applied_congr fun d _ => .inl (Keyed.lookup_perm hnodup hperm d.name)

/-- A slider gets its name in spite of a value that is no number, which is not seen. -/
theorem apply_traceless_slider :
    ({ (default : Node) with kind := .slider } : Node).attributes.get? .kind = none ∧
      ∃ n', (standard.apply .full [] { (default : Node) with kind := .slider }
          [("CurrentValue", ⟨.str "three", "Text", .null⟩),
            ("NickName", ⟨.str "Width", "Text", .null⟩)]).outcome.value = .ok (n', ["NickName"]) ∧
        n'.attributes.get? .value = none := by
  obtain ⟨n', names, happly, -, hnames, -, -, hframe, -⟩ :=
    apply_traceless (n := { (default : Node) with kind := .slider }) rfl .full []
      [("CurrentValue", ⟨.str "three", "Text", .null⟩), ("NickName", ⟨.str "Width", "Text", .null⟩)]
  have hnickName : names = ["NickName"] := hnames.trans (by rfl)
  subst hnickName
  exact ⟨rfl, n', happly, hframe .value (by decide)⟩

end PropertyTable

end Patchbay
