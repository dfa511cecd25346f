import Patchbay.Property.Table
import Patchbay.Proofs.Journal.Running
import Patchbay.Proofs.Result

/-!
# Applying properties

A table applies whatever properties a document has, and reports those that are no good.

* **`PropertySource.write_ends`** — a value of any kind is written, or is at fault itself.  This is
  where each source is looked at: a token of the wrong form, a path that is no path, a packed text
  that is none, a list of items that is no list.
* **`Node.Retouched`** is all that this does to a node.  A table whose sources are open touches
  neither the parameters of a node nor what the node is (`PropertyTable.apply_succeeds`).
-/

namespace Patchbay

/-! ## Faults of values -/

theorem Registry.isCodecFault_deserialize {r : Registry} {name : String} {token : Value}
    {fault : Fault} (h : r.deserialize name token = .error fault) : fault.isCodecFault = true := by
  unfold deserialize get at h
  cases hcodec : r.get? name with
  | none =>
      rw [hcodec] at h
      cases h
      rfl
  | some c =>
      rw [hcodec] at h
      change c.deserialize token = _ at h
      unfold Codec.deserialize at h
      split at h
      · split at h
        · cases h
        · cases h
          rfl
      · cases h
        rfl

theorem Fault.isLocal_of_isCodecFault {fault : Fault} (h : fault.isCodecFault = true) :
    fault.isLocal = true := by
  unfold isLocal
  split <;> simp [h]

theorem Property.isLocal_toLive {v : Value} {codec : Option String} {fault : Fault}
    (h : toLive v codec = .error fault) : fault.isLocal = true := by
  unfold toLive at h
  split at h
  · exact Fault.isLocal_of_isCodecFault (Registry.isCodecFault_deserialize h)
  · cases h

namespace DataTree

theorem isLocal_readElement {cs : List Char} {fault : Fault} (h : readElement cs = .error fault) :
    fault.isLocal = true := by
  unfold readElement at h
  dsimp only at h
  split at h
  · split at h
    · cases h
    · cases h
      rfl
  · cases h

theorem isLocal_readElements {elements : List (List Char)} {fault : Fault}
    (h : readElements elements = .error fault) : fault.isLocal = true := by
  induction elements with
  | nil => cases h
  | cons element rest ih =>
      unfold readElements at h
      cases helement : readElement element with
      | error fault' =>
          rw [helement] at h
          cases h
          exact isLocal_readElement helement
      | ok i =>
          rw [helement] at h
          cases i with
          | none => exact ih h
          | some i =>
              cases hrest : readElements rest with
              | error fault' =>
                  simp only [hrest] at h
                  cases h
                  exact ih hrest
              | ok is =>
                  simp only [hrest] at h
                  cases h

theorem isLocal_readPath {key : String} {fault : Fault} (h : readPath key = .error fault) :
    fault.isLocal = true := by
  unfold readPath at h
  exact isLocal_readElements h

theorem expandBranches_ends (branches : Branches) (entries : Entries) :
    (expandBranches branches entries).Ends fun _ => True := by
  induction entries generalizing branches with
  | nil => exact (Attempt.succeeds_pure trivial).ends
  | cons entry rest ih =>
      have hpath : (Attempt.ofExcept (readPath entry.1)).Ends fun _ => True :=
        Attempt.ends_ofExcept (fun _ _ => trivial) fun _ h => isLocal_readPath h
      refine hpath.bind fun path _ => ?_
      refine (Attempt.succeeds_lift (Q := fun _ => True) trivial).ends.bind fun items _ => ?_
      exact ih (addItems branches path items)

/-- A data tree is read from any value, or a path in it is at fault. -/
theorem expand_ends (v : Value) : (expand v).Ends fun _ => True := by
  unfold expand
  split
  · exact (Attempt.succeeds_pure trivial).ends
  · refine Attempt.Succeeds.ends ?_
    exact (Attempt.succeeds_lift (Q := fun _ => True) trivial).bind fun _ _ =>
      Attempt.succeeds_pure trivial
  · exact expandBranches_ends [] _
  · exact expandBranches_ends [] _
  · refine Attempt.Succeeds.ends ?_
    exact (Attempt.succeeds_lift (Q := fun _ => True) trivial).bind fun _ _ =>
      Attempt.succeeds_pure trivial

end DataTree

theorem Slider.isLocal_unpack {text : String} {fault : Fault} (h : unpack text = .error fault) :
    fault.family = .value := by
  unfold unpack at h
  split at h
  · cases h
    rfl
  · dsimp only at h
    split at h
    · split at h
      · cases h
      · cases h
        rfl
    · cases h
      rfl

theorem Value.isLocal_text? {v : Value} {fault : Fault} (h : v.text? = .error fault) : fault.isLocal = true := by
  rw [eq_unreadable_of_text? h]
  rfl

theorem Rounding.isLocal_read? {v : Value} {fault : Fault} (h : read? v = .error fault) :
    fault.isLocal = true := by
  unfold read? at h
  split at h
  · cases h
  · cases h
    rfl

theorem ListItem.isLocal_ofValue {v : Value} {fault : Fault} (h : ListItem.ofValue v = .error fault) :
    fault.isLocal = true := by
  unfold ListItem.ofValue at h
  split at h
  · obtain hname | ⟨name, -, h⟩ := of_bind_eq_error h
    · exact Value.isLocal_text? hname
    · obtain hexpression | ⟨expression, -, h⟩ := of_bind_eq_error h
      · exact Value.isLocal_text? hexpression
      · cases h
  · cases h
    rfl

theorem isLocal_readListItems {items : List Value} {fault : Fault}
    (h : readListItems items = .error fault) : fault.isLocal = true := by
  obtain ⟨v, -, hv⟩ := exists_of_mapM_eq_error h
  cases hitem : ListItem.ofValue v with
  | ok i =>
      rw [hitem] at hv
      cases hv
  | error fault' =>
      rw [hitem] at hv
      cases hv
      exact ListItem.isLocal_ofValue hitem

/-! ## What is written to a node -/

/-- The attributes that say what a node is, or that it keeps in fields of its own. -/
def Attribute.reserved : List Attribute :=
  [.typeKey, .name, .pivot, .principal, .kind, .maintenanceRuns]

/-- The second node is the first with other attributes, reserved ones apart. -/
structure Node.Retouched (n n' : Node) : Prop where
  body : n' = { n with attributes := n'.attributes }
  reserved : ∀ a ∈ Attribute.reserved, n'.attributes.get? a = n.attributes.get? a

namespace Node.Retouched

variable {n n' n'' : Node}

theorem refl (n : Node) : n.Retouched n := ⟨rfl, fun _ _ => rfl⟩

theorem trans (h : n.Retouched n') (h' : n'.Retouched n'') : n.Retouched n'' where
  body := by
    rw [h'.body, h.body]
  reserved := fun a ha => (h'.reserved a ha).trans (h.reserved a ha)

theorem put (n : Node) {a : Attribute} (v : Value) (ha : a ∉ Attribute.reserved) :
    n.Retouched (n.put a v) where
  body := rfl
  reserved := fun _ hb => Attributes.get?_put_of_ne _ v fun e => ha (e ▸ hb)

theorem kind (h : n.Retouched n') : n'.kind = n.kind := by rw [h.body]

theorem params (h : n.Retouched n') : n'.params = n.params := by
  rw [h.body]
  rfl

end Node.Retouched

theorem Node.applySlider_retouched {n n' : Node} {text : String} (h : n.applySlider text = .ok n') :
    n.Retouched n' := by
  unfold applySlider at h
  cases hpacked : Slider.unpack text with
  | error fault =>
      rw [hpacked] at h
      cases h
  | ok p =>
      rw [hpacked] at h
      cases h
      refine ((((Retouched.put n _ ?_).trans (.put _ _ ?_)).trans (.put _ _ ?_)).trans
        (.put _ _ ?_)).trans (.put _ _ ?_) <;> decide

theorem Node.isLocal_applySlider {n : Node} {text : String} {fault : Fault}
    (h : n.applySlider text = .error fault) : fault.family = .value := by
  unfold applySlider at h
  cases hpacked : Slider.unpack text with
  | error fault' =>
      rw [hpacked] at h
      cases h
      exact Slider.isLocal_unpack hpacked
  | ok p =>
      rw [hpacked] at h
      cases h

theorem Fault.isLocal_of_family {fault : Fault} (h : fault.family = .value) :
    fault.isLocal = true := by
  unfold isLocal
  rw [h]

namespace PropertySource

/-- Whether a source writes no reserved attribute. -/
def isOpen : PropertySource → Bool
  | stored a => !Attribute.reserved.contains a
  | _ => true

theorem write_stored {n n' : Node} {a : Attribute} {v : Value} (ha : a ∉ Attribute.reserved)
    (h : n.write a v = .ok n') : n' = n.put a v := by
  unfold Node.write at h
  split at h
  · cases h
  · cases a <;> first
      | exact absurd (by decide) ha
      | exact (Except.ok.inj h).symm

/-- A value is written, or is itself at fault. -/
theorem write_ends {s : PropertySource} (hs : s.isOpen = true) (n : Node) (v : Value) :
    (s.write n v).Ends n.Retouched := by
  cases s with
  | stored a =>
      have ha : a ∉ Attribute.reserved := by simpa [isOpen] using hs
      refine Attempt.ends_ofExcept (fun n' h => ?_) fun fault h => ?_
      · rw [write_stored ha h]
        exact .put n v ha
      · unfold Node.write at h
        split at h
        · cases h
          rfl
        · split at h <;> cases h
  | persistentData =>
      exact (DataTree.expand_ends v).bind fun _ _ =>
        (Attempt.succeeds_pure (.put n _ (by decide))).ends
  | sliderValue =>
      refine Attempt.ends_ofExcept (fun n' h => ?_) fun fault h => ?_
      · obtain ⟨text, -, h⟩ := exists_of_bind_eq_ok h
        exact Node.applySlider_retouched h
      · obtain htext | ⟨text, -, h⟩ := of_bind_eq_error h
        · exact Value.isLocal_text? htext
        · exact Fault.isLocal_of_family (Node.isLocal_applySlider h)
  | sliderRounding =>
      refine Attempt.ends_ofExcept (fun n' h => ?_) fun fault h => ?_
      · obtain ⟨r, -, h⟩ := exists_of_bind_eq_ok h
        cases h
        exact .put n _ (by decide)
      · obtain hread | ⟨r, -, h⟩ := of_bind_eq_error h
        · exact Rounding.isLocal_read? hread
        · cases h
  | listItems =>
      cases v with
      | list items =>
          refine Attempt.ends_ofExcept (fun n' h => ?_) fun fault h => ?_
          · obtain ⟨read, -, h⟩ := exists_of_bind_eq_ok h
            cases h
            exact .put n _ (by decide)
          · obtain hread | ⟨read, -, h⟩ := of_bind_eq_error h
            · exact isLocal_readListItems hread
            · cases h
      | _ => exact Attempt.ends_throw rfl

end PropertySource

/-- A captured property is written, or its value is at fault. -/
theorem PropertyDescriptor.apply_ends {d : PropertyDescriptor} (hd : d.source.isOpen = true) (n : Node)
    (p : Property) : (d.apply n p).Ends n.Retouched := by
  have hlive : (Attempt.ofExcept (Property.toLive p.value d.codec)).Ends fun _ => True :=
    Attempt.ends_ofExcept (fun _ _ => trivial) fun _ h => Property.isLocal_toLive h
  exact hlive.bind fun v _ => PropertySource.write_ends hd n v

/-! ## The table -/

namespace PropertyTable

theorem outcome_passOver {α : Type} (words : String) (instead : α) (x : Attempt α) :
    (passOver words instead x).outcome.value =
      match x.outcome.value with
      | .ok a => .ok a
      | .error fault => if fault.isLocal then .ok instead else .error fault := by
  have hresult : (passOver words instead x).outcome.value =
      (passOver words instead ⟨x.outcome.value, []⟩ : Attempt α).outcome.value := rfl
  rw [hresult]
  cases x.outcome.value with
  | ok a => rfl
  | error fault =>
      change (if fault.isLocal = true then _ else _ : Attempt α).outcome.value = _
      dsimp only
      split <;> rfl

/-- Going on after a fault of one item, whatever the item does. -/
theorem passOver_succeeds {α : Type} {words : String} {instead : α} {x : Attempt α} {Q : α → Prop}
    (hx : x.Ends Q) (h : Q instead) : (passOver words instead x).Succeeds Q := by
  unfold Attempt.Succeeds
  rw [outcome_passOver]
  rcases hx with ⟨a, hvalue, hQ⟩ | ⟨fault, hvalue, hlocal⟩
  · rw [hvalue]
    exact ⟨a, rfl, hQ⟩
  · rw [hvalue]
    exact ⟨instead, if_pos hlocal, h⟩

/-- What is passed over is a fault after which a batch goes on. -/
theorem exists_passOver_iff {α : Type} {words : String} {instead : α} {x : Attempt α} :
    (∃ a, (passOver words instead x).outcome.value = .ok a) ↔ x.Ends fun _ => True := by
  constructor
  · rintro ⟨a, ha⟩
    rw [outcome_passOver] at ha
    cases hx : x.outcome.value with
    | ok b => exact Or.inl ⟨b, hx, trivial⟩
    | error fault =>
        rw [hx] at ha
        dsimp only at ha
        split at ha
        · next hlocal => exact Or.inr ⟨fault, hx, hlocal⟩
        · cases ha
  · intro h
    obtain ⟨a, ha, -⟩ : (passOver words instead x).Succeeds fun _ => True := passOver_succeeds h trivial
    exact ⟨a, ha⟩

theorem applyOne_succeeds {d : PropertyDescriptor} (hd : d.source.isOpen = true)
    (properties : Properties) (n : Node) :
    (applyOne properties d n).Succeeds fun r => n.Retouched r.1 := by
  unfold applyOne
  split
  · exact Attempt.succeeds_pure (.refl n)
  · next p _ =>
    refine passOver_succeeds ?_ (.refl n)
    refine (d.apply_ends hd n p).bind fun n' h => ?_
    exact (Attempt.succeeds_pure (a := (n', true)) h).ends

theorem applyAll_succeeds {t : PropertyTable} (ht : ∀ d ∈ t, d.source.isOpen = true)
    (properties : Properties) (n : Node) :
    (applyAll properties t n).Succeeds fun r => n.Retouched r.1 := by
  induction t generalizing n with
  | nil => exact Attempt.succeeds_pure (.refl n)
  | cons d rest ih =>
      refine (applyOne_succeeds (ht d (by simp)) properties n).bind fun (n', _) h => ?_
      refine (ih (fun e he => ht e (by simp [he])) n').bind fun (n'', _) h' => ?_
      exact Attempt.succeeds_pure (h.trans h')

theorem reportIgnored_succeeds (t : PropertyTable) (context : Context) (exclude : List String)
    {n : Node} (hn : n.attributes.get? .kind = none) (kind : Option NodeKind) (name : String) :
    (t.reportIgnored context exclude n kind name).Succeeds fun _ => True := by
  unfold reportIgnored
  have hcode : n.kindCode = .ok n.kind.code := by
    unfold Node.kindCode
    rw [hn]
  split
  · exact Attempt.succeeds_pure trivial
  · split
    · refine (Attempt.succeeds_ofExcept (Q := fun _ => True) hcode trivial).bind fun _ _ => ?_
      exact Attempt.succeeds_lift trivial
    · split
      · exact Attempt.succeeds_lift trivial
      · exact Attempt.succeeds_pure trivial

/-- A table of open sources applies properties of any kind to a node whose kind was not
overwritten. -/
theorem apply_succeeds {t : PropertyTable} (ht : ∀ d ∈ t, d.source.isOpen = true)
    (context : Context) (exclude : List String) {n : Node} (hn : n.attributes.get? .kind = none)
    (properties : Properties) :
    (t.apply context exclude n properties).Succeeds fun r => n.Retouched r.1 := by
  have hkind : n.actingKind = .ok (some n.kind) := by
    unfold Node.actingKind
    rw [hn]
  unfold apply
  refine (Attempt.succeeds_ofExcept (Q := (· = some n.kind)) hkind rfl).bind fun kind _ => ?_
  refine (Attempt.succeeds_forM fun p _ => reportIgnored_succeeds t context exclude hn kind p.1).bind
    fun _ _ => ?_
  refine applyAll_succeeds (fun d hd => ?_) properties n
  exact ht d (List.mem_filter.mp (List.mem_filter.mp hd).1).1

theorem isOpen_standard : ∀ d ∈ standard, d.source.isOpen = true := by decide

end PropertyTable

end Patchbay
