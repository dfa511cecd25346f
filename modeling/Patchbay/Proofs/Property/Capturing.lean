import Patchbay.Proofs.Property.Restoring

/-!
# Capturing properties

A property that cannot be written is passed over.  So nothing that a node holds stops its capture, the
limits and the places of a slider apart, which may be numbers that no text is made of.

* `FailsLocally` — a computation has no fault at which a batch ends; it has a rule for every way to make
  such a computation
* `Codec.failsLocally_serialize`, `Property.failsLocally_ofLive` — the built-in codecs write a value, or
  the value is at fault itself
* `Node.Describable` — what is asked of a slider
* **`PropertyTable.exists_capture_standard_iff`** — the properties of a node are captured, and a slider is
  the only thing that may stop this
-/

namespace Patchbay

/-! ## Faults of one item -/

/-- Whatever the fault of the computation is, a batch goes on after it. -/
structure FailsLocally {α : Type} (x : Except Fault α) : Prop where
  isLocal : ∀ fault, x = .error fault → fault.isLocal = true

namespace FailsLocally

variable {α β : Type}

theorem ok (a : α) : FailsLocally (.ok a : Except Fault α) := ⟨nofun⟩

theorem error {fault : Fault} (h : fault.isLocal = true) : FailsLocally (.error fault : Except Fault α) := by
  constructor
  rintro _ ⟨⟩
  exact h

theorem bind {x : Except Fault α} {f : α → Except Fault β} (hx : FailsLocally x)
    (hf : ∀ a, FailsLocally (f a)) : FailsLocally (x >>= f) := by
  cases x with
  | error fault => exact .error (hx.isLocal fault rfl)
  | ok a => exact hf a

theorem mapM {f : α → Except Fault β} (hf : ∀ a, FailsLocally (f a)) (items : List α) :
    FailsLocally (items.mapM f) := by
  constructor
  intro fault h
  obtain ⟨a, -, ha⟩ := exists_of_mapM_eq_error h
  exact (hf a).isLocal fault ha

theorem ends {x : Except Fault α} (h : FailsLocally x) : (Attempt.ofExcept x).Ends fun _ => True :=
  Attempt.ends_ofExcept (fun _ _ => trivial) h.isLocal

end FailsLocally

/-! ## Tokens -/

namespace Token

theorem failsLocally_writeNumber (x : Float) : FailsLocally (writeNumber x) := by
  unfold writeNumber
  split
  · exact .ok _
  · exact .error rfl

theorem failsLocally_writeInteger (i : ℤ) : FailsLocally (writeInteger i) := by
  unfold writeInteger
  split
  · exact .error rfl
  · exact .ok _

theorem failsLocally_writeTriple (x y z : Float) : FailsLocally (writeTriple x y z) :=
  (failsLocally_writeNumber x).bind fun _ => (failsLocally_writeNumber y).bind fun _ =>
    (failsLocally_writeNumber z).bind fun _ => .ok _

theorem failsLocally_writePoints (p q : Point) : FailsLocally (writePoints p q) :=
  (failsLocally_writeTriple ..).bind fun _ => (failsLocally_writeTriple ..).bind fun _ => .ok _

theorem failsLocally_writePlane (p : Plane) : FailsLocally (writePlane p) :=
  (failsLocally_writeTriple ..).bind fun _ => (failsLocally_writeTriple ..).bind fun _ =>
    (failsLocally_writeTriple ..).bind fun _ => .ok _

theorem failsLocally_writePair (x y : Float) (sep : String) :
    FailsLocally (do return (← writeNumber x) ++ sep ++ (← writeNumber y)) :=
  (failsLocally_writeNumber x).bind fun _ => (failsLocally_writeNumber y).bind fun _ => .ok _

theorem failsLocally_writeCircle (c : Circle) : FailsLocally (writeCircle c) :=
  (failsLocally_writeTriple ..).bind fun _ => (failsLocally_writeTriple ..).bind fun _ =>
    (failsLocally_writeNumber _).bind fun _ => (failsLocally_writeTriple ..).bind fun _ => .ok _

theorem failsLocally_writeArc (a : Arc) : FailsLocally (writeArc a) :=
  (failsLocally_writeTriple ..).bind fun _ => (failsLocally_writeTriple ..).bind fun _ =>
    (failsLocally_writeNumber _).bind fun _ => (failsLocally_writeNumber _).bind fun _ =>
      (failsLocally_writeNumber _).bind fun _ => .ok _

theorem failsLocally_writeRectangle (r : Rectangle) : FailsLocally (writeRectangle r) :=
  (failsLocally_writePlane _).bind fun _ => (failsLocally_writeNumber _).bind fun _ =>
    (failsLocally_writeNumber _).bind fun _ => .ok _

end Token

namespace Codec

open Token

/-- A codec writes a value, or the value is at fault. -/
theorem failsLocally_write {c : Codec} (hc : c ∈ builtins.map Prod.fst) (v : Value) :
    FailsLocally (c.write v) := by
  simp only [builtins, List.map_cons, List.map_nil, List.mem_cons, List.not_mem_nil, or_false] at hc
  rcases hc with rfl | rfl | rfl | rfl | rfl | rfl | rfl | rfl | rfl | rfl | rfl | rfl | rfl | rfl | rfl
  all_goals
    dsimp only [number, integer, boolean, text, point, vector, line, plane, circle, arc, rectangle, box,
      domain, bounds, color]
    split
  -- values of other kinds are refused
  any_goals exact .error rfl
  · exact failsLocally_writeNumber _
  · exact failsLocally_writeInteger _
  · exact .ok _
  · exact .ok _
  · exact failsLocally_writeTriple ..
  · exact failsLocally_writeTriple ..
  · exact failsLocally_writePoints ..
  · exact failsLocally_writePlane _
  · exact failsLocally_writeCircle _
  · exact failsLocally_writeArc _
  · exact failsLocally_writeRectangle _
  · exact failsLocally_writePoints ..
  · exact failsLocally_writePair ..
  · exact failsLocally_writePair ..
  · exact .ok _

theorem failsLocally_serialize {c : Codec} (hc : c ∈ builtins.map Prod.fst) (v : Value) :
    FailsLocally (c.serialize v) := by
  unfold serialize
  cases c.accepts v with
  | false => exact @FailsLocally.error _ (.wrongValue ..) rfl
  | true =>
      cases c.valid v with
      | false => exact @FailsLocally.error _ (.malformedToken ..) rfl
      | true => exact (failsLocally_write hc v).bind fun _ => .ok _

end Codec

namespace Registry

/-- The codec that is responsible for a value is a built-in one. -/
theorem mem_builtins_of_forValue? {v : Value} {c : Codec} (h : builtin.forValue? v = some c) :
    c ∈ Codec.builtins.map Prod.fst := by
  obtain ⟨k, -, hk⟩ := List.exists_of_findSome?_eq_some h
  rw [builtin_byKind] at hk
  obtain ⟨entry, hentry, hc⟩ := List.mem_flatMap.mp (Keyed.mem_of_lookup_eq_some hk)
  obtain ⟨kind, -, heq⟩ := List.mem_map.mp hc
  cases heq
  exact List.mem_map_of_mem hentry

theorem builtin_byName : builtin.byName = Codec.builtins.flatMap fun entry =>
    (entry.1.typeName :: entry.2).map fun name => (Text.lower name, entry.1) := rfl

/-- A codec with a name is a built-in one. -/
theorem mem_builtins_of_get? {name : String} {c : Codec} (h : builtin.get? name = some c) :
    c ∈ Codec.builtins.map Prod.fst := by
  unfold get? at h
  rw [builtin_byName] at h
  obtain ⟨entry, hentry, hc⟩ := List.mem_flatMap.mp (Keyed.mem_of_lookup_eq_some h)
  obtain ⟨_, -, heq⟩ := List.mem_map.mp hc
  obtain ⟨-, rfl⟩ := Prod.mk.inj heq
  exact List.mem_map_of_mem hentry

end Registry

/-! ## Captured values -/

namespace Property

theorem failsLocally_written (v : Value) (codec : Option String) : FailsLocally (written v codec) := by
  unfold written
  split
  · next name =>
    unfold Registry.get
    cases hget : Registry.builtin.get? name with
    | none => exact @FailsLocally.error _ (.unknownCodec name) rfl
    | some c =>
        exact (Codec.failsLocally_serialize (Registry.mem_builtins_of_get? hget) v).bind fun _ => .ok _
  · split
    · exact .ok _
    · split
      · next c hc =>
        exact (Codec.failsLocally_serialize (Registry.mem_builtins_of_forValue? hc) v).bind fun _ => .ok _
      · exact .ok _

/-- A live value is captured, or is at fault itself. -/
theorem failsLocally_ofLive (v : Value) (codec : Option String) : FailsLocally (ofLive v codec) :=
  (failsLocally_written v codec).bind fun _ => .ok _

end Property

namespace DataTree

theorem encodeItem_ends (v : Value) : (encodeItem v).Ends fun _ => True := by
  unfold encodeItem
  split
  · exact Attempt.ends_pure trivial
  · split
    · exact Attempt.ends_pure trivial
    · next c hc =>
      split
      · exact Attempt.ends_pure trivial
      · next fault hfault =>
        have hlocal :=
          (Codec.failsLocally_serialize (Registry.mem_builtins_of_forValue? hc) v).isLocal fault hfault
        split
        · refine Attempt.Succeeds.ends ?_
          exact (Attempt.succeeds_lift (Q := fun _ => True) trivial).bind fun _ _ => Attempt.succeeds_pure trivial
        · exact Attempt.ends_throw hlocal

theorem encodeItems_ends (key : String) (index : Nat) (items : List Value) :
    (encodeItems key index items).Ends fun _ => True := by
  induction items generalizing index with
  | nil => exact Attempt.ends_pure trivial
  | cons v rest ih =>
      exact (encodeItem_ends v).bind fun _ _ => (ih (index + 1)).bind fun _ _ =>
        Attempt.ends_pure trivial

theorem failsLocally_writePath (path : Path) : FailsLocally (writePath path) :=
  (FailsLocally.mapM Token.failsLocally_writeInteger path).bind fun _ => .ok _

theorem encodeBranches_ends (branches : Branches) : (encodeBranches branches).Ends fun _ => True := by
  induction branches with
  | nil => exact Attempt.ends_pure trivial
  | cons branch rest ih =>
      exact (failsLocally_writePath branch.1).ends.bind fun key _ =>
        (encodeItems_ends key 0 branch.2).bind fun _ _ => ih.bind fun _ _ => Attempt.ends_pure trivial

theorem failsLocally_elements (v : Value) : FailsLocally v.elements := by
  unfold Value.elements
  split
  all_goals first | exact .ok _ | exact .error rfl

theorem encodeEntries_ends (entries : Entries) : (encodeEntries entries).Ends fun _ => True := by
  induction entries with
  | nil => exact Attempt.ends_pure trivial
  | cons entry rest ih =>
      exact (failsLocally_elements entry.2).ends.bind fun items _ =>
        (encodeItems_ends _ 0 items).bind fun _ _ => ih.bind fun _ _ => Attempt.ends_pure trivial

/-- A data tree is written, or something in it is at fault. -/
theorem flattenValue_ends (v : Value) : (flattenValue v).Ends fun _ => True := by
  unfold flattenValue
  split
  · exact (encodeBranches_ends _).bind fun _ _ => Attempt.ends_pure trivial
  · exact (encodeEntries_ends _).bind fun _ _ => Attempt.ends_pure trivial
  · exact Attempt.ends_pure trivial
  · exact Attempt.ends_pure trivial
  · exact Attempt.ends_throw rfl

end DataTree

/-! ## The table -/

/-- A slider can be told in a text, or what it holds is at fault itself. -/
def Node.Describable (n : Node) : Prop := n.kind = .slider → n.packedSlider.Ends fun _ => True

/-- A slider whose value and limits are told by decimals can be described. -/
theorem Node.Presentable.describable {n : Node} (h : n.Presentable) : n.Describable := by
  intro hslider
  obtain ⟨packed, -, -, -, -, hpacked, -⟩ := h.packed hslider
  exact Or.inl ⟨packed, hpacked, trivial⟩

/-- What a node stores is read, or is at fault itself. -/
theorem PropertySource.read_ends {s : PropertySource} (hslider : s ≠ .sliderValue)
    (hdescription : s ≠ .stored .description) (n : Node) : (s.read n).Ends fun _ => True := by
  cases s with
  | stored a => cases a <;> first | exact absurd rfl hdescription | exact Attempt.ends_pure trivial
  | persistentData =>
      unfold read
      dsimp only
      split
      · exact DataTree.flattenValue_ends _
      · exact Attempt.ends_pure trivial
  | sliderValue => exact absurd rfl hslider
  | sliderRounding => exact Attempt.ends_pure trivial
  | listItems =>
      have hitem : ∀ v, FailsLocally (listItemValue v) := by
        intro v
        unfold listItemValue
        split
        · exact .ok _
        · exact .error rfl
      refine FailsLocally.ends ?_
      split
      · exact (DataTree.failsLocally_elements _).bind fun items => (FailsLocally.mapM hitem items).bind fun _ => .ok _
      · exact .error rfl

theorem PropertyDescriptor.capture?_ends_iff {d : PropertyDescriptor} {n : Node} :
    (d.capture? n).Ends (fun _ => True) ↔ (d.source.read n).Ends fun _ => True := by
  unfold capture?
  constructor
  · exact Attempt.Ends.of_bind
  · intro h
    refine h.bind fun v _ => ?_
    split
    · exact Attempt.ends_pure trivial
    · exact (Property.failsLocally_ofLive v d.codec).ends.bind fun _ _ => Attempt.ends_pure trivial

namespace PropertyTable

/-- A table captures the properties of a node unless reading one of them ends the batch. -/
theorem exists_capture_iff {t : PropertyTable} {context : Context} {humanReadable : Bool} {exclude : List String}
    {n : Node} (hn : n.attributes.get? .kind = none) :
    (∃ ps, (t.capture context humanReadable exclude n).outcome.value = .ok ps) ↔
      ∀ d ∈ (t.forKind (some n.kind)).filter fun d =>
        context.admits d.name (some n.kind) && !exclude.contains d.name, (d.source.read n).Ends fun _ => True := by
  unfold capture
  rw [actingKind_of_known hn, Attempt.outcome_bind]
  change (∃ ps, (List.mapM _ _ >>= fun (found : List (Option (String × Property))) =>
    pure (found.filterMap id) : Attempt Properties).outcome.value = .ok ps) ↔ _
  rw [Attempt.exists_bind_pure_iff, Attempt.exists_mapM_iff]
  refine forall₂_congr fun d _ => ?_
  rw [Attempt.exists_bind_pure_iff, exists_passOver_iff, PropertyDescriptor.capture?_ends_iff]

/-- **The properties of a node are captured**, whatever it holds, unless it is a slider that cannot be
described. -/
theorem exists_capture_standard_iff {humanReadable : Bool} {n : Node} (hn : n.attributes.get? .kind = none) :
    (∃ ps, (standard.capture .full humanReadable [] n).outcome.value = .ok ps) ↔ n.Describable := by
  rw [exists_capture_iff hn]
  constructor
  · intro h hslider
    have hvalue := h ⟨"CurrentValue", .sliderValue, some [.slider], none, false⟩ (by rw [hslider]; decide)
    unfold PropertySource.read at hvalue
    rw [← bind_pure_comp] at hvalue
    exact hvalue.of_bind
  · intro h d hd
    obtain ⟨hstandard, hkind⟩ := mem_of_exchanged hd
    by_cases hsource : d.source = .sliderValue
    · have hslider : n.kind = .slider := by
        simpa [PropertyDescriptor.appliesTo, (packed_of_source hstandard hsource).2.2] using hkind
      rw [hsource]
      unfold PropertySource.read
      rw [← bind_pure_comp]
      exact (h hslider).bind fun _ _ => Attempt.ends_pure trivial
    · have hdescription : ∀ d ∈ standard, d.source ≠ .stored .description := by decide
      exact PropertySource.read_ends hsource (hdescription d hstandard) n

end PropertyTable

end Patchbay
