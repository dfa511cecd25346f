import Patchbay.Proofs.Layout.Disjoint

/-!
# Layouts are moved as a whole

A document that is placed below the content of the canvas looks as it does on an empty canvas.  Three offsets
meet there: that of the cells below the supplied positions, the origin, and the way to the content.  Only the last
two depend on the canvas, and they are the same for all components.

* `upperLeft_spec` — the corner of some positions, which some of them attain on each side
* `offset_free`, `offset_below` — the offset on an empty canvas and below content
* `Document.unmoved`, **`Document.place_itemsWith`** — every component is moved by the same offset from where it is
  without the canvas.
* **`Document.placement_shifted`** — the result for documents, in exact arithmetic
-/

namespace Patchbay

namespace Layout

/-! ## Corners -/

theorem leastOf_mem (a : ℚ) (items : List ℚ) : leastOf a items ∈ a :: items := by
  induction items generalizing a with
  | nil => exact List.mem_cons_self
  | cons b rest ih =>
      have hstep : leastOf a (b :: rest) = leastOf (if b < a then b else a) rest := rfl
      rw [hstep]
      rcases List.mem_cons.mp (ih (if b < a then b else a)) with heq | hmem
      · rw [heq]
        split <;> simp
      · exact List.mem_cons_of_mem a (List.mem_cons_of_mem b hmem)

/-- The corner of some positions: none is above it or to the left, and on each side there is one at it. -/
structure IsCorner (positions : List (Position ℚ)) (corner : Position ℚ) : Prop where
  left : ∀ p ∈ positions, corner.x ≤ p.x
  top : ∀ p ∈ positions, corner.y ≤ p.y
  leftmost : ∃ p ∈ positions, p.x = corner.x
  topmost : ∃ p ∈ positions, p.y = corner.y

theorem upperLeft_spec {positions : List (Position ℚ)} (h : positions ≠ []) :
    ∃ corner, upperLeft positions = some corner ∧ IsCorner positions corner := by
  cases positions with
  | nil => exact absurd rfl h
  | cons first rest =>
      refine ⟨_, rfl, ?_, ?_, ?_, ?_⟩
      · exact fun p hp => leastOf_le p.x (List.mem_map_of_mem (f := (·.x)) hp)
      · exact fun p hp => leastOf_le p.y (List.mem_map_of_mem (f := (·.y)) hp)
      · exact List.mem_map.mp (leastOf_mem first.x (rest.map (·.x)))
      · exact List.mem_map.mp (leastOf_mem first.y (rest.map (·.y)))

/-! ## Offsets -/

section

variable {s : Settings ℚ} {around : Option (Frame ℚ)} {positions : List (Position ℚ)}

/-- On an empty canvas everything is moved to the origin. -/
theorem offset_free (h : occupied around = none) : offset s around positions = s.origin := by
  unfold offset startPoint
  rw [h]

/-- Below content, the corner of what is placed is moved to the start. -/
theorem offset_below {b : Frame ℚ} {corner : Position ℚ} (hb : b.isNull = false)
    (hcorner : upperLeft positions = some corner) :
    offset s (some b) positions = ⟨b.x - corner.x, b.bottom + s.span - corner.y⟩ := by
  unfold offset startPoint
  rw [occupied_of_isNull hb, hcorner]

/-- **Every item is moved by the same offset.** -/
theorem place_eq {grid : List (String × Cell)} {items : List (Item ℚ)} (hids : (items.map (·.id)).Nodup) :
    place s around grid items = items.map fun item => (item.id, (s.localPosition grid items item).add
      (offset s around (items.map (s.localPosition grid items)))) := by
  unfold place
  dsimp only
  rw [localPositions_eq hids, List.map_map, List.map_map]
  rfl

end

end Layout

namespace Document

open Layout

section

variable (d : Document) (s : Settings ℚ) (pivot : Component → Option (Position ℚ))

/-- Where a component is before everything is moved. -/
def unmoved (c : Component) : Position ℚ := s.localPosition d.grid.value (d.itemsWith pivot) ⟨c.id, pivot c⟩

/-- A supplied position is taken as it is. -/
theorem unmoved_supplied {c : Component} {p : Position ℚ} (hp : pivot c = some p) : d.unmoved s pivot c = p := by
  unfold unmoved Settings.localPosition
  rw [hp]

/-- **Every component is moved by the same offset.** -/
theorem place_itemsWith (hids : d.ids.Nodup) (around : Option (Frame ℚ)) :
    place s around d.grid.value (d.itemsWith pivot) = d.components.map fun c =>
      (c.id, (d.unmoved s pivot c).add (offset s around (d.components.map (d.unmoved s pivot)))) := by
  have hitems : ((d.itemsWith pivot).map (·.id)).Nodup := by
    unfold itemsWith
    rwa [List.map_map]
  have hfound : (d.itemsWith pivot).map (s.localPosition d.grid.value (d.itemsWith pivot)) =
      d.components.map (d.unmoved s pivot) := by
    conv_lhs => unfold itemsWith
    rw [List.map_map]
    rfl
  rw [place_eq hitems, hfound]
  conv_lhs => unfold itemsWith
  rw [List.map_map]
  rfl

end

/-- **Placing a document below other content moves it as a whole.**  For any supplied positions, any measures and
any content that takes up room: the components lie to one another as on an empty canvas, none lies further to the
left than the content or higher than the gap below it allows, and some component lies at either limit.  On an empty
canvas a supplied position counts from the origin. -/
theorem placement_shifted (d : Document) (hids : d.ids.Nodup) (hne : d.components ≠ [])
    (pivot : Component → Option (Position ℚ)) (s : Settings ℚ) (b : Frame ℚ) (hb : b.isNull = false) :
    ∃ free below : Component → Position ℚ,
      (∀ around, occupied around = none →
        place s around d.grid.value (d.itemsWith pivot) = d.components.map fun c => (c.id, free c)) ∧
      place s (some b) d.grid.value (d.itemsWith pivot) = d.components.map (fun c => (c.id, below c)) ∧
      (∀ c ∈ d.components, ∀ c' ∈ d.components,
        (below c).x - (below c').x = (free c).x - (free c').x ∧
          (below c).y - (below c').y = (free c).y - (free c').y) ∧
      (∀ c ∈ d.components, b.x ≤ (below c).x ∧ b.bottom + s.span ≤ (below c).y) ∧
      (∃ c ∈ d.components, (below c).x = b.x) ∧ (∃ c ∈ d.components, (below c).y = b.bottom + s.span) ∧
      ∀ c ∈ d.components, ∀ p, pivot c = some p → free c = p.add s.origin := by
  let found := d.unmoved s pivot
  have hfound : d.components.map found ≠ [] := fun hnil => hne (List.map_eq_nil_iff.mp hnil)
  obtain ⟨corner, hcorner, hspec⟩ := upperLeft_spec hfound
  refine ⟨fun c => (found c).add s.origin, fun c => (found c).add ⟨b.x - corner.x, b.bottom + s.span - corner.y⟩,
    fun around haround => ?_, ?_, fun c _ c' _ => ?_, fun c hc => ?_, ?_, ?_, fun c _ p hp => ?_⟩
  · rw [place_itemsWith d s pivot hids, offset_free haround]
  · rw [place_itemsWith d s pivot hids, offset_below hb hcorner]
  · simp only [Position.add_x, Position.add_y]
    constructor <;> ring
  · have hleft := hspec.left _ (List.mem_map_of_mem (f := found) hc)
    have htop := hspec.top _ (List.mem_map_of_mem (f := found) hc)
    simp only [Position.add_x, Position.add_y]
    constructor <;> linarith
  · obtain ⟨p, hp, heq⟩ := hspec.leftmost
    obtain ⟨c, hc, rfl⟩ := List.mem_map.mp hp
    refine ⟨c, hc, ?_⟩
    simp only [Position.add_x]
    linarith
  · obtain ⟨p, hp, heq⟩ := hspec.topmost
    obtain ⟨c, hc, rfl⟩ := List.mem_map.mp hp
    refine ⟨c, hc, ?_⟩
    simp only [Position.add_y]
    linarith
  · exact congrArg (Position.add · s.origin) (d.unmoved_supplied s pivot hp)

/-- One component has a position, the origin is elsewhere, and the content is a line. -/
theorem placement_shifted_feedback :
    ∃ free below : Component → Position ℚ,
      (∀ c ∈ feedback.components, ∀ c' ∈ feedback.components, (below c).x - (below c').x = (free c).x - (free c').x) ∧
      (∃ c ∈ feedback.components, (below c).y = 45) ∧
      ∀ c ∈ feedback.components, c.id = "out" → free c = ⟨107, 37⟩ := by
  obtain ⟨free, below, -, -, hsame, -, -, htop, hfree⟩ := placement_shifted feedback (by decide) (by decide)
    (fun c => if c.id = "out" then some ⟨100, 40⟩ else none) ⟨200, 100, 25, ⟨7, -3⟩⟩ ⟨-10, 20, 300, 0⟩ (by decide)
  refine ⟨free, below, fun c hc c' hc' => (hsame c hc c' hc').1, ?_, fun c hc hout => ?_⟩
  · obtain ⟨c, hc, heq⟩ := htop
    refine ⟨c, hc, heq.trans ?_⟩
    change (20 : ℚ) + 0 + 25 = 45
    norm_num
  · rw [hfree c hc ⟨100, 40⟩ (if_pos hout)]
    change (⟨100 + 7, 40 + -3⟩ : Position ℚ) = ⟨107, 37⟩
    norm_num

end Document

end Patchbay
