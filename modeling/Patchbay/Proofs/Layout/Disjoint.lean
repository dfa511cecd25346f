import Patchbay.Layout.Placement
import Patchbay.Proofs.Keyed
import Mathlib

/-!
# Layouts do not overlap

In exact arithmetic no two nodes of a layout overlap, unless the document itself put both of them
where they are, and none overlaps what is on the canvas.

* `Frame.points` — the points of a rectangle, its border included
* `Position.Clear` — node rectangles at two positions have a gap between them
* **`Frame.bottom_le_of_aroundAll`** — nothing on the canvas reaches below its bounds.
* **`cellsFrom_injective`** — no two ids share a cell, whatever the columns are.  So the layout does not
  depend on the layers being any good: cycles need no case of their own.
* **`localPositions_clear`** — the positions before everything is moved.  Cells have gaps since the
  spacing is larger than a node; cells and supplied positions since the cells start below.
* **`placement_clear`** — the result for every document, every choice of exact pivots, and every canvas.
-/

namespace Patchbay

/-! ## Exact coordinates -/

instance : Coordinate ℚ where
  ofNat := fun n => n
  decLt := inferInstance

theorem leastOf_le {a : ℚ} {items : List ℚ} : ∀ x ∈ a :: items, leastOf a items ≤ x := by
  induction items generalizing a with
  | nil =>
      intro x hx
      rw [List.mem_singleton.mp hx]
      exact le_refl a
  | cons b rest ih =>
      intro x hx
      have hstep : leastOf a (b :: rest) = leastOf (if b < a then b else a) rest := rfl
      rw [hstep]
      have hfirst := ih (a := if b < a then b else a) _ List.mem_cons_self
      rcases List.mem_cons.mp hx with rfl | hx
      · refine hfirst.trans ?_
        split <;> linarith
      · rcases List.mem_cons.mp hx with rfl | hx
        · refine hfirst.trans ?_
          split <;> linarith
        · exact ih x (List.mem_cons_of_mem _ hx)

theorem le_greatestOf {a : ℚ} {items : List ℚ} : ∀ x ∈ a :: items, x ≤ greatestOf a items := by
  induction items generalizing a with
  | nil =>
      intro x hx
      rw [List.mem_singleton.mp hx]
      exact le_refl a
  | cons b rest ih =>
      intro x hx
      have hstep : greatestOf a (b :: rest) = greatestOf (if a < b then b else a) rest := rfl
      rw [hstep]
      have hfirst := ih (a := if a < b then b else a) _ List.mem_cons_self
      rcases List.mem_cons.mp hx with rfl | hx
      · refine le_trans ?_ hfirst
        split <;> linarith
      · rcases List.mem_cons.mp hx with rfl | hx
        · refine le_trans ?_ hfirst
          split <;> linarith
        · exact ih x (List.mem_cons_of_mem _ hx)

/-! ## Rectangles -/

/-- The points of a rectangle, its border included. -/
def Frame.points (r : Frame ℚ) : Set (ℚ × ℚ) := Set.Icc (r.x, r.y) (r.x + r.width, r.y + r.height)

@[simp] theorem Position.add_x (p q : Position ℚ) : (p.add q).x = p.x + q.x := rfl

@[simp] theorem Position.add_y (p q : Position ℚ) : (p.add q).y = p.y + q.y := rfl

/-- Nodes at two positions have a gap between them. -/
def Position.Clear (p q : Position ℚ) : Prop :=
  p.x + 160 < q.x ∨ q.x + 160 < p.x ∨ p.y + 80 < q.y ∨ q.y + 80 < p.y

namespace Position.Clear

variable {p q : Position ℚ}

theorem symm (h : p.Clear q) : q.Clear p := by
  rcases h with h | h | h | h
  · exact Or.inr (Or.inl h)
  · exact Or.inl h
  · exact Or.inr (Or.inr (Or.inr h))
  · exact Or.inr (Or.inr (Or.inl h))

/-- What is moved by the same offset keeps its gap. -/
theorem add (h : p.Clear q) (offset : Position ℚ) : (p.add offset).Clear (q.add offset) := by
  unfold Clear at h ⊢
  simp only [add_x, add_y]
  rcases h with h | h | h | h
  · exact Or.inl (by linarith)
  · exact Or.inr (Or.inl (by linarith))
  · exact Or.inr (Or.inr (Or.inl (by linarith)))
  · exact Or.inr (Or.inr (Or.inr (by linarith)))

theorem disjoint (h : p.Clear q) :
    Disjoint (Frame.ofPivot p).points (Frame.ofPivot q).points := by
  rw [Set.disjoint_left]
  rintro ⟨x, y⟩ hp hq
  have hwidth : ∀ r : Position ℚ, (Frame.ofPivot r).width = 160 := fun _ => by
    change ((160 : ℕ) : ℚ) = 160
    norm_num
  have hheight : ∀ r : Position ℚ, (Frame.ofPivot r).height = 80 := fun _ => by
    change ((80 : ℕ) : ℚ) = 80
    norm_num
  obtain ⟨⟨hpx, hpy⟩, hpx', hpy'⟩ := hp
  obtain ⟨⟨hqx, hqy⟩, hqx', hqy'⟩ := hq
  simp only [hwidth, hheight] at hpx' hpy' hqx' hqy'
  change p.x ≤ x at hpx
  change p.y ≤ y at hpy
  change x ≤ p.x + 160 at hpx'
  change y ≤ p.y + 80 at hpy'
  change q.x ≤ x at hqx
  change q.y ≤ y at hqy
  change x ≤ q.x + 160 at hqx'
  change y ≤ q.y + 80 at hqy'
  rcases h with h | h | h | h <;> linarith

end Position.Clear

namespace Frame

/-- The rectangle takes up some room. -/
structure Solid (r : Frame ℚ) : Prop where
  width : 0 < r.width
  height : 0 < r.height

theorem solid_ofPivot (p : Position ℚ) : (ofPivot p).Solid := by
  constructor
  · change (0 : ℚ) < ((160 : ℕ) : ℚ)
    norm_num
  · change (0 : ℚ) < ((80 : ℕ) : ℚ)
    norm_num

theorem Solid.isNull {r : Frame ℚ} (h : r.Solid) : r.isNull = false := by
  have hzero : (Coordinate.ofNat 0 : ℚ) = 0 := Nat.cast_zero
  have hwidth : (r.width == (Coordinate.ofNat 0 : ℚ)) = false := by
    rw [hzero]
    exact beq_eq_false_iff_ne.mpr (ne_of_gt h.width)
  unfold Frame.isNull
  rw [hwidth]
  rfl

theorem ends_of_pos {start length : ℚ} (h : 0 < length) :
    ends start length = (start, start + length) := by
  unfold ends
  rw [if_neg]
  change ¬ length < ((0 : ℕ) : ℚ)
  push_cast
  linarith

/-- The rectangle around two reaches at least as far down as each of them. -/
theorem Solid.around {r s : Frame ℚ} (hr : r.Solid) (hs : s.Solid) :
    (r.around s).Solid ∧ r.bottom ≤ (r.around s).bottom ∧ s.bottom ≤ (r.around s).bottom := by
  have hwidth := hr.width
  have hwidth' := hs.width
  have hheight := hr.height
  have hheight' := hs.height
  unfold Frame.around
  rw [hr.isNull, hs.isNull, ends_of_pos hwidth, ends_of_pos hwidth', ends_of_pos hheight,
    ends_of_pos hheight']
  simp only [Bool.false_eq_true, if_false]
  unfold lesser greater Frame.bottom
  refine ⟨⟨?_, ?_⟩, ?_, ?_⟩ <;> dsimp only <;> split_ifs <;> linarith

/-- Nothing in a list of rectangles reaches below the rectangle around all. -/
theorem bottom_le_of_aroundAll {frames : List (Frame ℚ)} (hsolid : ∀ r ∈ frames, r.Solid)
    {b : Frame ℚ} (hb : aroundAll frames = some b) : b.Solid ∧ ∀ r ∈ frames, r.bottom ≤ b.bottom := by
  have hfold : ∀ (rest : List (Frame ℚ)) (r : Frame ℚ), r.Solid → (∀ s ∈ rest, s.Solid) →
      (rest.foldl Frame.around r).Solid ∧
        ∀ s ∈ r :: rest, s.bottom ≤ (rest.foldl Frame.around r).bottom := by
    intro rest
    induction rest with
    | nil =>
        intro r hr _
        refine ⟨hr, fun s hs => ?_⟩
        rw [List.mem_singleton.mp hs]
        exact le_refl _
    | cons t rest ih =>
        intro r hr hrest
        obtain ⟨haround, hleft, hright⟩ := hr.around (hrest t List.mem_cons_self)
        obtain ⟨hall, hbelow⟩ := ih _ haround fun s hs => hrest s (List.mem_cons_of_mem t hs)
        have hfirst := hbelow _ List.mem_cons_self
        refine ⟨hall, fun s hs => ?_⟩
        rcases List.mem_cons.mp hs with rfl | hs
        · exact le_trans hleft hfirst
        · rcases List.mem_cons.mp hs with rfl | hs
          · exact le_trans hright hfirst
          · exact hbelow s (List.mem_cons_of_mem _ hs)
  cases frames with
  | nil => cases hb
  | cons r rest =>
      cases hb
      exact hfold rest r (hsolid r List.mem_cons_self) fun s hs =>
        hsolid s (List.mem_cons_of_mem r hs)

end Frame

/-! ## Cells -/

namespace Layout

theorem map_fst_cellsFrom (layer : String → Nat) (seen : List Nat) (ids : List String) :
    (cellsFrom layer seen ids).map Prod.fst = ids := by
  induction ids generalizing seen with
  | nil => rfl
  | cons i rest ih => rw [cellsFrom, List.map_cons, ih]

/-- A cell is below those of its column that were given out before. -/
theorem count_le_row {layer : String → Nat} {seen : List Nat} {ids : List String} {i : String} {c : Cell}
    (h : (i, c) ∈ cellsFrom layer seen ids) : seen.count c.column ≤ c.row := by
  induction ids generalizing seen with
  | nil => cases h
  | cons k rest ih =>
      rw [cellsFrom, List.mem_cons] at h
      rcases h with heq | h
      · cases heq
        exact Nat.le_refl _
      · exact Nat.le_trans List.count_le_count_cons (ih h)

/-- **No two ids share a cell**, whatever the columns are. -/
theorem cellsFrom_injective {layer : String → Nat} {seen : List Nat} {ids : List String} {i j : String}
    {c : Cell} (hi : (i, c) ∈ cellsFrom layer seen ids) (hj : (j, c) ∈ cellsFrom layer seen ids) :
    i = j := by
  induction ids generalizing seen with
  | nil => cases hi
  | cons k rest ih =>
      -- the first cell of the list is not given out again
      have hfirst : ∀ l, (l, (⟨layer k, seen.count (layer k)⟩ : Cell)) ∉
          cellsFrom layer (layer k :: seen) rest := by
        intro l hmem
        have hle : (layer k :: seen).count (layer k) ≤ seen.count (layer k) := count_le_row hmem
        rw [List.count_cons_self] at hle
        exact Nat.not_succ_le_self _ hle
      rw [cellsFrom, List.mem_cons] at hi hj
      rcases hi with hi | hi <;> rcases hj with hj | hj
      · cases hi
        cases hj
        rfl
      · cases hi
        exact absurd hj (hfirst j)
      · cases hj
        exact absurd hi (hfirst i)
      · exact ih hi hj

theorem lookup_cells {layer : String → Nat} {ids : List String} (hids : ids.Nodup) {i : String}
    {c : Cell} : (cells layer ids).lookup i = some c ↔ (i, c) ∈ cellsFrom layer [] ids := by
  have hkeys : ((cellsFrom layer [] ids).map Prod.fst).Nodup := by
    rwa [map_fst_cellsFrom]
  unfold cells
  rw [Keyed.ofList_of_nodup hkeys, Keyed.lookup_eq_some_iff hkeys]

theorem exists_cell (layer : String → Nat) {ids : List String} (hids : ids.Nodup) {i : String}
    (hi : i ∈ ids) : ∃ c, (cells layer ids).lookup i = some c := by
  rw [← map_fst_cellsFrom layer [] ids, List.mem_map] at hi
  obtain ⟨⟨_, c⟩, hmem, rfl⟩ := hi
  exact ⟨c, (lookup_cells hids).mpr hmem⟩

/-! ## The measures of the grid -/

theorem position_x (c : Cell) : ((Settings.default : Settings ℚ).position c).x = c.column * 200 := by
  change (c.column : ℚ) * ((200 : ℕ) : ℚ) = _
  norm_num

theorem position_y (c : Cell) : ((Settings.default : Settings ℚ).position c).y = c.row * 100 := by
  change (c.row : ℚ) * ((100 : ℕ) : ℚ) = _
  norm_num

theorem span_default : (Settings.default : Settings ℚ).span = 100 := by
  change ((100 : ℕ) : ℚ) = 100
  norm_num

/-- Nodes in different cells have a gap between them. -/
theorem position_clear {c c' : Cell} (h : c ≠ c') :
    ((Settings.default : Settings ℚ).position c).Clear (Settings.default.position c') := by
  have hgap : ∀ m n : Nat, m < n → (m : ℚ) + 1 ≤ n := fun m n hlt => by exact_mod_cast hlt
  unfold Position.Clear
  rw [position_x, position_x, position_y, position_y]
  by_cases hcolumn : c.column = c'.column
  · have hrow : c.row ≠ c'.row := by
      intro heq
      cases c
      cases c'
      simp_all
    rcases Nat.lt_or_gt_of_ne hrow with hlt | hlt
    · have := hgap _ _ hlt
      exact Or.inr (Or.inr (Or.inl (by linarith)))
    · have := hgap _ _ hlt
      exact Or.inr (Or.inr (Or.inr (by linarith)))
  · rcases Nat.lt_or_gt_of_ne hcolumn with hlt | hlt
    · have := hgap _ _ hlt
      exact Or.inl (by linarith)
    · have := hgap _ _ hlt
      exact Or.inr (Or.inl (by linarith))

/-! ## Before everything is moved -/

/-- The position of one item, before everything is moved. -/
def Settings.localPosition (s : Settings ℚ) (grid : List (String × Cell)) (items : List (Item ℚ)) (item : Item ℚ) :
    Position ℚ :=
  match item.pivot with
  | some p => p
  | none => (((grid.lookup item.id).map s.position).getD Position.origin).add (cellOffset s items)

/-- The same with the usual measures. -/
abbrev localPosition : List (String × Cell) → List (Item ℚ) → Item ℚ → Position ℚ :=
  Settings.default.localPosition

variable {grid : List (String × Cell)} {items : List (Item ℚ)}

theorem localPositions_eq {s : Settings ℚ} (hids : (items.map (·.id)).Nodup) :
    localPositions s grid items = items.map fun item => (item.id, s.localPosition grid items item) := by
  have hkeys : ((items.map fun item => (item.id, s.localPosition grid items item)).map Prod.fst).Nodup := by
    rw [List.map_map]
    exact hids
  rw [← Keyed.ofList_of_nodup hkeys]
  unfold localPositions
  refine congrArg Keyed.ofList (List.map_congr_left fun item _ => ?_)
  unfold Settings.localPosition
  cases item.pivot <;> rfl

/-- Where only some positions are supplied, the cells lie below all of these. -/
theorem below_pivots {item item' : Item ℚ} (hitem : item ∈ items) (hitem' : item' ∈ items)
    {p : Position ℚ} (hp : item.pivot = some p) (hnone : item'.pivot = none) :
    p.y + 100 ≤ (cellOffset .default items).y := by
  have hmem : p ∈ items.filterMap (·.pivot) := List.mem_filterMap.mpr ⟨item, hitem, hp⟩
  have hlt : (items.filterMap (·.pivot)).length < items.length :=
    List.length_filterMap_lt_length_iff_exists.mpr ⟨item', hitem', hnone⟩
  unfold cellOffset
  simp only [hlt, if_true]
  cases hpivots : items.filterMap (·.pivot) with
  | nil =>
      rw [hpivots] at hmem
      cases hmem
  | cons first rest =>
      rw [hpivots] at hmem
      change p.y + 100 ≤ greatestOf first.y (rest.map (·.y)) + (Settings.default : Settings ℚ).span
      have hle : p.y ≤ greatestOf first.y (rest.map (·.y)) :=
        le_greatestOf p.y (List.mem_map_of_mem (f := (·.y)) hmem)
      rw [span_default]
      linarith

/-- **Before everything is moved** there is a gap between any two items, unless both positions are
supplied. -/
theorem localPositions_clear (layer : String → Nat) (hids : (items.map (·.id)).Nodup)
    {item item' : Item ℚ} (hitem : item ∈ items) (hitem' : item' ∈ items) (hne : item.id ≠ item'.id)
    (hpivots : ¬ (item.pivot.isSome ∧ item'.pivot.isSome)) :
    (localPosition (cells layer (items.map (·.id))) items item).Clear
      (localPosition (cells layer (items.map (·.id))) items item') := by
  obtain ⟨c, hc⟩ := exists_cell layer hids (List.mem_map_of_mem (f := (·.id)) hitem)
  obtain ⟨c', hc'⟩ := exists_cell layer hids (List.mem_map_of_mem (f := (·.id)) hitem')
  -- a supplied position is above every cell
  have hbelow : ∀ {a b : Item ℚ} {p : Position ℚ} {k : Cell}, a ∈ items → b ∈ items →
      a.pivot = some p → b.pivot = none →
      p.Clear ((Settings.default.position k).add (cellOffset .default items)) := by
    intro a b p k ha hb hp hnone
    have hoffset := below_pivots ha hb hp hnone
    have hrow : (0 : ℚ) ≤ (Settings.default.position k).y := by
      rw [position_y]
      positivity
    refine Or.inr (Or.inr (Or.inl ?_))
    change p.y + 80 < (Settings.default.position k).y + (cellOffset .default items).y
    linarith
  unfold localPosition Settings.localPosition
  rw [hc, hc']
  cases hp : item.pivot with
  | some p =>
      cases hp' : item'.pivot with
      | some p' =>
          rw [hp, hp'] at hpivots
          exact absurd ⟨rfl, rfl⟩ hpivots
      | none => exact hbelow hitem hitem' hp hp'
  | none =>
      cases hp' : item'.pivot with
      | some p' => exact (hbelow hitem' hitem hp' hp).symm
      | none =>
          refine Position.Clear.add (position_clear ?_) _
          rintro rfl
          exact hne (cellsFrom_injective ((lookup_cells hids).mp hc) ((lookup_cells hids).mp hc'))

/-! ## After everything is moved -/

theorem occupied_of_isNull {b : Frame ℚ} (h : b.isNull = false) : occupied (some b) = some b := by
  unfold occupied
  rw [Option.filter_some, h]
  rfl

/-- What is placed goes below everything that is on the canvas. -/
theorem below_canvas {canvas : List (Position ℚ)} {q : Position ℚ} (hq : q ∈ canvas)
    {positions : List (Position ℚ)} {p : Position ℚ} (hp : p ∈ positions) :
    q.Clear (p.add (offset .default (Frame.aroundAll (canvas.map Frame.ofPivot)) positions)) := by
  have hmem : Frame.ofPivot q ∈ canvas.map Frame.ofPivot := List.mem_map_of_mem hq
  cases hbounds : Frame.aroundAll (canvas.map Frame.ofPivot) with
  | none =>
      cases canvas with
      | nil => cases hq
      | cons _ _ => cases hbounds
  | some b =>
      obtain ⟨hsolid, hbottom⟩ := Frame.bottom_le_of_aroundAll (by
        intro r hr
        obtain ⟨p, -, rfl⟩ := List.mem_map.mp hr
        exact Frame.solid_ofPivot p) hbounds
      have hoccupied := occupied_of_isNull hsolid.isNull
      cases positions with
      | nil => cases hp
      | cons first rest =>
          have hleast : leastOf first.y (rest.map (·.y)) ≤ p.y :=
            leastOf_le p.y (List.mem_map_of_mem (f := (·.y)) hp)
          have hqb : q.y + ((80 : ℕ) : ℚ) ≤ b.bottom := hbottom _ hmem
          have hy : (offset .default (some b) (first :: rest)).y =
              b.bottom + 100 - leastOf first.y (rest.map (·.y)) := by
            unfold offset startPoint
            rw [hoccupied, ← span_default]
            rfl
          push_cast at hqb
          refine Or.inr (Or.inr (Or.inl ?_))
          change q.y + 80 < p.y + (offset .default (some b) (first :: rest)).y
          rw [hy]
          linarith

end Layout

/-! ## Documents -/

namespace Document

open Layout

/-- The ids of the components. -/
abbrev ids (d : Document) : List String := d.components.map (·.id)

/-- What is placed of a document, with any positions in place of the supplied ones. -/
def itemsWith {α : Type} (d : Document) (pivot : Component → Option (Position α)) : List (Item α) :=
  d.components.map fun c => ⟨c.id, pivot c⟩

/-- With the supplied positions these are the items of `value_placement`. -/
theorem items_eq (d : Document) : d.items = d.itemsWith Component.pivot := rfl

/-- **Nothing that is placed overlaps anything.**  For any connections, cycles included, any supplied
positions and any canvas: every component gets a position, two components are apart unless the
positions of both are supplied, and every component is apart from every node that is on the canvas. -/
theorem placement_clear (d : Document) (hids : (d.components.map (·.id)).Nodup)
    (pivot : Component → Option (Position ℚ)) (canvas : List (Position ℚ)) :
    ∃ position : Component → Position ℚ,
      (∀ c ∈ d.components,
        (place .default (Frame.aroundAll (canvas.map Frame.ofPivot)) d.grid.value
          (d.itemsWith pivot)).lookup c.id = some (position c)) ∧
      (∀ c ∈ d.components, ∀ c' ∈ d.components, c.id ≠ c'.id →
        ¬ ((pivot c).isSome ∧ (pivot c').isSome) →
        Disjoint (Frame.ofPivot (position c)).points (Frame.ofPivot (position c')).points) ∧
      ∀ c ∈ d.components, ∀ q ∈ canvas,
        Disjoint (Frame.ofPivot q).points (Frame.ofPivot (position c)).points := by
  let items := d.itemsWith pivot
  let item (c : Component) : Item ℚ := ⟨c.id, pivot c⟩
  have hmem : ∀ c ∈ d.components, item c ∈ items := fun c hc => List.mem_map_of_mem hc
  have hitems : items.map (·.id) = d.components.map (·.id) := by
    change (d.components.map item).map (·.id) = _
    rw [List.map_map]
    rfl
  have hnodup : (items.map (·.id)).Nodup := hitems ▸ hids
  have hgrid : d.grid.value = cells d.layers.of (items.map (·.id)) := by
    rw [hitems]
    rfl
  let grid := cells d.layers.of (items.map (·.id))
  let found := items.map fun item => (item.id, localPosition grid items item)
  let moved := offset .default (Frame.aroundAll (canvas.map Frame.ofPivot)) (found.map Prod.snd)
  refine ⟨fun c => (localPosition grid items (item c)).add moved, ?_, ?_, ?_⟩
  · intro c hc
    unfold place
    dsimp only
    rw [hgrid, localPositions_eq hnodup]
    have hkeys : (((found.map fun (id, p) => (id, p.add moved))).map Prod.fst).Nodup := by
      rw [List.map_map, List.map_map]
      exact hnodup
    refine (Keyed.lookup_eq_some_iff hkeys).mpr ?_
    rw [List.map_map]
    exact List.mem_map_of_mem (hmem c hc)
  · intro c hc c' hc' hne hpivots
    have hlocal := localPositions_clear d.layers.of hnodup (hmem c hc) (hmem c' hc') hne
      hpivots
    exact (hlocal.add moved).disjoint
  · intro c hc q hq
    refine (below_canvas hq ?_).disjoint
    change _ ∈ (items.map _).map Prod.snd
    rw [List.map_map]
    exact List.mem_map_of_mem (hmem c hc)

/-- Two components that feed each other, and a third that one of them feeds. -/
def feedback : Document where
  components := ["left", "right", "out"].map fun id =>
    { name := .str "Addition", typeKey := .str "", id, pivot := none, selected := false,
      properties := [], inputs := [], outputs := [], warnings := [], errors := [] }
  connections :=
    [⟨⟨"left", .str "R"⟩, ⟨"right", .str "A"⟩⟩, ⟨⟨"right", .str "R"⟩, ⟨"left", .str "A"⟩⟩,
     ⟨⟨"left", .str "R"⟩, ⟨"out", .str "A"⟩⟩]

/-- Only the third component comes with a position, and it lies between nodes of the canvas. -/
theorem placement_clear_feedback :
    ∃ position : Component → Position ℚ, ∀ c ∈ feedback.components,
      Disjoint (Frame.ofPivot ⟨0, 0⟩).points (Frame.ofPivot (position c)).points := by
  obtain ⟨position, -, -, hcanvas⟩ := placement_clear feedback (by decide)
    (fun c => if c.id = "out" then some ⟨100, 40⟩ else none) [⟨0, 0⟩, ⟨300, 700 / 2⟩]
  exact ⟨position, fun c hc => hcanvas c hc ⟨0, 0⟩ List.mem_cons_self⟩

end Document

end Patchbay
