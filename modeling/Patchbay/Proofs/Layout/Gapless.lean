import Patchbay.Proofs.Layout.Disjoint
import Patchbay.Proofs.Layout.LongestPath

/-!
# The grid has no gaps

Whatever the connections are, every component gets a cell of its own, and neither a column nor a row of a column is
left out.

* `Sweep.take?`, `Sweep.Takes` — one round of the walk, with the node that it takes, and all rounds in order
* **`Sweep.Tidy`** is the invariant of the queue: it holds pending nodes, each once, and their edges are all
  settled.  A node of a cycle is taken when the queue is empty, so that it is not in the queue then.
* **`Sweep.Takes.perm`** — every node is taken once.
* `exists_previous`, `exists_columns` — a column is next to one that is used.  So the used ones are the first ones.
* `rows_cellsFrom` — the rows of a column, in the order of the ids
* **`Document.grid_gapless`** — the result for documents
-/

namespace Patchbay

namespace Layout

variable {ι : Type} [DecidableEq ι]

namespace Sweep

/-! ## Rounds -/

/-- The node that the next round takes, and the walk after it.  A node that was settled before is passed over. -/
def take? (next : ι → List ι) (s : Sweep ι) : Option (ι × Sweep ι) :=
  match s.ready, s.pending with
  | i :: ready, _ => some (i, if i ∈ s.pending then { s with ready }.settle next i else { s with ready })
  | [], i :: _ => some (i, { s with broken := i :: s.broken }.settle next i)
  | [], [] => none

/-- A walk ends, having taken some nodes in this order. -/
inductive Takes (next : ι → List ι) : (s : Sweep ι) → (taken : List ι) → (last : Sweep ι) → Prop
  | done {s : Sweep ι} : s.take? next = none → Takes next s [] s
  | round {s t last : Sweep ι} {i : ι} {taken : List ι} :
      s.take? next = some (i, t) → Takes next t taken last → Takes next s (i :: taken) last

/-- The walk goes on from round to round until there is none. -/
theorem exists_takes (next : ι → List ι) (s : Sweep ι) : ∃ taken, Takes next s taken (s.run next) := by
  fun_induction run next s with
  | case1 s i ready hready hi ih =>
      obtain ⟨taken, htaken⟩ := ih
      exact ⟨i :: taken, .round (by simp [take?, hready, hi]) htaken⟩
  | case2 s i ready hready hi ih =>
      obtain ⟨taken, htaken⟩ := ih
      exact ⟨i :: taken, .round (by simp [take?, hready, hi]) htaken⟩
  | case3 s hready hpending => exact ⟨[], .done (by simp [take?, hready, hpending])⟩
  | case4 s hready i rest hpending ih =>
      obtain ⟨taken, htaken⟩ := ih
      exact ⟨i :: taken, .round (by simp [take?, hready, hpending]) htaken⟩

/-! ## The queue -/

/-- A node is queued once if its counter counts the edges that are to be settled: it is queued when the counter
comes to zero, and from then on there are none. -/
theorem nodup_ready_foldl_relax (l : Nat) (s : Sweep ι) (is : List ι) (hnodup : s.ready.Nodup)
    (hzero : ∀ j ∈ s.ready, s.unmet j = 0) (hcount : ∀ j ∈ s.pending, is.count j ≤ s.unmet j) :
    (is.foldl (relax l) s).ready.Nodup := by
  induction is generalizing s with
  | nil => exact hnodup
  | cons i is ih =>
      rw [List.foldl_cons]
      by_cases hi : i ∈ s.pending
      · have hpos : is.count i + 1 ≤ s.unmet i := by
          have hle := hcount i hi
          rwa [List.count_cons_self] at hle
        have hnot : i ∉ s.ready := fun hmem => by
          have hnull := hzero i hmem
          omega
        have hstep : relax l s i =
            { s with
              layer := setAt s.layer i (max (s.layer i) (l + 1))
              unmet := setAt s.unmet i (s.unmet i - 1)
              ready := if s.unmet i - 1 = 0 then s.ready ++ [i] else s.ready } := if_pos hi
        have hrest : ∀ j ∈ s.ready, setAt s.unmet i (s.unmet i - 1) j = 0 := fun j hj => by
          rw [setAt_of_ne _ _ (ne_of_mem_of_not_mem hj hnot)]
          exact hzero j hj
        rw [hstep]
        refine ih _ ?_ ?_ ?_ <;> dsimp only
        · split
          · exact List.nodup_append'.mpr ⟨hnodup, List.nodup_singleton i, by simpa using hnot⟩
          · exact hnodup
        · intro j hj
          split at hj
          · next hleft =>
            rcases List.mem_append.mp hj with hj | hj
            · exact hrest j hj
            · rw [List.mem_singleton.mp hj, setAt_self]
              exact hleft
          · exact hrest j hj
        · intro j hj
          by_cases hji : j = i
          · rw [hji, setAt_self]
            omega
          · have hle := hcount j hj
            rw [List.count_cons_of_ne (Ne.symm hji)] at hle
            rwa [setAt_of_ne _ _ hji]
      · have hsame : relax l s i = s := if_neg hi
        rw [hsame]
        refine ih s hnodup hzero fun j hj => ?_
        exact List.count_le_count_cons.trans (hcount j hj)

/-- The queue holds pending nodes, each once, and none of them has an edge to be settled. -/
structure Tidy (edges : List (Edge ι)) (s : Sweep ι) : Prop where
  nodup : s.pending.Nodup
  /-- A counter counts the edges from pending nodes. -/
  unmet : ∀ i ∈ s.pending, s.unmet i = inboundFrom edges s.pending i
  distinct : s.ready.Nodup
  waiting : ∀ i ∈ s.ready, i ∈ s.pending ∧ s.unmet i = 0

theorem tidy_start {ids : List ι} {edges : List (Edge ι)} (hnodup : ids.Nodup)
    (hedges : ∀ a b, (a, b) ∈ edges → a ∈ ids) : (start ids edges).Tidy edges where
  nodup := hnodup
  unmet := fun i _ => (inboundFrom_all hedges i).symm
  distinct := hnodup.filter _
  waiting := fun _ hi =>
    ⟨(List.mem_filter.mp hi).1, of_decide_eq_true (List.mem_filter.mp hi).2⟩

namespace Tidy

variable {edges : List (Edge ι)} {s t : Sweep ι} {i : ι}

/-- Settling a node keeps the queue tidy.  `t` is the walk with the node out of its queue. -/
theorem settle (h : s.Tidy edges) (hp : t.pending = s.pending) (hu : t.unmet = s.unmet) (hdistinct : t.ready.Nodup)
    (hready : ∀ j ∈ t.ready, j ∈ s.ready ∧ j ≠ i) (hi : i ∈ s.pending) :
    (t.settle (successors edges) i).Tidy edges := by
  have hpending : ∀ j, j ∈ s.pending.erase i ↔ j ≠ i ∧ j ∈ s.pending := fun j => h.nodup.mem_erase_iff
  have hunmet := unmet_settle h.nodup h.unmet hp hu hi
  have hleft : (t.settle (successors edges) i).pending = s.pending.erase i := by rw [pending_settle, hp]
  constructor
  case nodup =>
    rw [hleft]
    exact h.nodup.erase i
  case unmet =>
    rw [hleft]
    exact hunmet
  case distinct =>
    refine nodup_ready_foldl_relax _ _ _ hdistinct ?_ fun j hj => ?_
    · intro j hj
      rw [hu]
      exact (h.waiting j (hready j hj).1).2
    · -- the edges that leave the node are among those that the counter counts
      have hj' : j ∈ s.pending.erase i := hp ▸ hj
      rw [count_successors]
      change _ ≤ t.unmet j
      rw [hu, h.unmet j ((hpending j).mp hj').2, inboundFrom_erase edges h.nodup hi j]
      exact Nat.le_add_left _ _
  case waiting =>
    rw [hleft]
    intro j hj
    have hmem : j ∈ s.pending.erase i ∧ s.unmet j ≤ edges.count (i, j) := by
      unfold Sweep.settle at hj
      rw [mem_ready_foldl_relax, count_successors, hp, hu] at hj
      rcases hj with hj | ⟨hj, -, hle⟩
      · obtain ⟨hqueued, hne⟩ := hready j hj
        obtain ⟨hmem, hzero⟩ := h.waiting j hqueued
        exact ⟨(hpending j).mpr ⟨hne, hmem⟩, hzero ▸ Nat.zero_le _⟩
      · exact ⟨hj, hle⟩
    refine ⟨hmem.1, ?_⟩
    have hsum := inboundFrom_erase edges h.nodup hi j
    rw [← h.unmet j ((hpending j).mp hmem.1).2] at hsum
    rw [hunmet j hmem.1]
    omega

/-- **A round takes a pending node, and no node that was settled before.** -/
theorem round (h : s.Tidy edges) (hround : s.take? (successors edges) = some (i, t)) :
    i ∈ s.pending ∧ t.pending = s.pending.erase i ∧ t.Tidy edges := by
  unfold take? at hround
  split at hround
  · next _ j ready hready =>
    obtain ⟨rfl, rfl⟩ := Prod.mk.inj (Option.some.inj hround)
    have hj : j ∈ s.pending := (h.waiting j (hready ▸ List.mem_cons_self)).1
    obtain ⟨hnot, hdistinct⟩ := List.nodup_cons.mp (hready ▸ h.distinct)
    rw [if_pos hj]
    refine ⟨hj, pending_settle _ _ _, h.settle rfl rfl hdistinct (fun k hk => ⟨?_, ?_⟩) hj⟩
    · rw [hready]
      exact List.mem_cons_of_mem j hk
    · exact ne_of_mem_of_not_mem hk hnot
  · next j rest hready hpending =>
    obtain ⟨rfl, rfl⟩ := Prod.mk.inj (Option.some.inj hround)
    have hj : j ∈ s.pending := hpending ▸ List.mem_cons_self
    have hnone : ∀ k, k ∉ s.ready := fun k hk => by
      rw [hready] at hk
      cases hk
    exact ⟨hj, pending_settle _ _ _, h.settle rfl rfl h.distinct (fun k hk => absurd hk (hnone k)) hj⟩
  · cases hround

end Tidy

/-- **Every node is taken once**, and nothing is left in the queue. -/
theorem Takes.perm {edges : List (Edge ι)} {s last : Sweep ι} {taken : List ι}
    (htakes : Takes (successors edges) s taken last) (h : s.Tidy edges) :
    taken.Perm s.pending ∧ last.pending = [] ∧ last.ready = [] := by
  induction htakes with
  | @done s hnone =>
      unfold take? at hnone
      split at hnone
      · cases hnone
      · cases hnone
      · next hready hpending =>
        rw [hpending]
        exact ⟨.nil, rfl, hready⟩
  | round hround _ ih =>
      obtain ⟨hi, hpending, htidy⟩ := h.round hround
      obtain ⟨hperm, hlast⟩ := ih htidy
      rw [hpending] at hperm
      exact ⟨(hperm.cons _).trans (List.perm_cons_erase hi).symm, hlast⟩

end Sweep

/-! ## Columns -/

/-- A node that is not in the first column is fed from the column before. -/
theorem exists_previous {ids : List ι} {edges : List (Edge ι)} {i : ι} (h : (layers ids edges).of i ≠ 0) :
    ∃ a, (a, i) ∈ proper ids edges ∧ (layers ids edges).of i = (layers ids edges).of a + 1 := by
  obtain ⟨hlongest, -⟩ := layers_kept ids edges
  have hfed : ∃ a, (a, i) ∈ kept (proper ids edges) ids.eraseDups := by
    by_contra hnone
    exact h (hlongest.source i (not_exists.mp hnone))
  obtain ⟨a, hedge, heq⟩ := (hlongest.fed i hfed).1
  exact ⟨a, (mem_kept.mp hedge).1, heq⟩

section

variable {ι : Type} {ids : List ι} {column : ι → Nat}
  (h : ∀ i ∈ ids, column i ≠ 0 → ∃ a ∈ ids, column i = column a + 1)

include h

/-- Where every column but the first comes with the one before, the columns up to a used one are used. -/
theorem exists_of_le {i : ι} (hi : i ∈ ids) {k : Nat} (hk : k ≤ column i) : ∃ j ∈ ids, column j = k := by
  induction hn : column i generalizing i with
  | zero => exact ⟨i, hi, by omega⟩
  | succ n ih =>
      obtain ⟨a, ha, heq⟩ := h i hi (by omega)
      rcases Nat.lt_or_eq_of_le hk with hlt | hk
      · exact ih ha (by omega) (by omega)
      · exact ⟨i, hi, hk.symm⟩

/-- **The columns that are used are the first ones**, and no more than there are nodes. -/
theorem exists_columns : ∃ n ≤ ids.length, ∀ k, (∃ i ∈ ids, column i = k) ↔ k < n := by
  classical
  have hunused : ∃ n, n ∉ (ids.map column).toFinset := Infinite.exists_notMem_finset _
  have hmem : ∀ k, k ∈ (ids.map column).toFinset ↔ ∃ i ∈ ids, column i = k := by simp
  have hleast : ∀ k < Nat.find hunused, ∃ i ∈ ids, column i = k := fun k hk =>
    (hmem k).mp (not_not.mp (Nat.find_min hunused hk))
  refine ⟨Nat.find hunused, ?_, fun k => ⟨?_, hleast k⟩⟩
  · -- as many different columns are used
    have hsub : Finset.range (Nat.find hunused) ⊆ (ids.map column).toFinset := fun k hk =>
      (hmem k).mpr (hleast k (Finset.mem_range.mp hk))
    calc Nat.find hunused = (Finset.range (Nat.find hunused)).card := (Finset.card_range _).symm
      _ ≤ (ids.map column).toFinset.card := Finset.card_le_card hsub
      _ ≤ (ids.map column).length := List.toFinset_card_le _
      _ = ids.length := List.length_map _
  · rintro ⟨i, hi, rfl⟩
    by_contra hle
    exact Nat.find_spec hunused ((hmem _).mpr (exists_of_le h hi (Nat.le_of_not_lt hle)))

end

/-! ## Rows -/

theorem column_of_mem_cellsFrom {layer : String → Nat} {seen : List Nat} {ids : List String} {i : String} {c : Cell}
    (h : (i, c) ∈ cellsFrom layer seen ids) : c.column = layer i := by
  induction ids generalizing seen with
  | nil => cases h
  | cons k rest ih =>
      rw [cellsFrom, List.mem_cons] at h
      rcases h with heq | h
      · cases heq
        rfl
      · exact ih h

/-- **The rows of a column**, in the order of the ids: they go on from the rows that were given out before. -/
theorem rows_cellsFrom (layer : String → Nat) (seen : List Nat) (ids : List String) (k : Nat) :
    ((cellsFrom layer seen ids).filter fun e => e.2.column = k).map (fun e => e.2.row) =
      List.range' (seen.count k) (ids.countP fun i => layer i = k) := by
  induction ids generalizing seen with
  | nil => rfl
  | cons i rest ih =>
      rw [cellsFrom, List.countP_cons]
      by_cases hi : layer i = k
      · subst hi
        rw [List.filter_cons_of_pos (by simp), List.map_cons, ih, List.count_cons_self, if_pos (by simp),
          List.range'_succ]
      · rw [List.filter_cons_of_neg (by simpa using hi), ih, List.count_cons_of_ne hi, if_neg (by simpa using hi),
          Nat.add_zero]

/-- **Every id has one cell**: in its column, and in the next row of that. -/
theorem exists_cells (layer : String → Nat) {ids : List String} (hids : ids.Nodup) :
    ∃ cell : String → Cell, cells layer ids = ids.map (fun i => (i, cell i)) ∧
      (∀ i ∈ ids, (cell i).column = layer i) ∧
      (∀ k, (ids.filter fun i => layer i = k).map (fun i => (cell i).row) =
        List.range (ids.countP fun i => layer i = k)) ∧
      ∀ i ∈ ids, ∀ j ∈ ids, cell i = cell j → i = j := by
  let cell (i : String) : Cell := ((cells layer ids).lookup i).getD ⟨0, 0⟩
  have hlookup : ∀ {i c}, (i, c) ∈ cellsFrom layer [] ids → cell i = c := fun {i c} hmem => by
    change ((cells layer ids).lookup i).getD _ = c
    rw [(lookup_cells hids).mpr hmem]
    rfl
  have hmem : ∀ i ∈ ids, (i, cell i) ∈ cellsFrom layer [] ids := fun i hi => by
    obtain ⟨c, hc⟩ := exists_cell layer hids hi
    have hc' := (lookup_cells hids).mp hc
    rwa [hlookup hc']
  have hcells : cellsFrom layer [] ids = ids.map fun i => (i, cell i) := by
    calc cellsFrom layer [] ids = (cellsFrom layer [] ids).map fun e => (e.1, cell e.1) := by
          refine (List.map_id _).symm.trans (List.map_congr_left fun e he => ?_)
          exact Prod.ext rfl (hlookup he).symm
      _ = ((cellsFrom layer [] ids).map Prod.fst).map fun i => (i, cell i) := by rw [List.map_map]; rfl
      _ = ids.map fun i => (i, cell i) := by rw [map_fst_cellsFrom]
  have hkeys : ((cellsFrom layer [] ids).map Prod.fst).Nodup := by rwa [map_fst_cellsFrom]
  have hcolumn : ∀ i ∈ ids, (cell i).column = layer i := fun i hi => column_of_mem_cellsFrom (hmem i hi)
  refine ⟨cell, ?_, hcolumn, fun k => ?_, fun i hi j hj heq => ?_⟩
  · unfold cells
    rw [Keyed.ofList_of_nodup hkeys, hcells]
  · have hrows := rows_cellsFrom layer [] ids k
    rw [hcells, List.filter_map, List.map_map, List.count_nil, ← List.range_eq_range'] at hrows
    rw [← hrows]
    refine congrArg _ (List.filter_congr fun i hi => ?_)
    simp [hcolumn i hi]
  · exact cellsFrom_injective (heq ▸ hmem i hi) (hmem j hj)

end Layout

/-! ## Documents -/

namespace Document

open Layout

/-- A component that is not in the first column has a connection from one in the column before. -/
theorem exists_connection (d : Document) {i : String} (h : d.layers.of i ≠ 0) :
    ∃ c ∈ d.connections, c.target.id = i ∧ c.source.id ∈ d.ids ∧ d.layers.of i = d.layers.of c.source.id + 1 := by
  obtain ⟨a, hedge, heq⟩ := exists_previous h
  obtain ⟨hedge, -, ha, -⟩ := mem_proper.mp hedge
  obtain ⟨c, hc, hends⟩ := List.mem_map.mp (List.mem_filter.mp hedge).1
  obtain ⟨rfl, rfl⟩ := Prod.mk.inj hends
  exact ⟨c, hc, rfl, ha, heq⟩

/-- **The grid of a document has no gaps**, whatever its connections are.  The walk along them ends, and takes
every component once.  A component that is not in the first column has a connection from one in the column before,
so that the columns that are used are the first ones, and no more than there are components.  Every component has a
cell of its own, and those of a column have its first rows, in the order of the components. -/
theorem grid_gapless (d : Document) (hids : d.ids.Nodup) :
    (∃ taken last, Sweep.Takes (successors (proper d.ids d.edges)) (start d.ids (proper d.ids d.edges)) taken last ∧
      d.layers = ⟨last.layer, last.broken.reverse⟩ ∧ taken.Perm d.ids ∧ last.pending = [] ∧ last.ready = []) ∧
    (∀ i ∈ d.ids, d.layers.of i ≠ 0 → ∃ c ∈ d.connections,
      c.target.id = i ∧ c.source.id ∈ d.ids ∧ d.layers.of i = d.layers.of c.source.id + 1) ∧
    (∃ n ≤ d.components.length, ∀ k, (∃ i ∈ d.ids, d.layers.of i = k) ↔ k < n) ∧
    ∃ cell : String → Cell, d.grid.value = d.ids.map (fun i => (i, cell i)) ∧
      (∀ i ∈ d.ids, (cell i).column = d.layers.of i) ∧
      (∀ k, (d.ids.filter fun i => d.layers.of i = k).map (fun i => (cell i).row) =
        List.range (d.ids.countP fun i => d.layers.of i = k)) ∧
      ∀ i ∈ d.ids, ∀ j ∈ d.ids, cell i = cell j → i = j := by
  have hstart : (start d.ids (proper d.ids d.edges)).Tidy (proper d.ids d.edges) :=
    Sweep.tidy_start hids fun a b hedge => (mem_proper.mp hedge).2.2.1
  obtain ⟨taken, htakes⟩ := Sweep.exists_takes (successors (proper d.ids d.edges))
    (start d.ids (proper d.ids d.edges))
  have hlayers : d.layers = ⟨((start d.ids (proper d.ids d.edges)).run (successors (proper d.ids d.edges))).layer,
      ((start d.ids (proper d.ids d.edges)).run (successors (proper d.ids d.edges))).broken.reverse⟩ := by
    unfold layers Layout.layers
    dsimp only
    rw [eraseDups_of_nodup hids]
  have hcolumns : ∃ n ≤ d.ids.length, ∀ k, (∃ i ∈ d.ids, d.layers.of i = k) ↔ k < n :=
    exists_columns fun i _ hne => by
      obtain ⟨c, -, -, ha, heq⟩ := d.exists_connection hne
      exact ⟨_, ha, heq⟩
  have hlength : d.ids.length = d.components.length := List.length_map _
  rw [hlength] at hcolumns
  exact ⟨⟨taken, _, htakes, hlayers, htakes.perm hstart⟩, fun i _ hne => d.exists_connection hne, hcolumns,
    exists_cells d.layers.of hids⟩

/-- Connections that feed back, one that is listed twice, a loop, and one from a component that is not there. -/
def tangled : Document :=
  { feedback with
    connections := feedback.connections ++ feedback.connections.take 1 ++
      [⟨⟨"out", .str "R"⟩, ⟨"out", .str "B"⟩⟩, ⟨⟨"none", .str "R"⟩, ⟨"out", .str "B"⟩⟩] }

theorem grid_gapless_tangled :
    tangled.ids.Nodup ∧ ∃ n ≤ 3, ∀ k, (∃ i ∈ tangled.ids, tangled.layers.of i = k) ↔ k < n :=
  ⟨by decide, (grid_gapless tangled (by decide)).2.2.1⟩

end Document

end Patchbay
