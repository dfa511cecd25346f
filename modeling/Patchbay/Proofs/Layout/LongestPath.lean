import Patchbay.Proofs.Distinct
import Patchbay.Proofs.Layout.Breaking
import Mathlib.Data.Fintype.Card
import Mathlib.Data.List.Nodup
import Mathlib.Data.Set.Finite.Basic
import Mathlib.Logic.Relation
import Mathlib.Order.Bounds.Basic
import Mathlib.Order.WellFounded

/-!
# Columns are longest paths

On a graph without cycles the column of a node is the number of edges on the longest path to it.  On any other
it is so once the edges are taken away that are cut where cycles are broken.

* `Feeds`, `Acyclic`, `PathTo` — edges as a relation, graphs without cycles, and paths by their length
* `inboundFrom` — the edges into a node that are still to be settled
* `Sweep.layer_foldl_relax`, `Sweep.unmet_foldl_relax`, `Sweep.mem_ready_foldl_relax` — what settling
  some edges does to the three tables of the walk; `Sweep.unmet_settle` — counters stay right
* **`Sweep.Steady`** is the invariant of the walk.  Its load-bearing clause is `unmet`: a counter counts
  exactly the edges from nodes that are pending.  So a counter at zero means that all predecessors
  have their final columns.
* **`Sweep.Steady.settle`** takes the invariant through one node, **`Sweep.Steady.run`** through the
  whole walk.  `Sweep.Steady.Agrees` is the clause about the breaks to come: what they cut, the columns do not
  follow.
* **`layers_kept`** — the result for every list of nodes and every list of edges
* **`layers_longest`** — the result for graphs without cycles: then there always is a pending node
  without pending predecessors (`Acyclic.exists_first`), and no cycle has to be broken.
-/

namespace Patchbay.Layout

variable {ι : Type}

/-! ## Graphs and paths -/

/-- One node feeds another. -/
def Feeds (edges : List (Edge ι)) (a b : ι) : Prop := (a, b) ∈ edges

/-- No way along edges leads back to where it began. -/
def Acyclic (edges : List (Edge ι)) : Prop := ∀ i, ¬ Relation.TransGen (Feeds edges) i i

/-- There is a path of `n` edges that ends at a node. -/
inductive PathTo (edges : List (Edge ι)) : (n : Nat) → ι → Prop
  | start (i : ι) : PathTo edges 0 i
  | step {n : Nat} {a b : ι} : PathTo edges n a → (a, b) ∈ edges → PathTo edges (n + 1) b

/-- A graph whose edges all lead upwards has no cycle. -/
theorem acyclic_of_lt {edges : List (Edge ι)} (height : ι → Nat)
    (h : ∀ a b, (a, b) ∈ edges → height a < height b) : Acyclic edges := by
  intro i hcycle
  have hlt : ∀ a b, Relation.TransGen (Feeds edges) a b → height a < height b := by
    intro a b hab
    induction hab with
    | single hedge => exact h _ _ hedge
    | tail _ hedge ih => exact Nat.lt_trans ih (h _ _ hedge)
  exact Nat.lt_irrefl _ (hlt i i hcycle)

/-- Among some nodes there is one that none of them feeds. -/
theorem Acyclic.exists_first {edges : List (Edge ι)} (h : Acyclic edges) {nodes : List ι}
    (hnodes : nodes ≠ []) : ∃ i ∈ nodes, ∀ a, (a, i) ∈ edges → a ∉ nodes := by
  let before (a b : {i // i ∈ nodes}) : Prop := Relation.TransGen (Feeds edges) a b
  have htrans : IsTrans _ before := ⟨fun _ _ _ hab hbc => Relation.TransGen.trans hab hbc⟩
  have hirrefl : Std.Irrefl before := ⟨fun i => h i⟩
  have hfinite : Finite {i // i ∈ nodes} := List.finite_toSet nodes
  obtain ⟨i, hi⟩ := List.exists_mem_of_ne_nil nodes hnodes
  obtain ⟨first, -, hfirst⟩ :=
    (Finite.wellFounded_of_trans_of_irrefl before).has_min Set.univ ⟨⟨i, hi⟩, trivial⟩
  refine ⟨first, first.2, fun a hedge ha => ?_⟩
  exact hfirst ⟨a, ha⟩ trivial (Relation.TransGen.single hedge)

/-- Nothing is broken where there is no cycle. -/
theorem Acyclic.breaks_eq_nil [DecidableEq ι] {edges : List (Edge ι)} (h : Acyclic edges) (nodes : List ι) :
    breaks edges nodes = [] := by
  refine Layout.breaks_eq_nil ?_
  by_contra hcore
  obtain ⟨first, hfirst, hunfed⟩ := h.exists_first hcore
  obtain ⟨a, ha, hedge⟩ := fed_of_mem_core hfirst
  exact hunfed a hedge ha

/-! ## Longest paths -/

/-- The column of every node is the length of the longest path to it; so it is zero for a node that
none feeds, and one more than the greatest of its predecessors' for any other. -/
structure LongestPaths (edges : List (Edge ι)) (layer : ι → Nat) : Prop where
  longest : ∀ i, IsGreatest {n | PathTo edges n i} (layer i)
  source : ∀ i, (∀ a, (a, i) ∉ edges) → layer i = 0
  fed : ∀ i, (∃ a, (a, i) ∈ edges) →
    IsGreatest {n | ∃ a, (a, i) ∈ edges ∧ n = layer a + 1} (layer i)

/-- Columns that are right at every node belong to the longest paths. -/
theorem longestPaths_of_local {edges : List (Edge ι)} {layer : ι → Nat}
    (hright : ∀ a b, (a, b) ∈ edges → layer a + 1 ≤ layer b)
    (hnext : ∀ i, layer i ≠ 0 → ∃ a, (a, i) ∈ edges ∧ layer i = layer a + 1) :
    LongestPaths edges layer := by
  constructor
  case longest =>
    intro i
    constructor
    · -- go back from node to node until the first column
      show PathTo edges (layer i) i
      induction hn : layer i generalizing i with
      | zero => exact .start i
      | succ n ih =>
          obtain ⟨a, hedge, heq⟩ := hnext i (by omega)
          exact .step (ih a (by omega)) hedge
    · intro n hpath
      induction hpath with
      | start i => exact Nat.zero_le _
      | step _ hedge ih => exact Nat.le_trans (Nat.succ_le_succ ih) (hright _ _ hedge)
  case source =>
    intro i hnone
    by_contra hne
    obtain ⟨a, hedge, -⟩ := hnext i hne
    exact hnone a hedge
  case fed =>
    rintro i ⟨a, hedge⟩
    constructor
    · have hpos := hright a i hedge
      exact hnext i (by omega)
    · rintro n ⟨b, hedge', rfl⟩
      exact hright b i hedge'

/-! ## Proper edges -/

variable [DecidableEq ι]

theorem mem_proper {ids : List ι} {edges : List (Edge ι)} {a b : ι} :
    (a, b) ∈ proper ids edges ↔ (a, b) ∈ edges ∧ a ≠ b ∧ a ∈ ids ∧ b ∈ ids := by
  simp [proper]

/-- Which edges are proper depends on what nodes there are, and not on how they are listed. -/
theorem proper_congr {ids ids' : List ι} (h : ∀ i, i ∈ ids' ↔ i ∈ ids) (edges : List (Edge ι)) :
    proper ids' edges = proper ids edges := by
  unfold proper
  simp only [h]

theorem mem_successors {edges : List (Edge ι)} {a b : ι} :
    b ∈ successors edges a ↔ (a, b) ∈ edges := by
  unfold successors
  simp only [List.mem_filterMap, Prod.exists, Option.ite_none_right_eq_some, Option.some.injEq]
  constructor
  · rintro ⟨c, d, hmem, rfl, rfl⟩
    exact hmem
  · exact fun hmem => ⟨a, b, hmem, rfl, rfl⟩

theorem count_successors (edges : List (Edge ι)) (a b : ι) :
    (successors edges a).count b = edges.count (a, b) := by
  induction edges with
  | nil => rfl
  | cons e rest ih =>
      obtain ⟨c, d⟩ := e
      have hcons : successors ((c, d) :: rest) a =
          (if c = a then [d] else []) ++ successors rest a := by
        unfold successors
        by_cases hc : c = a <;> simp [hc]
      rw [hcons, List.count_append, ih, List.count_cons, Nat.add_comm]
      by_cases hc : c = a <;> by_cases hd : d = b <;> simp [hc, hd]

/-! ## Edges that are not settled -/

/-- The number of edges into a node from pending nodes. -/
def inboundFrom (edges : List (Edge ι)) (pending : List ι) (i : ι) : Nat :=
  edges.countP fun (a, b) => b = i ∧ a ∈ pending

theorem inboundFrom_eq_zero {edges : List (Edge ι)} {pending : List ι} {i : ι} :
    inboundFrom edges pending i = 0 ↔ ∀ a, (a, i) ∈ edges → a ∉ pending := by
  unfold inboundFrom
  rw [List.countP_eq_zero]
  constructor
  · intro h a hedge ha
    exact h (a, i) hedge (by simp [ha])
  · rintro h ⟨a, b⟩ hedge
    simp only [decide_eq_true_eq, not_and]
    rintro rfl
    exact h a hedge

/-- Settling a node settles the edges that leave it. -/
theorem inboundFrom_erase (edges : List (Edge ι)) {pending : List ι} (hnodup : pending.Nodup) {a : ι}
    (ha : a ∈ pending) (i : ι) :
    inboundFrom edges pending i = inboundFrom edges (pending.erase a) i + edges.count (a, i) := by
  induction edges with
  | nil => rfl
  | cons e rest ih =>
      obtain ⟨c, d⟩ := e
      unfold inboundFrom at ih ⊢
      rw [List.countP_cons, List.countP_cons, List.count_cons, ih]
      by_cases hc : c = a
      · by_cases hd : d = i
        · simp [hc, hd, ha, hnodup.mem_erase_iff]
          omega
        · simp [hc, hd]
      · have hpair : ((c, d) == (a, i)) = false := by simp [hc]
        rw [hpair]
        simp [hc, hnodup.mem_erase_iff]
        omega

/-- Before anything is settled, all edges into a node count. -/
theorem inboundFrom_all {edges : List (Edge ι)} {ids : List ι}
    (h : ∀ a b, (a, b) ∈ edges → a ∈ ids) (i : ι) : inboundFrom edges ids i = inbound edges i := by
  unfold inboundFrom inbound
  refine List.countP_congr ?_
  rintro ⟨a, b⟩ hedge
  simp [h a b hedge]

namespace Sweep

/-! ## Settling edges -/

theorem layer_foldl_relax (l : Nat) (s : Sweep ι) (is : List ι) (j : ι) :
    (is.foldl (relax l) s).layer j =
      if j ∈ s.pending ∧ j ∈ is then max (s.layer j) (l + 1) else s.layer j := by
  induction is generalizing s with
  | nil => simp
  | cons i is ih =>
      rw [List.foldl_cons, ih, pending_relax]
      unfold relax
      by_cases hi : i ∈ s.pending
      · by_cases hj : j = i
        · subst hj
          simp [hi]
        · simp [hi, hj, setAt_of_ne]
      · by_cases hj : j = i
        · subst hj
          simp [hi]
        · simp [hi, hj]

theorem unmet_foldl_relax (l : Nat) (s : Sweep ι) (is : List ι) {j : ι} (hj : j ∈ s.pending) :
    (is.foldl (relax l) s).unmet j = s.unmet j - is.count j := by
  induction is generalizing s with
  | nil => simp
  | cons i is ih =>
      rw [List.foldl_cons, ih _ (by rwa [pending_relax]), List.count_cons]
      unfold relax
      by_cases hi : i = j
      · subst hi
        simp only [hj, if_true, setAt_self, beq_self_eq_true]
        omega
      · have hne : j ≠ i := Ne.symm hi
        by_cases hpending : i ∈ s.pending <;> simp [hpending, hi, setAt_of_ne _ _ hne]

/-- A node is queued when its last edge is settled, and only then. -/
theorem mem_ready_foldl_relax (l : Nat) (s : Sweep ι) (is : List ι) (j : ι) :
    j ∈ (is.foldl (relax l) s).ready ↔
      j ∈ s.ready ∨ (j ∈ s.pending ∧ j ∈ is ∧ s.unmet j ≤ is.count j) := by
  induction is generalizing s with
  | nil => simp
  | cons i is ih =>
      rw [List.foldl_cons, ih, pending_relax, List.count_cons, List.mem_cons]
      unfold relax
      by_cases hi : i ∈ s.pending
      · by_cases hj : j = i
        · subst hj
          by_cases hleft : s.unmet j - 1 = 0
          · have hle : s.unmet j ≤ is.count j + 1 := by omega
            simp [hi, hleft, hle]
          · have hmem : s.unmet j ≤ is.count j + 1 → j ∈ is := by
              intro hle
              rw [← List.count_pos_iff]
              omega
            simp only [hi, hleft, if_true, if_false, setAt_self, beq_self_eq_true, true_and, true_or]
            constructor
            · rintro (hready | ⟨-, hle⟩)
              · exact Or.inl hready
              · exact Or.inr (by omega)
            · rintro (hready | hle)
              · exact Or.inl hready
              · exact Or.inr ⟨hmem hle, by omega⟩
        · have hne : (i == j) = false := beq_eq_false_iff_ne.mpr (Ne.symm hj)
          by_cases hleft : s.unmet i - 1 = 0 <;> simp [hi, hj, hne, hleft, setAt_of_ne]
      · have hne : j ∈ s.pending → j ≠ i := fun hj e => hi (e ▸ hj)
        by_cases hj : j = i
        · subst hj
          simp [hi]
        · have hbeq : (i == j) = false := beq_eq_false_iff_ne.mpr (Ne.symm hj)
          simp [hi, hj, hbeq]

theorem broken_settle (next : ι → List ι) (s : Sweep ι) (i : ι) :
    (s.settle next i).broken = s.broken := by
  have hfold : ∀ (l : Nat) (s : Sweep ι) (is : List ι), (is.foldl (relax l) s).broken = s.broken := by
    intro l s is
    induction is generalizing s with
    | nil => rfl
    | cons i is ih => rw [List.foldl_cons, ih, broken_relax]
  exact hfold _ _ _

/-- Settling a node queues the pending ones of which it feeds the last edges. -/
theorem mem_ready_settle (edges : List (Edge ι)) (s : Sweep ι) (i j : ι) :
    j ∈ (s.settle (successors edges) i).ready ↔
      j ∈ s.ready ∨ (j ∈ s.pending.erase i ∧ (i, j) ∈ edges ∧ s.unmet j ≤ edges.count (i, j)) := by
  unfold Sweep.settle
  rw [mem_ready_foldl_relax, mem_successors, count_successors]

/-- Counters that count the edges from pending nodes do so when one of these is settled.  `t` is the walk with
the node out of its queue. -/
theorem unmet_settle {edges : List (Edge ι)} {s t : Sweep ι} {i : ι} (hnodup : s.pending.Nodup)
    (hunmet : ∀ j ∈ s.pending, s.unmet j = inboundFrom edges s.pending j) (hp : t.pending = s.pending)
    (hu : t.unmet = s.unmet) (hi : i ∈ s.pending) : ∀ j ∈ s.pending.erase i,
      (t.settle (successors edges) i).unmet j = inboundFrom edges (s.pending.erase i) j := by
  intro j hj
  have hj' : j ∈ t.pending.erase i := by rwa [hp]
  unfold Sweep.settle
  rw [unmet_foldl_relax _ _ _ hj', count_successors]
  change t.unmet j - _ = _
  rw [hu, hunmet j (List.mem_of_mem_erase hj), inboundFrom_erase edges hnodup hi]
  omega

/-! ## The invariant of the walk -/

/-- The walk is right so far: the queue knows all edges, and the columns follow those that are kept. -/
structure Steady (edges kept : List (Edge ι)) (s : Sweep ι) : Prop where
  nodup : s.pending.Nodup
  /-- A node is settled after all that feed it. -/
  order : ∀ a b, (a, b) ∈ kept → a ∈ s.pending → b ∈ s.pending
  /-- A counter counts the edges from pending nodes. -/
  unmet : ∀ i ∈ s.pending, s.unmet i = inboundFrom edges s.pending i
  queued : ∀ i ∈ s.pending, s.unmet i = 0 → i ∈ s.ready
  ready : ∀ i ∈ s.ready, ∀ a, (a, i) ∈ edges → a ∉ s.pending
  /-- A node is to the right of every settled node that feeds it … -/
  right : ∀ a b, (a, b) ∈ kept → a ∉ s.pending → s.layer a + 1 ≤ s.layer b
  /-- … and next to one of them, unless it is in the first column. -/
  next : ∀ i, s.layer i ≠ 0 → ∃ a, (a, i) ∈ kept ∧ a ∉ s.pending ∧ s.layer i = s.layer a + 1

/-- The walk is right so far, with no edge ignored. -/
abbrev Sound (edges : List (Edge ι)) (s : Sweep ι) : Prop := s.Steady edges edges

theorem steady_start {ids : List ι} {edges kept : List (Edge ι)} (hnodup : ids.Nodup)
    (hedges : ∀ a b, (a, b) ∈ edges → a ∈ ids ∧ b ∈ ids) (hkept : kept ⊆ edges) :
    (start ids edges).Steady edges kept := by
  have hcount : ∀ i, inbound edges i = inboundFrom edges ids i := fun i =>
    (inboundFrom_all (fun a b hedge => (hedges a b hedge).1) i).symm
  constructor
  case nodup => exact hnodup
  case order => exact fun a b hedge _ => (hedges a b (hkept hedge)).2
  case unmet => exact fun i _ => hcount i
  case queued =>
    intro i hi hzero
    exact List.mem_filter.mpr ⟨hi, decide_eq_true hzero⟩
  case ready =>
    intro i hi
    have hzero : inbound edges i = 0 := of_decide_eq_true (List.mem_filter.mp hi).2
    rw [hcount, inboundFrom_eq_zero] at hzero
    exact hzero
  case right => exact fun a b hedge ha => absurd (hedges a b (hkept hedge)).1 ha
  case next => exact fun i hne => absurd rfl hne

theorem sound_start {ids : List ι} {edges : List (Edge ι)} (hnodup : ids.Nodup)
    (hedges : ∀ a b, (a, b) ∈ edges → a ∈ ids ∧ b ∈ ids) : (start ids edges).Sound edges :=
  steady_start hnodup hedges (List.Subset.refl edges)

namespace Steady

variable {edges kept : List (Edge ι)} {s : Sweep ι} {i : ι} {rest : List ι}

/-- The first node of the queue was settled before. -/
theorem skip (h : s.Steady edges kept) (hready : s.ready = i :: rest) (hi : i ∉ s.pending) :
    Steady edges kept { s with ready := rest } where
  nodup := h.nodup
  order := h.order
  unmet := h.unmet
  queued := by
    intro j hj hzero
    have hmem := h.queued j hj hzero
    rw [hready, List.mem_cons] at hmem
    rcases hmem with rfl | hmem
    · exact absurd hj hi
    · exact hmem
  ready := fun j hj => h.ready j (hready ▸ List.mem_cons_of_mem i hj)
  right := h.right
  next := h.next

/-- A node that is fed by a pending one, which no pending node feeds, is another one and pending. -/
theorem mem_erase_of_edge (h : s.Steady edges kept) (hi : i ∈ s.pending)
    (hlast : ∀ a ∈ s.pending, (a, i) ∉ kept) {j : ι} (hedge : (i, j) ∈ kept) : j ∈ s.pending.erase i := by
  refine h.nodup.mem_erase_iff.mpr ⟨?_, h.order i j hedge hi⟩
  rintro rfl
  exact hlast j hi hedge

/-- The nodes that a settled node feeds by edges that are kept come to its right, and no others move. -/
theorem layer_settle (h : s.Steady edges kept) {t : Sweep ι} (hp : t.pending = s.pending)
    (hl : t.layer = s.layer) (hi : i ∈ s.pending) (hlast : ∀ a ∈ s.pending, (a, i) ∉ kept)
    (hout : ∀ j ∈ s.pending, j ≠ i → ((i, j) ∈ edges ↔ (i, j) ∈ kept)) (j : ι) :
    (t.settle (successors edges) i).layer j =
      if (i, j) ∈ kept then max (s.layer j) (s.layer i + 1) else s.layer j := by
  unfold Sweep.settle
  rw [layer_foldl_relax]
  simp only [mem_successors, hp, hl]
  by_cases hj : j ∈ s.pending.erase i
  · obtain ⟨hne, hj'⟩ := h.nodup.mem_erase_iff.mp hj
    simp only [hj, true_and, hout j hj' hne]
  · simp only [hj, false_and, if_false, if_neg fun hedge => hj (h.mem_erase_of_edge hi hlast hedge)]

/-- A pending node is settled that no pending node feeds by an edge that is kept.  Its own edges to pending
nodes are all kept.  `t` is the walk with the node out of its queue, and with a break noted. -/
theorem settle (h : s.Steady edges kept) {t : Sweep ι} (hp : t.pending = s.pending) (hl : t.layer = s.layer)
    (hu : t.unmet = s.unmet) (hready : ∀ j, j ∈ t.ready → j ∈ s.ready)
    (hqueue : ∀ j, j ∈ s.ready → j ≠ i → j ∈ t.ready) (hi : i ∈ s.pending)
    (hlast : ∀ a ∈ s.pending, (a, i) ∉ kept)
    (hout : ∀ j ∈ s.pending, j ≠ i → ((i, j) ∈ edges ↔ (i, j) ∈ kept)) :
    (t.settle (successors edges) i).Steady edges kept := by
  have hpending : ∀ j, j ∈ s.pending.erase i ↔ j ≠ i ∧ j ∈ s.pending :=
    fun j => h.nodup.mem_erase_iff
  have hlayer := h.layer_settle hp hl hi hlast hout
  have hself : (t.settle (successors edges) i).layer i = s.layer i := by
    rw [hlayer, if_neg (hlast i hi)]
  have hunmet := unmet_settle h.nodup h.unmet hp hu hi
  have hmem := mem_ready_settle edges t i
  rw [hp, hu] at hmem
  constructor <;> simp only [pending_settle, hp]
  case nodup => exact h.nodup.erase i
  case order =>
    intro a b hedge ha
    have hab := (hpending a).mp ha
    refine (hpending b).mpr ⟨?_, h.order a b hedge hab.2⟩
    rintro rfl
    exact hlast a hab.2 hedge
  case unmet => exact hunmet
  case queued =>
    intro j hj hzero
    obtain ⟨hne, hjs⟩ := (hpending j).mp hj
    rw [hmem]
    have hcount := inboundFrom_erase edges h.nodup hi j
    rw [← hunmet j hj, hzero, Nat.zero_add, ← h.unmet j hjs] at hcount
    by_cases hedge : (i, j) ∈ edges
    · exact Or.inr ⟨hj, hedge, Nat.le_of_eq hcount⟩
    · rw [List.count_eq_zero_of_not_mem hedge] at hcount
      exact Or.inl (hqueue j (h.queued j hjs hcount) hne)
  case ready =>
    intro j hj a hedge ha
    rcases (hmem j).mp hj with hj | ⟨hj, -, hle⟩
    · exact h.ready j (hready j hj) a hedge ((hpending a).mp ha).2
    · have hcount := inboundFrom_erase edges h.nodup hi j
      rw [← h.unmet j ((hpending j).mp hj).2] at hcount
      have hzero : inboundFrom edges (s.pending.erase i) j = 0 := by omega
      exact inboundFrom_eq_zero.mp hzero a hedge ha
  case right =>
    intro a b hedge ha
    by_cases hai : a = i
    · subst hai
      rw [hself, hlayer, if_pos hedge]
      exact Nat.le_max_right _ _
    · have hsettled : a ∉ s.pending := fun hmem => ha ((hpending a).mpr ⟨hai, hmem⟩)
      have hia : (i, a) ∉ kept := fun hedge' => ha (h.mem_erase_of_edge hi hlast hedge')
      rw [hlayer a, if_neg hia, hlayer b]
      have hright := h.right a b hedge hsettled
      split
      · exact Nat.le_trans hright (Nat.le_max_left _ _)
      · exact hright
  case next =>
    intro j hne
    -- the column of `j` comes from the settled node, or from one settled before
    by_cases hnew : (i, j) ∈ kept ∧ s.layer j ≤ s.layer i + 1
    · obtain ⟨hedge, hle⟩ := hnew
      refine ⟨i, hedge, fun hmem => ((hpending i).mp hmem).1 rfl, ?_⟩
      rw [hself, hlayer, if_pos hedge]
      exact Nat.max_eq_right hle
    · have hsame : (t.settle (successors edges) i).layer j = s.layer j := by
        rw [hlayer]
        split
        · next hedge =>
          have hlt : s.layer i + 1 < s.layer j := Nat.lt_of_not_le fun hle => hnew ⟨hedge, hle⟩
          exact Nat.max_eq_left (Nat.le_of_lt hlt)
        · rfl
      rw [hsame] at hne ⊢
      obtain ⟨a, hedge, ha, heq⟩ := h.next j hne
      refine ⟨a, hedge, fun hmem => ha ((hpending a).mp hmem).2, ?_⟩
      have hia : (i, a) ∉ kept := fun hedge' =>
        ha ((hpending a).mp (h.mem_erase_of_edge hi hlast hedge')).2
      rw [hlayer, if_neg hia]
      exact heq

/-- With an empty queue every pending node is fed. -/
theorem fed (h : s.Steady edges kept) (hready : s.ready = []) :
    ∀ j ∈ s.pending, unfed edges s.pending j = false := by
  intro j hj
  by_contra hunfed
  have hzero : s.unmet j = 0 := by
    rw [h.unmet j hj, inboundFrom_eq_zero]
    exact fun a hedge ha => unfed_iff.mp (Bool.not_eq_false _ ▸ hunfed) a ha hedge
  have hqueued := h.queued j hj hzero
  rw [hready] at hqueued
  cases hqueued

/-- The edges that are kept into pending nodes are those that no break to come cuts. -/
def Agrees (edges kept : List (Edge ι)) (pending : List ι) : Prop :=
  ∀ a, ∀ b ∈ pending, (a, b) ∈ kept ↔ (a, b) ∈ edges ∧ ¬ Cut (breaks edges pending) a b

/-- A pending node from the queue is settled, and no break changes. -/
theorem settle_ready (h : s.Steady edges kept) (hagrees : Agrees edges kept s.pending)
    (hready : s.ready = i :: rest) (hi : i ∈ s.pending) :
    breaks edges (s.pending.erase i) = breaks edges s.pending ∧
      Steady edges kept (({ s with ready := rest } : Sweep ι).settle (successors edges) i) ∧
      Agrees edges kept (s.pending.erase i) := by
  have hunfed : unfed edges s.pending i = true :=
    unfed_iff.mpr fun a ha hedge => h.ready i (hready ▸ List.mem_cons_self) a hedge ha
  have hbreaks : breaks edges (s.pending.erase i) = breaks edges s.pending := breaks_erase hi hunfed
  refine ⟨hbreaks, h.settle rfl rfl rfl ?_ ?_ hi ?_ ?_, fun a b hb => ?_⟩
  · exact fun j hj => hready ▸ List.mem_cons_of_mem i hj
  · intro j hj hne
    rw [hready, List.mem_cons] at hj
    exact hj.resolve_left hne
  · exact fun a ha hkept => unfed_iff.mp hunfed a ha ((hagrees a i hi).mp hkept).1
  · -- what is pending at a later break is pending without this node
    intro j hj hne
    rw [hagrees i j hj, ← hbreaks]
    refine ⟨fun hedge => ⟨hedge, ?_⟩, And.left⟩
    rintro ⟨p, hp, -, hmem⟩
    exact h.nodup.not_mem_erase (subset_of_mem_breaks hp hmem)
  · rw [hbreaks]
    exact hagrees a b (List.mem_of_mem_erase hb)

/-- Where the queue is empty, the first pending node is settled by a break. -/
theorem settle_break (h : s.Steady edges kept) (hagrees : Agrees edges kept s.pending) (hready : s.ready = [])
    (hpending : s.pending = i :: rest) :
    breaks edges s.pending = (i, s.pending) :: breaks edges rest ∧
      Steady edges kept (({ s with broken := i :: s.broken } : Sweep ι).settle (successors edges) i) ∧
      Agrees edges kept rest := by
  have hnotMem : i ∉ rest := by
    have hnodup := h.nodup
    rw [hpending] at hnodup
    exact (List.nodup_cons.mp hnodup).1
  have hi : i ∈ s.pending := hpending ▸ List.mem_cons_self
  have hbreaks : breaks edges s.pending = (i, s.pending) :: breaks edges rest := by
    have hfed := h.fed hready
    rw [hpending] at hfed ⊢
    exact breaks_of_fed hfed
  refine ⟨hbreaks, h.settle rfl rfl rfl (fun _ hj => hj) (fun _ hj _ => hj) hi ?_ ?_, fun a b hb => ?_⟩
  · intro a ha hkept
    refine ((hagrees a i hi).mp hkept).2 ⟨(i, s.pending), ?_, rfl, ha⟩
    rw [hbreaks]
    exact List.mem_cons_self
  · intro j hj hne
    rw [hagrees i j hj, hbreaks]
    refine ⟨fun hedge => ⟨hedge, ?_⟩, And.left⟩
    rintro ⟨p, hp, heq, hmem⟩
    rcases List.mem_cons.mp hp with rfl | hp
    · exact hne heq.symm
    · exact hnotMem (subset_of_mem_breaks hp hmem)
  · have hne : i ≠ b := by
      rintro rfl
      exact hnotMem hb
    rw [hagrees a b (hpending ▸ List.mem_cons_of_mem i hb), hbreaks]
    unfold Cut
    simp only [List.exists_mem_cons_iff, hne, false_and, false_or]

/-- **The walk settles every node, and breaks cycles where `breaks` says.** -/
theorem run (h : s.Steady edges kept) (hagrees : Agrees edges kept s.pending) :
    (s.run (successors edges)).Steady edges kept ∧ (s.run (successors edges)).pending = [] ∧
      (s.run (successors edges)).broken = ((breaks edges s.pending).map Prod.fst).reverse ++ s.broken := by
  fun_induction Sweep.run (successors edges) s with
  | case1 s i rest hready hi ih =>
      obtain ⟨hbreaks, hsettled, hagrees'⟩ := h.settle_ready hagrees hready hi
      obtain ⟨hsteady, hpending, hbroken⟩ := ih hsettled (by rwa [pending_settle])
      refine ⟨hsteady, hpending, hbroken.trans ?_⟩
      rw [pending_settle, broken_settle, hbreaks]
  | case2 s i rest hready hi ih => exact ih (h.skip hready hi) hagrees
  | case3 s hready hpending =>
      refine ⟨h, hpending, ?_⟩
      rw [hpending, breaks_eq_nil (core_of_fed fun _ h => nomatch h)]
      rfl
  | case4 s hready i rest hpending ih =>
      obtain ⟨hbreaks, hsettled, hagrees'⟩ := h.settle_break hagrees hready hpending
      have herase : s.pending.erase i = rest := by rw [hpending, List.erase_cons_head]
      obtain ⟨hsteady, hdone, hbroken⟩ := ih hsettled (by rwa [pending_settle, herase])
      refine ⟨hsteady, hdone, hbroken.trans ?_⟩
      rw [pending_settle, broken_settle, herase, hbreaks, List.map_cons, List.reverse_cons, List.append_assoc]
      rfl

end Steady

/-- Where there is no cycle, the walk settles every node and breaks none. -/
theorem Sound.run {edges : List (Edge ι)} {s : Sweep ι} (hacyclic : Acyclic edges) (h : s.Sound edges) :
    (s.run (successors edges)).Sound edges ∧ (s.run (successors edges)).pending = [] ∧
      (s.run (successors edges)).broken = s.broken := by
  have hnone := hacyclic.breaks_eq_nil s.pending
  obtain ⟨hsound, hpending, hbroken⟩ := Steady.run h fun a b _ => by
    rw [hnone]
    simp [Cut]
  rw [hnone] at hbroken
  exact ⟨hsound, hpending, hbroken⟩

end Sweep

/-! ## The columns -/

/-- **The columns of any graph are longest paths along the edges that no break cuts.** -/
theorem layers_kept (ids : List ι) (edges : List (Edge ι)) :
    LongestPaths (kept (proper ids edges) ids.eraseDups) (layers ids edges).of ∧
      (layers ids edges).broken = (breaks (proper ids edges) ids.eraseDups).map Prod.fst := by
  have hproper : proper ids.eraseDups edges = proper ids edges := proper_congr (fun _ => List.mem_eraseDups) edges
  have hstart : (start ids.eraseDups (proper ids edges)).Steady (proper ids edges)
      (kept (proper ids edges) ids.eraseDups) := by
    refine Sweep.steady_start (nodup_eraseDups ids) ?_ (List.filter_subset_self _)
    intro a b hedge
    rw [← hproper, mem_proper] at hedge
    exact hedge.2.2
  obtain ⟨hsteady, hpending, hbroken⟩ := hstart.run fun a b _ => mem_kept
  unfold layers
  dsimp only
  rw [hproper]
  refine ⟨longestPaths_of_local ?_ ?_, ?_⟩
  · exact fun a b hedge => hsteady.right a b hedge (by simp [hpending])
  · intro i hne
    obtain ⟨a, hedge, -, heq⟩ := hsteady.next i hne
    exact ⟨a, hedge, heq⟩
  · rw [hbroken, List.reverse_append, List.reverse_reverse]
    rfl

/-- **On a graph without cycles, columns are longest paths.**  Repeated nodes, repeated edges, loops and
edges with an unknown end may all be there: what must have no cycle are the proper edges.  Every
proper edge leads to the right, the order in which the nodes are listed does not matter, and nothing
is broken up. -/
theorem layers_longest (ids : List ι) (edges : List (Edge ι)) (h : Acyclic (proper ids edges)) :
    LongestPaths (proper ids edges) (layers ids edges).of ∧
      (∀ a b, (a, b) ∈ proper ids edges → (layers ids edges).of a < (layers ids edges).of b) ∧
      (∀ ids', (∀ i, i ∈ ids' ↔ i ∈ ids) → (layers ids' edges).of = (layers ids edges).of) ∧
      (layers ids edges).broken = [] := by
  -- the columns of one listing, and from them those of any other
  have hlisting : ∀ ids' : List ι, (∀ i, i ∈ ids' ↔ i ∈ ids) →
      LongestPaths (proper ids edges) (layers ids' edges).of ∧ (layers ids' edges).broken = [] := by
    intro ids' hids
    have hproper : proper ids'.eraseDups edges = proper ids edges :=
      proper_congr (fun i => List.mem_eraseDups.trans (hids i)) edges
    have hstart : (start ids'.eraseDups (proper ids edges)).Sound (proper ids edges) := by
      refine Sweep.sound_start ?_ ?_
      · exact nodup_eraseDups ids'
      · intro a b hedge
        rw [← hproper, mem_proper] at hedge
        exact hedge.2.2
    obtain ⟨hsound, hpending, hbroken⟩ := hstart.run h
    have hlayers : layers ids' edges = ⟨((start ids'.eraseDups (proper ids edges)).run
        (successors (proper ids edges))).layer, ((start ids'.eraseDups (proper ids edges)).run
        (successors (proper ids edges))).broken.reverse⟩ := by
      unfold layers
      dsimp only
      rw [hproper]
    rw [hlayers]
    refine ⟨longestPaths_of_local ?_ ?_, ?_⟩
    · exact fun a b hedge => hsound.right a b hedge (by simp [hpending])
    · intro i hne
      obtain ⟨a, hedge, -, heq⟩ := hsound.next i hne
      exact ⟨a, hedge, heq⟩
    · change List.reverse _ = _
      rw [hbroken]
      rfl
  obtain ⟨hlongest, hbroken⟩ := hlisting ids fun _ => Iff.rfl
  refine ⟨hlongest, fun a b hedge => ?_, fun ids' hids => ?_, hbroken⟩
  · exact (hlongest.fed b ⟨a, hedge⟩).2 ⟨a, hedge, rfl⟩
  · funext i
    exact ((hlisting ids' hids).1.longest i).unique (hlongest.longest i)

/-- The nodes of a diamond, one of them listed twice. -/
def diamondNodes : List Nat := [4, 3, 1, 2, 3]

/-- The edges of a diamond with its short diagonal, one of them listed twice; and a loop, and an edge
from a node that is not there. -/
def diamondEdges : List (Edge Nat) :=
  [(1, 2), (1, 3), (2, 4), (3, 4), (2, 3), (1, 3), (4, 4), (9, 1)]

theorem layers_longest_diamond :
    Acyclic (proper diamondNodes diamondEdges) ∧
      IsGreatest {n | PathTo (proper diamondNodes diamondEdges) n 4}
        ((layers diamondNodes diamondEdges).of 4) := by
  have hup : ∀ e ∈ proper diamondNodes diamondEdges, e.1 < e.2 := by decide
  have hacyclic : Acyclic (proper diamondNodes diamondEdges) :=
    acyclic_of_lt id fun a b hedge => hup (a, b) hedge
  exact ⟨hacyclic, (layers_longest diamondNodes diamondEdges hacyclic).1.longest 4⟩

end Patchbay.Layout
