import Patchbay.Proofs.Layout.LongestPath

/-!
# Which edges do not lead to the right

Where every pending node is fed, the walk releases the first of them.  It does not look whether that node lies on
a cycle.  So the edges that the columns do not follow are not those of cycles only: a node that is downstream of
a cycle, and listed before it, is released in the place of a node of the cycle.

* `Downstream` — a node lies on a cycle, or a way leads to it from one
* `listedFrom`, **`Overtakes`** — a node overtakes another one that is downstream of a cycle, if neither the cycle
  nor the way has a node that is listed before it.
* `mem_core_of_fed`, `exists_break_of_fed` — nodes that feed each other are pending until the first of them is
  released.
* `downstream_of_fed` — among finitely many nodes that are all fed by one another, every one is downstream of a
  cycle.
* **`cut_iff_overtakes`** — an edge is cut if and only if its end overtakes its source.
* **`layers_overtaken`** — columns are longest paths along all other edges, and a cycle is broken where an edge
  is cut.  `not_rightward_exit` is an edge on no cycle that does not lead to the right.
-/

namespace Patchbay.Layout

variable {ι : Type}

/-! ## Downstream of a cycle -/

/-- A node lies on a cycle, or a way leads to it from one. -/
def Downstream (edges : List (Edge ι)) (i : ι) : Prop :=
  ∃ c, Relation.TransGen (Feeds edges) c c ∧ Relation.ReflTransGen (Feeds edges) c i

/-- What is downstream of a cycle is fed by a node that is so too. -/
theorem Downstream.exists_feeds {edges : List (Edge ι)} {i : ι} (h : Downstream edges i) :
    ∃ a, Downstream edges a ∧ (a, i) ∈ edges := by
  obtain ⟨c, hcycle, hway⟩ := h
  cases hway with
  | refl =>
      obtain ⟨a, hway, hedge⟩ := Relation.TransGen.tail'_iff.mp hcycle
      exact ⟨a, ⟨i, hcycle, hway⟩, hedge⟩
  | tail hway hedge => exact ⟨_, ⟨c, hcycle, hway⟩, hedge⟩

/-- Finitely many nodes that are all fed by one another are downstream of a cycle. -/
theorem downstream_of_fed {edges : List (Edge ι)} {nodes : List ι}
    (hfed : ∀ i ∈ nodes, ∃ a ∈ nodes, (a, i) ∈ edges) {i : ι} (hi : i ∈ nodes) : Downstream edges i := by
  classical
  by_contra hnone
  -- going back from `i` there is no cycle, and so a node where it ends
  let toward := edges.filter fun e => Relation.ReflTransGen (Feeds edges) e.2 i
  let behind := nodes.filter fun a => Relation.ReflTransGen (Feeds edges) a i
  have htoward : ∀ a b, (a, b) ∈ toward ↔ (a, b) ∈ edges ∧ Relation.ReflTransGen (Feeds edges) b i := by
    simp [toward]
  have hbehind : ∀ a, a ∈ behind ↔ a ∈ nodes ∧ Relation.ReflTransGen (Feeds edges) a i := by
    simp [behind]
  have hacyclic : Acyclic toward := by
    intro c hcycle
    obtain ⟨b, -, hlast⟩ := Relation.TransGen.tail'_iff.mp hcycle
    have hcycle' : Relation.TransGen (Feeds edges) c c :=
      Relation.TransGen.mono (fun a b hedge => ((htoward a b).mp hedge).1) c c hcycle
    exact hnone ⟨c, hcycle', ((htoward b c).mp hlast).2⟩
  have hne : behind ≠ [] := List.ne_nil_of_mem ((hbehind i).mpr ⟨hi, .refl⟩)
  obtain ⟨first, hfirst, hunfed⟩ := hacyclic.exists_first hne
  obtain ⟨hmem, hway⟩ := (hbehind first).mp hfirst
  obtain ⟨a, ha, hedge⟩ := hfed first hmem
  exact hunfed a ((htoward a first).mpr ⟨hedge, hway⟩) ((hbehind a).mpr ⟨ha, .head hedge hway⟩)

/-! ## Listed later -/

variable [DecidableEq ι]

/-- The edges between nodes that are not listed before a node. -/
def listedFrom (ids : List ι) (i : ι) (edges : List (Edge ι)) : List (Edge ι) :=
  edges.filter fun (a, b) => ids.idxOf i ≤ ids.idxOf a ∧ ids.idxOf i ≤ ids.idxOf b

/-- A node overtakes another one: that one is downstream of a cycle, and no node of the cycle and of the way from
it is listed before the first node. -/
def Overtakes (ids : List ι) (edges : List (Edge ι)) (i j : ι) : Prop := Downstream (listedFrom ids i edges) j

theorem mem_listedFrom {ids : List ι} {edges : List (Edge ι)} {i a b : ι} :
    (a, b) ∈ listedFrom ids i edges ↔ (a, b) ∈ edges ∧ ids.idxOf i ≤ ids.idxOf a ∧ ids.idxOf i ≤ ids.idxOf b := by
  simp [listedFrom]

/-- What stays of a list stays in its order. -/
theorem idxOf_lt_of_filter {p : ι → Bool} {items : List ι} {a b : ι} (ha : p a = true) (hb : p b = true)
    (h : (items.filter p).idxOf a < (items.filter p).idxOf b) : items.idxOf a < items.idxOf b := by
  induction items with
  | nil => exact h
  | cons c rest ih =>
      by_cases hc : p c = true
      · rw [List.filter_cons_of_pos hc] at h
        simp only [List.idxOf_cons, beq_iff_eq, cond_eq_ite] at h ⊢
        split_ifs at h ⊢ <;> omega
      · rw [List.filter_cons_of_neg hc] at h
        have hca : c ≠ a := fun heq => hc (heq ▸ ha)
        have hcb : c ≠ b := fun heq => hc (heq ▸ hb)
        rw [List.idxOf_cons_ne rest hca, List.idxOf_cons_ne rest hcb]
        exact Nat.succ_lt_succ (ih h)

/-- Without repetitions, nodes are listed in the order of their first places. -/
theorem pairwise_idxOf_eraseDups (ids : List ι) :
    ids.eraseDups.Pairwise fun a b => ids.idxOf a < ids.idxOf b := by
  induction hn : ids.length using Nat.strongRecOn generalizing ids with
  | _ n ih =>
      cases ids with
      | nil => exact .nil
      | cons c rest =>
          have hne : ∀ a ∈ (rest.filter fun b => !b == c).eraseDups, a ≠ c := by
            intro a ha
            simpa using (List.mem_filter.mp (List.mem_eraseDups.mp ha)).2
          have hshorter : (rest.filter fun b => !b == c).length < n := by
            rw [← hn, List.length_cons]
            exact Nat.lt_succ_of_le (List.length_filter_le _ _)
          rw [List.eraseDups_cons, List.pairwise_cons]
          constructor
          · intro a ha
            rw [List.idxOf_cons_self, List.idxOf_cons_ne rest (hne a ha).symm]
            exact Nat.succ_pos _
          · refine (ih _ hshorter _ rfl).imp_of_mem fun {a b} ha hb hlt => ?_
            rw [List.idxOf_cons_ne rest (hne a ha).symm, List.idxOf_cons_ne rest (hne b hb).symm]
            exact Nat.succ_lt_succ (idxOf_lt_of_filter (by simpa using hne a ha) (by simpa using hne b hb) hlt)

/-! ## Which node is released -/

section

variable {edges : List (Edge ι)} {nodes : List ι} {group : ι → Prop}
  (hfed : ∀ i, group i → ∃ a, group a ∧ (a, i) ∈ edges)

include hfed

/-- Nodes that feed each other stay when unfed ones are taken out. -/
theorem mem_core_of_fed (hsub : ∀ i, group i → i ∈ nodes) : ∀ i, group i → i ∈ core edges nodes := by
  fun_induction core edges nodes with
  | case1 nodes j hfirst ih =>
      refine ih fun i hi => ?_
      have hne : i ≠ j := by
        rintro rfl
        obtain ⟨a, ha, hedge⟩ := hfed i hi
        exact unfed_iff.mp (List.find?_some hfirst) a (hsub a ha) hedge
      exact (List.mem_erase_of_ne hne).mpr (hsub i hi)
  | case2 nodes _ => exact hsub

/-- Of nodes that feed each other, the first is the one that is released, and all are pending then. -/
theorem exists_break_of_fed {rank : ι → Nat} (hsorted : nodes.Pairwise fun a b => rank a < rank b)
    (hsub : ∀ i, group i → i ∈ nodes) {first : ι} (hfirst : group first)
    (hle : ∀ i, group i → rank first ≤ rank i) :
    ∃ p ∈ breaks edges nodes, p.1 = first ∧ ∀ i, group i → i ∈ p.2 := by
  have hcore := mem_core_of_fed hfed hsub
  fun_induction breaks edges nodes with
  | case1 nodes hnil =>
      have hmem := hcore first hfirst
      rw [hnil] at hmem
      cases hmem
  | case2 nodes i rest hcons ih =>
      rw [hcons] at hcore
      have hrest := hsorted.sublist (core_sublist edges nodes)
      rw [hcons, List.pairwise_cons] at hrest
      obtain ⟨hlt, hrest⟩ := hrest
      by_cases hi : group i
      · refine ⟨(i, i :: rest), List.mem_cons_self, ?_, hcore⟩
        rcases List.mem_cons.mp (hcore first hfirst) with heq | hmem
        · exact heq.symm
        · exact absurd (hlt first hmem) (Nat.not_lt_of_le (hle i hi))
      · -- the group is pending still when that node is out
        have hsub' : ∀ j, group j → j ∈ rest := fun j hj =>
          List.mem_of_ne_of_mem (fun heq : j = i => hi (heq ▸ hj)) (hcore j hj)
        obtain ⟨p, hp, hfound⟩ := ih hrest hsub' (mem_core_of_fed hfed hsub')
        exact ⟨p, List.mem_cons_of_mem _ hp, hfound⟩

end

/-- At a break the first pending node is released, and all pending nodes are fed by one another. -/
theorem fed_of_mem_breaks {edges : List (Edge ι)} {nodes : List ι} {rank : ι → Nat}
    (hsorted : nodes.Pairwise fun a b => rank a < rank b) {p : ι × List ι} (hp : p ∈ breaks edges nodes) :
    p.1 ∈ p.2 ∧ (∀ i ∈ p.2, rank p.1 ≤ rank i) ∧ ∀ i ∈ p.2, ∃ a ∈ p.2, (a, i) ∈ edges := by
  fun_induction breaks edges nodes with
  | case1 => cases hp
  | case2 nodes i rest hcons ih =>
      have hrest := hsorted.sublist (core_sublist edges nodes)
      rw [hcons, List.pairwise_cons] at hrest
      obtain ⟨hlt, hrest⟩ := hrest
      rcases List.mem_cons.mp hp with rfl | hp
      · refine ⟨List.mem_cons_self, fun j hj => ?_, fun j hj => ?_⟩
        · rcases List.mem_cons.mp hj with rfl | hj
          · exact Nat.le_refl _
          · exact Nat.le_of_lt (hlt j hj)
        · have hj' : j ∈ core edges nodes := by rw [hcons]; exact hj
          have hfed := fed_of_mem_core hj'
          rwa [hcons] at hfed
      · exact ih hrest hp

/-- **An edge is cut if and only if its end overtakes its source.** -/
theorem cut_iff_overtakes {ids : List ι} {edges : List (Edge ι)} {a b : ι} (hedge : (a, b) ∈ proper ids edges) :
    Cut (breaks (proper ids edges) ids.eraseDups) a b ↔ Overtakes ids (proper ids edges) b a := by
  have hsorted := pairwise_idxOf_eraseDups ids
  constructor
  · rintro ⟨p, hp, rfl, ha⟩
    obtain ⟨-, hle, hfed⟩ := fed_of_mem_breaks hsorted hp
    refine downstream_of_fed (fun i hi => ?_) ha
    obtain ⟨c, hc, hedge'⟩ := hfed i hi
    exact ⟨c, hc, mem_listedFrom.mpr ⟨hedge', hle c hc, hle i hi⟩⟩
  · intro hdown
    -- the end of the edge with all nodes downstream of the cycle that are listed after it
    let group (i : ι) : Prop := i = b ∨ Downstream (listedFrom ids b (proper ids edges)) i
    have hfed : ∀ i, group i → ∃ c, group c ∧ (c, i) ∈ proper ids edges := by
      rintro i (rfl | hi)
      · exact ⟨a, .inr hdown, hedge⟩
      · obtain ⟨c, hc, hedge'⟩ := hi.exists_feeds
        exact ⟨c, .inr hc, (mem_listedFrom.mp hedge').1⟩
    have hsub : ∀ i, group i → i ∈ ids.eraseDups := by
      intro i hi
      obtain ⟨c, -, hedge'⟩ := hfed i hi
      exact List.mem_eraseDups.mpr (mem_proper.mp hedge').2.2.2
    have hle : ∀ i, group i → ids.idxOf b ≤ ids.idxOf i := by
      rintro i (rfl | hi)
      · exact Nat.le_refl _
      · obtain ⟨c, -, hedge'⟩ := hi.exists_feeds
        exact (mem_listedFrom.mp hedge').2.2
    obtain ⟨p, hp, heq, hall⟩ := exists_break_of_fed hfed hsorted hsub (.inl rfl) hle
    exact ⟨p, hp, heq, hall a (.inr hdown)⟩

/-! ## The columns -/

/-- **Columns are longest paths along the edges whose end does not overtake their source**: every such edge leads
to the right, whether or not it lies on a cycle, and every other one is ignored.  A cycle is broken at the nodes
that overtake one that feeds them.  So a node that is on no cycle is to the right of all that feeds it, unless
there is a cycle upstream that, with a way from it, is listed after the node. -/
theorem layers_overtaken (ids : List ι) (edges : List (Edge ι)) :
    (∃ followed : List (Edge ι),
      (∀ a b, (a, b) ∈ followed ↔ (a, b) ∈ proper ids edges ∧ ¬ Overtakes ids (proper ids edges) b a) ∧
        LongestPaths followed (layers ids edges).of) ∧
    (∀ a b, (a, b) ∈ proper ids edges → ¬ Overtakes ids (proper ids edges) b a →
      (layers ids edges).of a < (layers ids edges).of b) ∧
    ∀ b, b ∈ (layers ids edges).broken ↔ ∃ a, (a, b) ∈ proper ids edges ∧ Overtakes ids (proper ids edges) b a := by
  obtain ⟨hlongest, hbroken⟩ := layers_kept ids edges
  have hkept : ∀ a b, (a, b) ∈ kept (proper ids edges) ids.eraseDups ↔
      (a, b) ∈ proper ids edges ∧ ¬ Overtakes ids (proper ids edges) b a := by
    intro a b
    rw [mem_kept]
    exact and_congr_right fun hedge => not_congr (cut_iff_overtakes hedge)
  refine ⟨⟨_, hkept, hlongest⟩, fun a b hedge hnot => ?_, fun b => ?_⟩
  · have hfollowed := (hkept a b).mpr ⟨hedge, hnot⟩
    exact (hlongest.fed b ⟨a, hfollowed⟩).2 ⟨a, hfollowed, rfl⟩
  · rw [hbroken, List.mem_map]
    constructor
    · rintro ⟨p, hp, rfl⟩
      obtain ⟨hmem, -, hfed⟩ := fed_of_mem_breaks (pairwise_idxOf_eraseDups ids) hp
      obtain ⟨a, ha, hedge⟩ := hfed p.1 hmem
      exact ⟨a, hedge, (cut_iff_overtakes hedge).mp ⟨p, hp, rfl, ha⟩⟩
    · rintro ⟨a, hedge, hover⟩
      obtain ⟨p, hp, heq, -⟩ := (cut_iff_overtakes hedge).mpr hover
      exact ⟨p, hp, heq⟩

/-- A node that is listed before the two of a cycle. -/
def exitNodes : List String := ["c", "a", "b"]

/-- Two nodes that feed each other; the second one feeds a third. -/
def exitEdges : List (Edge String) := [("a", "b"), ("b", "a"), ("b", "c")]

/-- The third node overtakes the two of the cycle. -/
theorem overtakes_exit : Overtakes exitNodes (proper exitNodes exitEdges) "c" "b" := by
  have hback : Feeds (listedFrom exitNodes "c" (proper exitNodes exitEdges)) "b" "a" := by
    unfold Feeds
    decide
  have hforth : Feeds (listedFrom exitNodes "c" (proper exitNodes exitEdges)) "a" "b" := by
    unfold Feeds
    decide
  exact ⟨"b", .head hback (.single hforth), .refl⟩

/-- A cycle is broken at the third node, although it lies on none; and one edge of the cycle leads to the right. -/
theorem layers_overtaken_exit :
    "c" ∈ (layers exitNodes exitEdges).broken ∧
      (layers exitNodes exitEdges).of "a" < (layers exitNodes exitEdges).of "b" := by
  obtain ⟨-, hright, hbroken⟩ := layers_overtaken exitNodes exitEdges
  refine ⟨(hbroken "c").mpr ⟨"b", by decide, overtakes_exit⟩, hright "a" "b" (by decide) ?_⟩
  have hnone : listedFrom exitNodes "b" (proper exitNodes exitEdges) = [] := by decide
  rintro ⟨c, hcycle, -⟩
  obtain ⟨a, -, hedge⟩ := Relation.TransGen.tail'_iff.mp hcycle
  rw [hnone] at hedge
  cases hedge

/-- **An edge on no cycle need not lead to the right.** -/
theorem not_rightward_exit :
    ("b", "c") ∈ proper exitNodes exitEdges ∧
      ¬ Relation.ReflTransGen (Feeds (proper exitNodes exitEdges)) "c" "b" ∧
      ¬ (layers exitNodes exitEdges).of "b" < (layers exitNodes exitEdges).of "c" := by
  refine ⟨by decide, fun hway => ?_, ?_⟩
  · -- the third node feeds none
    rcases hway.cases_head with heq | ⟨a, hedge, -⟩
    · exact absurd heq (by decide)
    · have hnone : ∀ e ∈ proper exitNodes exitEdges, e.1 ≠ "c" := by decide
      exact hnone ("c", a) hedge rfl
  · -- the one edge that leads to it is ignored, so that it stands in the first column
    have honly : ∀ e ∈ proper exitNodes exitEdges, e.2 = "c" → e.1 = "b" := by decide
    have hzero : (layers exitNodes exitEdges).of "c" = 0 := by
      refine (layers_kept exitNodes exitEdges).1.source "c" fun a hmem => ?_
      obtain ⟨hedge, hnot⟩ := mem_kept.mp hmem
      obtain rfl : a = "b" := honly (a, "c") hedge rfl
      exact hnot ((cut_iff_overtakes hedge).mpr overtakes_exit)
    rw [hzero]
    exact Nat.not_lt_zero _

end Patchbay.Layout
