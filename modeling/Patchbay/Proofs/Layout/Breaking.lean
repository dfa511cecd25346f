import Patchbay.Layout.Layers
import Mathlib.Data.List.Basic

/-!
# Where cycles are broken

The walk settles nodes that no pending node feeds, and breaks a cycle when there is no such node.  In which
order it meets the former depends on how the edges are listed.  What is left when there are no more of them does
not, and so neither does the node at which a cycle is broken.

* `core` — what is left of some nodes when the unfed ones are taken out, one after the other
* **`core_erase`** — the order in which they are taken out does not matter.
* **`breaks`** — the nodes at which cycles are broken, each with the nodes that are pending then
* `Cut`, **`kept`** — the edges that a break ignores, and the edges that are left
* `breaks_congr`, `kept_congr` — all this depends on what edges there are, and not on how they are listed.
-/

namespace Patchbay.Layout

variable {ι : Type} [DecidableEq ι]

/-! ## Nodes that none feeds -/

/-- None of some nodes feeds a node. -/
def unfed (edges : List (Edge ι)) (nodes : List ι) (i : ι) : Bool := nodes.all fun a => (a, i) ∉ edges

theorem unfed_iff {edges : List (Edge ι)} {nodes : List ι} {i : ι} :
    unfed edges nodes i = true ↔ ∀ a ∈ nodes, (a, i) ∉ edges := by
  simp [unfed]

theorem unfed_eq_false_iff {edges : List (Edge ι)} {nodes : List ι} {i : ι} :
    unfed edges nodes i = false ↔ ∃ a ∈ nodes, (a, i) ∈ edges := by
  simp [unfed]

/-- A node that is unfed stays so when other nodes are taken out. -/
theorem unfed_erase {edges : List (Edge ι)} {nodes : List ι} {i : ι} (h : unfed edges nodes i = true) (j : ι) :
    unfed edges (nodes.erase j) i = true :=
  unfed_iff.mpr fun a ha => unfed_iff.mp h a (List.mem_of_mem_erase ha)

/-- What is left of some nodes when those that none of the rest feeds are taken out, one after the other. -/
def core (edges : List (Edge ι)) (nodes : List ι) : List ι :=
  match _hfirst : nodes.find? (unfed edges nodes) with
  | some i => core edges (nodes.erase i)
  | none => nodes
termination_by nodes.length
decreasing_by
  have hmem := List.mem_of_find?_eq_some _hfirst
  have := List.length_pos_of_mem hmem
  rw [List.length_erase_of_mem hmem]
  omega

theorem core_of_fed {edges : List (Edge ι)} {nodes : List ι} (h : ∀ i ∈ nodes, unfed edges nodes i = false) :
    core edges nodes = nodes := by
  have hnone : nodes.find? (unfed edges nodes) = none :=
    List.find?_eq_none.mpr fun i hi => by simp [h i hi]
  rw [core]
  split
  · next hsome =>
    rw [hnone] at hsome
    cases hsome
  · rfl

/-- **It does not matter which unfed node is taken out first.** -/
theorem core_erase {edges : List (Edge ι)} {nodes : List ι} {i : ι} (hi : i ∈ nodes)
    (hunfed : unfed edges nodes i = true) : core edges (nodes.erase i) = core edges nodes := by
  induction hn : nodes.length using Nat.strongRecOn generalizing nodes i with
  | ind n ih =>
    subst hn
    rw [core.eq_def edges nodes]
    split
    · next first hfirst =>
      have hmem := List.mem_of_find?_eq_some hfirst
      have hfree := List.find?_some hfirst
      have hshorter : ∀ j ∈ nodes, (nodes.erase j).length < nodes.length := fun j hj => by
        have := List.length_pos_of_mem hj
        rw [List.length_erase_of_mem hj]
        omega
      by_cases heq : first = i
      · rw [heq]
      · -- either may be taken out after the other
        calc core edges (nodes.erase i)
            = core edges ((nodes.erase i).erase first) :=
              (ih _ (hshorter i hi) ((List.mem_erase_of_ne heq).mpr hmem) (unfed_erase hfree i) rfl).symm
          _ = core edges ((nodes.erase first).erase i) := by rw [List.erase_comm]
          _ = core edges (nodes.erase first) :=
              ih _ (hshorter first hmem) ((List.mem_erase_of_ne (Ne.symm heq)).mpr hi) (unfed_erase hunfed first) rfl
    · next hnone => exact absurd hunfed (by simpa using List.find?_eq_none.mp hnone i hi)

theorem core_sublist (edges : List (Edge ι)) (nodes : List ι) : (core edges nodes).Sublist nodes := by
  fun_induction core edges nodes with
  | case1 nodes i h ih => exact ih.trans List.erase_sublist
  | case2 nodes h => exact List.Sublist.refl nodes

/-- A core has no unfed nodes. -/
theorem fed_of_mem_core {edges : List (Edge ι)} {nodes : List ι} {i : ι} (hi : i ∈ core edges nodes) :
    ∃ a ∈ core edges nodes, (a, i) ∈ edges := by
  fun_induction core edges nodes with
  | case1 nodes j h ih => exact ih hi
  | case2 nodes h =>
      refine unfed_eq_false_iff.mp ?_
      simpa using List.find?_eq_none.mp h i hi

/-! ## Breaks -/

/-- The nodes at which cycles are broken, in order, each with the nodes that are pending then. -/
def breaks (edges : List (Edge ι)) (nodes : List ι) : List (ι × List ι) :=
  match _hcore : core edges nodes with
  | [] => []
  | i :: rest => (i, i :: rest) :: breaks edges rest
termination_by nodes.length
decreasing_by
  have := (core_sublist edges nodes).length_le
  rw [_hcore, List.length_cons] at this
  omega

/-- Where cycles are broken is up to the core. -/
theorem breaks_eq_of_core_eq {edges : List (Edge ι)} {nodes nodes' : List ι}
    (h : core edges nodes' = core edges nodes) : breaks edges nodes' = breaks edges nodes := by
  rw [breaks.eq_def edges nodes', breaks.eq_def edges nodes, h]

theorem breaks_erase {edges : List (Edge ι)} {nodes : List ι} {i : ι} (hi : i ∈ nodes)
    (hunfed : unfed edges nodes i = true) : breaks edges (nodes.erase i) = breaks edges nodes :=
  breaks_eq_of_core_eq (core_erase hi hunfed)

/-- Where every node is fed, a cycle is broken at the first. -/
theorem breaks_of_fed {edges : List (Edge ι)} {i : ι} {rest : List ι}
    (h : ∀ j ∈ i :: rest, unfed edges (i :: rest) j = false) :
    breaks edges (i :: rest) = (i, i :: rest) :: breaks edges rest := by
  rw [breaks.eq_def, core_of_fed h]

theorem breaks_eq_nil {edges : List (Edge ι)} {nodes : List ι} (h : core edges nodes = []) :
    breaks edges nodes = [] := by
  rw [breaks, h]

/-- What is pending at a break is among the nodes. -/
theorem subset_of_mem_breaks {edges : List (Edge ι)} {nodes : List ι} {p : ι × List ι}
    (h : p ∈ breaks edges nodes) : p.2 ⊆ nodes := by
  fun_induction breaks edges nodes with
  | case1 => cases h
  | case2 nodes i rest hcore ih =>
      have hsub := (core_sublist edges nodes).subset
      rw [hcore] at hsub
      rcases List.mem_cons.mp h with rfl | h
      · exact hsub
      · exact fun a ha => hsub (List.mem_cons_of_mem i (ih h ha))

/-! ## Edges that are ignored -/

/-- An edge is cut by a break at its end while its source is pending. -/
def Cut (broken : List (ι × List ι)) (a b : ι) : Prop := ∃ p ∈ broken, p.1 = b ∧ a ∈ p.2

instance (broken : List (ι × List ι)) (a b : ι) : Decidable (Cut broken a b) :=
  inferInstanceAs (Decidable (∃ p ∈ broken, p.1 = b ∧ a ∈ p.2))

/-- The edges that are not cut. -/
def kept (edges : List (Edge ι)) (nodes : List ι) : List (Edge ι) :=
  edges.filter fun (a, b) => ¬ Cut (breaks edges nodes) a b

theorem mem_kept {edges : List (Edge ι)} {nodes : List ι} {a b : ι} :
    (a, b) ∈ kept edges nodes ↔ (a, b) ∈ edges ∧ ¬ Cut (breaks edges nodes) a b := by
  simp [kept]

/-! ## Other listings of the edges -/

section

variable {edges edges' : List (Edge ι)} (h : ∀ e, e ∈ edges' ↔ e ∈ edges)

include h

theorem unfed_congr (nodes : List ι) : unfed edges' nodes = unfed edges nodes := by
  funext i
  simp only [unfed, h]

theorem core_congr (nodes : List ι) : core edges' nodes = core edges nodes := by
  fun_induction core edges nodes with
  | case1 nodes i hfirst ih =>
      rw [← ih]
      refine (core_erase (List.mem_of_find?_eq_some hfirst) ?_).symm
      rw [unfed_congr h]
      exact List.find?_some hfirst
  | case2 nodes hnone =>
      refine core_of_fed fun i hi => ?_
      rw [unfed_congr h]
      simpa using List.find?_eq_none.mp hnone i hi

theorem breaks_congr (nodes : List ι) : breaks edges' nodes = breaks edges nodes := by
  fun_induction breaks edges nodes with
  | case1 nodes hcore => exact breaks_eq_nil ((core_congr h nodes).trans hcore)
  | case2 nodes i rest hcore ih =>
      rw [breaks.eq_def, core_congr h, hcore]
      dsimp only
      rw [ih]

theorem mem_kept_congr (nodes : List ι) (e : Edge ι) : e ∈ kept edges' nodes ↔ e ∈ kept edges nodes := by
  obtain ⟨a, b⟩ := e
  rw [mem_kept, mem_kept, h, breaks_congr h]

end

end Patchbay.Layout
