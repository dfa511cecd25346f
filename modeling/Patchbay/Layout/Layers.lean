/-!
# Layers

A graph is laid out in columns. A node without incoming edges is in column 0, any other to the right
of everything that feeds it, as far as no cycle is in the way.

* `Edge`, `proper` — edges between two different known nodes
* `Sweep` — how far the walk over the graph has come
* `layers` — the column of every node, and the nodes at which cycles were broken

## Design decisions

* A node is settled when all its incoming edges are. If there is no such node, the first pending one
  is settled nevertheless: that breaks a cycle.
* The walk ends because every round settles a pending node or shortens the queue.
-/

namespace Patchbay.Layout

variable {ι : Type} [DecidableEq ι]

/-- An edge, from the node that feeds to the one that is fed. -/
abbrev Edge (ι : Type) := ι × ι

/-- The edges between two different nodes of a list. -/
def proper (ids : List ι) (edges : List (Edge ι)) : List (Edge ι) :=
  edges.filter fun (a, b) => a ≠ b ∧ a ∈ ids ∧ b ∈ ids

/-- The nodes that a node feeds, once for each edge. -/
def successors (edges : List (Edge ι)) (i : ι) : List ι :=
  edges.filterMap fun (a, b) => if a = i then some b else none

/-- The number of edges into a node. -/
def inbound (edges : List (Edge ι)) (i : ι) : Nat := edges.countP fun (_, b) => b = i

/-- The function with another value in one place. -/
def setAt (f : ι → Nat) (i : ι) (n : Nat) : ι → Nat := fun j => if j = i then n else f j

@[simp] theorem setAt_self (f : ι → Nat) (i : ι) (n : Nat) : setAt f i n i = n := by simp [setAt]

theorem setAt_of_ne (f : ι → Nat) {i j : ι} (n : Nat) (h : j ≠ i) : setAt f i n j = f j := by
  simp [setAt, h]

/-- A walk over a graph. -/
structure Sweep (ι : Type) where
  /-- The nodes that are not settled, in their order. -/
  pending : List ι
  /-- The nodes whose incoming edges are all settled. -/
  ready : List ι
  /-- The columns found so far. -/
  layer : ι → Nat
  /-- How many incoming edges of a node are not settled. -/
  unmet : ι → Nat
  /-- Where cycles were broken, the latest first. -/
  broken : List ι

namespace Sweep

/-- Settles an edge into `i` from a node of layer `l`. -/
def relax (l : Nat) (s : Sweep ι) (i : ι) : Sweep ι :=
  if i ∈ s.pending then
    let left := s.unmet i - 1
    { s with
      layer := setAt s.layer i (max (s.layer i) (l + 1))
      unmet := setAt s.unmet i left
      ready := if left = 0 then s.ready ++ [i] else s.ready }
  else s

@[simp] theorem pending_relax (l : Nat) (s : Sweep ι) (i : ι) :
    (s.relax l i).pending = s.pending := by
  unfold relax
  split <;> rfl

@[simp] theorem broken_relax (l : Nat) (s : Sweep ι) (i : ι) : (s.relax l i).broken = s.broken := by
  unfold relax
  split <;> rfl

@[simp] theorem pending_foldl_relax (l : Nat) (s : Sweep ι) (is : List ι) :
    (is.foldl (relax l) s).pending = s.pending := by
  induction is generalizing s with
  | nil => rfl
  | cons i is ih => simp [ih]

/-- Settles a node and all edges that leave it. -/
def settle (next : ι → List ι) (s : Sweep ι) (i : ι) : Sweep ι :=
  (next i).foldl (relax (s.layer i)) { s with pending := s.pending.erase i }

@[simp] theorem pending_settle (next : ι → List ι) (s : Sweep ι) (i : ι) :
    (s.settle next i).pending = s.pending.erase i := by simp [settle]

/-- Walks on until every node is settled. -/
def run (next : ι → List ι) (s : Sweep ι) : Sweep ι :=
  match _hr : s.ready with
  | i :: ready =>
    if i ∈ s.pending then run next ({ s with ready }.settle next i)
    else run next { s with ready }
  | [] =>
    match _hp : s.pending with
    | [] => s
    | i :: _ => run next ({ s with broken := i :: s.broken }.settle next i)
termination_by (s.pending.length, s.ready.length)
decreasing_by
  · next h =>
    apply Prod.Lex.left
    have := List.length_pos_of_mem h
    simp [List.length_erase_of_mem h]
    omega
  · apply Prod.Lex.right
    simp [_hr]
  · apply Prod.Lex.left
    simp [_hp]

end Sweep

/-- The columns of a graph. -/
structure Layers (ι : Type) where
  of : ι → Nat
  /-- Where cycles were broken, in order. -/
  broken : List ι

/-- The walk before its first step. -/
def start (ids : List ι) (edges : List (Edge ι)) : Sweep ι where
  pending := ids
  ready := ids.filter fun i => inbound edges i = 0
  layer := fun _ => 0
  unmet := inbound edges
  broken := []

/-- The column of every node. Repeated nodes count once, and edges that are not proper not at all. -/
def layers (ids : List ι) (edges : List (Edge ι)) : Layers ι :=
  let ids := ids.eraseDups
  let edges := proper ids edges
  let s := (start ids edges).run (successors edges)
  ⟨s.layer, s.broken.reverse⟩

end Patchbay.Layout
