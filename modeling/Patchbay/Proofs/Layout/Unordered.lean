import Patchbay.Layout.Placement
import Patchbay.Proofs.Layout.LongestPath

/-!
# The order of connections does not matter

The columns of a graph are longest paths along the edges that no break cuts, and both the paths and the breaks
depend on what edges there are.  So connections may be listed in any order, and more than once: a document is
placed in the same way, and the report is the same.

* `LongestPaths.congr`, `LongestPaths.unique` — columns depend on what edges there are.
* `layers_congr` — and so do the columns of the walk, and the nodes at which it breaks cycles.
* **`Document.placement_unordered`** — the same for the placement of documents
-/

namespace Patchbay

namespace Layout

variable {ι : Type}

theorem PathTo.congr {edges edges' : List (Edge ι)} (h : ∀ e, e ∈ edges' ↔ e ∈ edges) {n : Nat} {i : ι} :
    PathTo edges' n i ↔ PathTo edges n i := by
  constructor
  · intro hpath
    induction hpath with
    | start i => exact .start i
    | step _ hedge ih => exact .step ih ((h _).mp hedge)
  · intro hpath
    induction hpath with
    | start i => exact .start i
    | step _ hedge ih => exact .step ih ((h _).mpr hedge)

/-- A graph has one assignment of columns by longest paths. -/
theorem LongestPaths.unique {edges edges' : List (Edge ι)} (h : ∀ e, e ∈ edges' ↔ e ∈ edges)
    {layer layer' : ι → Nat} (hlayer : LongestPaths edges layer) (hlayer' : LongestPaths edges' layer') :
    layer' = layer := by
  funext i
  have hlongest := hlayer'.longest i
  simp only [PathTo.congr h] at hlongest
  exact hlongest.unique (hlayer.longest i)

variable [DecidableEq ι]

theorem mem_proper_congr {edges edges' : List (Edge ι)} (h : ∀ e, e ∈ edges' ↔ e ∈ edges) (ids : List ι)
    (e : Edge ι) : e ∈ proper ids edges' ↔ e ∈ proper ids edges := by
  obtain ⟨a, b⟩ := e
  rw [mem_proper, mem_proper, h]

/-- What the walk finds depends on the nodes and on what edges there are. -/
theorem layers_congr (ids : List ι) {edges edges' : List (Edge ι)} (h : ∀ e, e ∈ edges' ↔ e ∈ edges) :
    layers ids edges' = layers ids edges := by
  obtain ⟨hof, hbroken⟩ := layers_kept ids edges
  obtain ⟨hof', hbroken'⟩ := layers_kept ids edges'
  have hproper := mem_proper_congr h ids
  have hsame : (layers ids edges').of = (layers ids edges).of :=
    hof.unique (mem_kept_congr hproper ids.eraseDups) hof'
  have hsame' : (layers ids edges').broken = (layers ids edges).broken := by
    rw [hbroken', hbroken, breaks_congr hproper]
  calc layers ids edges' = ⟨(layers ids edges').of, (layers ids edges').broken⟩ := rfl
    _ = layers ids edges := by rw [hsame, hsame']

end Layout

namespace Document

open Layout

/-- Which edges a document has depends on what connections there are. -/
theorem mem_edges_congr {d : Document} {connections : List Connection}
    (h : ∀ c, c ∈ connections ↔ c ∈ d.connections) (e : Edge String) :
    e ∈ ({ d with connections } : Document).edges ↔ e ∈ d.edges := by
  unfold edges
  simp only [List.mem_filter, List.mem_map, h]

/-- **Documents with the same components and the same connections, in whatever order and however often these are
listed, are placed in the same way**, with the same report of broken cycles.  And in general, what columns a
graph has depends on its nodes and on what edges there are. -/
theorem placement_unordered :
    (∀ (ids : List String) (edges edges' : List (Edge String)), (∀ e, e ∈ edges' ↔ e ∈ edges) →
      Layout.layers ids edges' = Layout.layers ids edges) ∧
    (∀ (d : Document) (connections : List Connection), (∀ c, c ∈ connections ↔ c ∈ d.connections) →
      ∀ (s : Settings Float) (bounds : Option (Frame Float)),
        ({ d with connections } : Document).placement s bounds = d.placement s bounds) := by
  refine ⟨fun ids _ _ h => layers_congr ids h, fun d connections h s bounds => ?_⟩
  have hlayers : ({ d with connections } : Document).layers = d.layers :=
    layers_congr _ (mem_edges_congr h)
  unfold placement grid
  rw [hlayers]
  rfl

/-- Two components that feed each other, and a third that one of them feeds. -/
def ring : Document where
  components := ["left", "right", "out"].map fun id =>
    { name := .str "Addition", typeKey := .str "", id, pivot := none, selected := false,
      properties := [], inputs := [], outputs := [], warnings := [], errors := [] }
  connections :=
    [⟨⟨"left", .str "R"⟩, ⟨"right", .str "A"⟩⟩, ⟨⟨"right", .str "R"⟩, ⟨"left", .str "A"⟩⟩,
     ⟨⟨"left", .str "R"⟩, ⟨"out", .str "A"⟩⟩]

/-- The connections of `ring` backwards, and one of them twice. -/
theorem placement_unordered_ring :
    Layout.layers ["left", "right"] [("right", "left"), ("left", "right"), ("right", "left")] =
        Layout.layers ["left", "right"] [("left", "right"), ("right", "left")] ∧
      ({ ring with connections := ring.connections.reverse ++ ring.connections.take 1 } : Document).placement
        Settings.default none = ring.placement Settings.default none := by
  refine ⟨placement_unordered.1 _ _ _ fun e => ?_, placement_unordered.2 ring _ (fun c => ?_) _ none⟩
  · simp only [List.mem_cons, List.not_mem_nil, or_false]
    tauto
  · rw [List.mem_append, List.mem_reverse, or_iff_left_of_imp List.mem_of_mem_take]

end Document

end Patchbay
