import Mathlib.Data.List.Nodup
import Mathlib.Data.List.Perm.Subperm
import Mathlib.Logic.Relation
import Patchbay.Validation.DataType

/-!
# Ancestors of types of data

A type names its parent, and the name may lead nowhere, to the type itself, or around in a circle.  The walk
from parent to parent stops at the first type that it has met.  Since a type has one parent, what comes after
that type has been met as well, so that **nothing is missed by stopping there**.

* `DataTypes.Ancestor` — what is reached from a type by its parent, the parent of that, and so on
* `DataTypes.Round` — one round of the walk, which meets one type more
* **`DataTypes.Walked`** is the invariant of the walk.  Its load-bearing clause is `closed`: the parents of all
  types on the way have been met, but for the type at hand.
* `DataTypes.Walked.length_le` — a walk has no more rounds than there are types.
* `DataTypes.exists_walk_ancestors` — what is computed is where the walk ends.
* **`DataTypes.ancestors_exact`** — the result, for every table, and with it what `compatible` decides
-/

namespace Patchbay.DataTypes

/-- One gets from a type to another by parents, in one step or more. -/
def Ancestor (t : DataTypes) : DataType → DataType → Prop :=
  Relation.TransGen fun type parent => t.parent? type = some parent

/-- One round of the walk, between the types that have been met and the type at hand: its parent is known and
is met for the first time. -/
inductive Round (t : DataTypes) : List DataType × DataType → List DataType × DataType → Prop
  | meet {met : List DataType} {type parent : DataType} (hparent : t.parent? type = some parent)
      (hnew : parent ∉ met) : Round t (met, type) (met ++ [parent], parent)

/-- The rounds of a walk, one after the other. -/
def Walk (t : DataTypes) : List DataType × DataType → List DataType × DataType → Prop :=
  Relation.ReflTransGen t.Round

/-- The rules by which an output of one type may feed an input of another. -/
inductive Fits (t : DataTypes) (source target : DataType) : Prop
  | same (h : source = target)
  | ancestor (h : t.Ancestor source target)
  | numeric (hsource : source.category = .numeric) (htarget : target.category = .numeric)
  | geometry (hsource : source.category = .geometry) (htarget : target.category = .geometry)
  /-- Everything has a text. -/
  | text (htarget : target.category = .text)
  | toGeneric (htarget : target.category = .generic)
  /-- What a generic output carries is not known. -/
  | fromGeneric (hsource : source.category = .generic)

variable {t : DataTypes} {type : DataType} {w w' : List DataType × DataType}

/-! ## The invariant of the walk -/

/-- What holds on the way from a type to its ancestors, when some types have been met and one is at hand. -/
structure Walked (t : DataTypes) (type : DataType) (w : List DataType × DataType) : Prop where
  nodup : w.1.Nodup
  known : w.1 ⊆ t.types
  /-- What has been met is an ancestor. -/
  sound : ∀ u ∈ w.1, t.Ancestor type u
  /-- The type at hand is the one that was met last, or that with which the walk began. -/
  current : w.2 = type ∨ w.2 ∈ w.1
  /-- The parents of the types before the one at hand have been met. -/
  closed : ∀ u, u = type ∨ u ∈ w.1 → u ≠ w.2 → ∀ parent, t.parent? u = some parent → parent ∈ w.1

theorem walked_start (t : DataTypes) (type : DataType) : t.Walked type ([], type) where
  nodup := List.nodup_nil
  known := List.nil_subset _
  sound := fun _ hu => absurd hu List.not_mem_nil
  current := .inl rfl
  closed := by
    rintro u (rfl | hu) hne
    · exact absurd rfl hne
    · exact absurd hu List.not_mem_nil

/-- What is met next is an ancestor as well. -/
theorem Walked.ancestor_parent (h : t.Walked type w) {parent : DataType} (hparent : t.parent? w.2 = some parent) :
    t.Ancestor type parent := by
  rcases h.current with hcurrent | hmet
  · rw [hcurrent] at hparent
    exact .single hparent
  · exact (h.sound _ hmet).tail hparent

/-- **A round keeps the invariant.** -/
theorem Walked.round (h : t.Walked type w) (hround : t.Round w w') : t.Walked type w' := by
  obtain @⟨met, current, parent, hparent, hnew⟩ := hround
  constructor
  case nodup => exact h.nodup.append (List.nodup_singleton parent) (List.disjoint_singleton.mpr hnew)
  case known =>
    exact List.append_subset.mpr ⟨h.known, fun u hu => List.mem_singleton.mp hu ▸ mem_types_of_parent? hparent⟩
  case sound =>
    intro u hu
    rcases List.mem_append.mp hu with hu | hu
    · exact h.sound u hu
    · rw [List.mem_singleton.mp hu]
      exact h.ancestor_parent hparent
  case current => exact .inr (List.mem_append_right met List.mem_cons_self)
  case closed =>
    intro u hu hne v hv
    by_cases hcurrent : u = current
    · -- the parent of what was at hand is what is at hand now
      rw [hcurrent, hparent] at hv
      exact List.mem_append_right met (List.mem_singleton.mpr (Option.some.inj hv).symm)
    · refine List.mem_append_left _ (h.closed u ?_ hcurrent v hv)
      refine hu.imp_right fun hmem => (List.mem_append.mp hmem).resolve_right fun hlast => ?_
      exact hne (List.mem_singleton.mp hlast)

theorem Walked.walk (h : t.Walked type w) (hwalk : t.Walk w w') : t.Walked type w' := by
  induction hwalk with
  | refl => exact h
  | tail _ hround ih => exact ih.round hround

/-- Each round meets one more of the types that there are. -/
theorem Walked.length_le (h : t.Walked type w) : w.1.length ≤ t.types.length :=
  (h.nodup.subperm h.known).length_le

/-- **Where the walk stops, all ancestors have been met**: the parents of all types on the way have, that of the
last type included. -/
theorem Walked.mem_iff (h : t.Walked type w) (hend : ∀ w', ¬ t.Round w w') (u : DataType) :
    u ∈ w.1 ↔ t.Ancestor type u := by
  refine ⟨h.sound u, fun hancestor => ?_⟩
  have hclosed : ∀ u, u = type ∨ u ∈ w.1 → ∀ parent, t.parent? u = some parent → parent ∈ w.1 := by
    intro u hu parent hparent
    by_cases hcurrent : u = w.2
    · by_contra hnew
      exact hend _ (.meet (hcurrent ▸ hparent) hnew)
    · exact h.closed u hu hcurrent parent hparent
  induction hancestor with
  | single hparent => exact hclosed type (.inl rfl) _ hparent
  | tail _ hparent ih => exact hclosed _ (.inr ih) _ hparent

/-! ## What is computed -/

/-- The walk goes on to what is computed, and no further. -/
theorem exists_walk_ancestorsFrom (t : DataTypes) (met : List DataType) (type : DataType) :
    ∃ last, t.Walk (met, type) (t.ancestorsFrom met type, last) ∧
      ∀ w', ¬ t.Round (t.ancestorsFrom met type, last) w' := by
  fun_induction ancestorsFrom t met type with
  | case1 met type hnone =>
      refine ⟨type, .refl, ?_⟩
      rintro _ ⟨hparent, -⟩
      rw [hnone] at hparent
      cases hparent
  | case2 met type parent hparent hmet =>
      refine ⟨type, .refl, ?_⟩
      rintro _ ⟨hparent', hnew⟩
      rw [hparent] at hparent'
      cases hparent'
      exact hnew hmet
  | case3 met type parent hparent hnew ih =>
      obtain ⟨last, hwalk, hend⟩ := ih
      exact ⟨last, .head (.meet hparent hnew) hwalk, hend⟩

theorem exists_walk_ancestors (t : DataTypes) (type : DataType) :
    ∃ last, t.Walk ([], type) (t.ancestors type, last) ∧ ∀ w', ¬ t.Round (t.ancestors type, last) w' :=
  t.exists_walk_ancestorsFrom [] type

theorem mem_ancestors_iff (t : DataTypes) (type u : DataType) : u ∈ t.ancestors type ↔ t.Ancestor type u := by
  obtain ⟨last, hwalk, hend⟩ := t.exists_walk_ancestors type
  exact ((t.walked_start type).walk hwalk).mem_iff hend u

/-- Types that are known fit by one of the rules; others are not judged. -/
theorem compatible_iff (t : DataTypes) (source target : Option DataType) :
    t.compatible source target = true ↔ ∀ s ∈ source, ∀ u ∈ target, t.Fits s u := by
  unfold compatible
  cases source with
  | none => simp
  | some s =>
      cases target with
      | none => simp
      | some u =>
          simp only [Bool.or_eq_true, Bool.and_eq_true, beq_iff_eq, List.contains_iff_mem, mem_ancestors_iff,
            Option.mem_some, forall_eq']
          constructor
          · rintro (((((h | h) | ⟨hsame, h | h⟩) | h) | h) | h)
            · exact .same h
            · exact .ancestor h
            · exact .numeric h (hsame.symm.trans h)
            · exact .geometry h (hsame.symm.trans h)
            · exact .text h
            · exact .toGeneric h
            · exact .fromGeneric h
          · intro h
            cases h with
            | same h => simp [h]
            | ancestor h => simp [h]
            | numeric hsource htarget => simp [hsource, htarget]
            | geometry hsource htarget => simp [hsource, htarget]
            | text htarget => simp [htarget]
            | toGeneric htarget => simp [htarget]
            | fromGeneric hsource => simp [hsource]

/-- **The walk to the ancestors ends, and with exactly these.**  It does so for every table, whatever registrations
and aliases led to it, and whatever the type with which it begins: a walk meets one type in each round and has at
most as many rounds as the table has types; what is computed is where it has no further round; it contains no type
twice, and exactly those that are reached by parents.  So it is decided for any two types whether they fit. -/
theorem ancestors_exact (t : DataTypes) :
    (∀ type,
      (∀ w, t.Walk ([], type) w → w.1.length ≤ t.types.length) ∧
      (∃ last, t.Walk ([], type) (t.ancestors type, last) ∧ ∀ w', ¬ t.Round (t.ancestors type, last) w') ∧
      (t.ancestors type).Nodup ∧
      ∀ u, u ∈ t.ancestors type ↔ t.Ancestor type u) ∧
    ∀ source target, t.compatible source target = true ↔ ∀ s ∈ source, ∀ u ∈ target, t.Fits s u := by
  refine ⟨fun type => ?_, t.compatible_iff⟩
  have hwalked : ∀ w, t.Walk ([], type) w → t.Walked type w := fun w hwalk => (t.walked_start type).walk hwalk
  obtain ⟨last, hwalk, hend⟩ := t.exists_walk_ancestors type
  exact ⟨fun w hw => (hwalked w hw).length_le, ⟨last, hwalk, hend⟩, (hwalked _ hwalk).nodup,
    t.mem_ancestors_iff type⟩

/-- In a circle of parents, which may lead through an alias, a type is an ancestor of itself. -/
example :
    let t := ((empty.register ⟨"Cup", .other, some "Dish"⟩ []).2.register ⟨"Plate", .other, some "cup"⟩ ["Dish"]).2
    (t.ancestors ⟨"Cup", .other, some "Dish"⟩).map DataType.name = ["Plate", "Cup"] := by
  decide +kernel

end Patchbay.DataTypes
