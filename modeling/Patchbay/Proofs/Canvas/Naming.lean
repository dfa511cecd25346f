import Patchbay.Canvas.Catalog
import Patchbay.Proofs.Keyed
import Mathlib.Data.List.Induction

/-!
# Naming types

A catalog has two indexes, and a change of one of them touches the other: whatever takes a type out, be it
its removal or another type under its key, takes the type's name out, too, whoever the name belongs to by
then.

* `Catalog.Change` — a registration or a removal; `Change.brings?` and `Change.removes?` say what it does to
  the types, and **`lookup_byKey_apply`**, **`lookup_byName_apply`** what it does to the indexes
* **`Catalog.Coherent`** — every entry stands where its type belongs, and a type that is found by name is
  there.  Every change keeps it.
* **`Catalog.lookup_byName_run_eq_none_iff`** — what becomes of a name in a history of changes: nothing is
  found under it if no type ever brought it, or if the last change to the name was that a type was taken out
* `Catalog.Stranded` — a type whose name went with another type
* **`Catalog.run_coherent`** — the result, for every history: types are found by key; what is found by name is
  there and has the name; and the name of a type finds a type unless the type is stranded
-/

namespace Patchbay.Catalog

open Text (lower trim)

/-! ## Changes -/

/-- A change of a catalog. -/
inductive Change
  | register (t : NodeType)
  | unregister (key : String)
deriving Repr, DecidableEq

namespace Change

/-- The key under which a change takes place. -/
def key : Change → String
  | register t => t.key
  | unregister key => key

/-- The type that a change brings. -/
def brings? : Change → Option NodeType
  | register t => some t
  | unregister _ => none

/-- The type that a change takes out, be it for nothing or for another one. -/
def removes? (c : Catalog) (e : Change) : Option NodeType := c.byKey.lookup (lower e.key)

/-- A change brings a type of a name, which is in lower case. -/
def Brings (e : Change) (name : String) : Prop := ∃ t, e.brings? = some t ∧ lower t.name = name

/-- A change takes out a type of a name, which is in lower case. -/
def Removes (c : Catalog) (e : Change) (name : String) : Prop :=
  ∃ t, e.removes? c = some t ∧ lower t.name = name

instance (e : Change) (name : String) : Decidable (e.Brings name) :=
  decidable_of_iff (∃ t ∈ e.brings?, lower t.name = name) Iff.rfl

instance (c : Catalog) (e : Change) (name : String) : Decidable (e.Removes c name) :=
  decidable_of_iff (∃ t ∈ e.removes? c, lower t.name = name) Iff.rfl

/-- A type is brought under its own key. -/
theorem key_of_brings {e : Change} {t : NodeType} (h : e.brings? = some t) : e.key = t.key := by
  cases e with
  | register t' =>
      cases h
      rfl
  | unregister key => cases h

end Change

/-- The catalog after a change. -/
def apply (c : Catalog) : Change → Catalog
  | .register t => (c.register t).value
  | .unregister key => c.unregister key

/-- The catalog after a history of changes. -/
def run (changes : List Change) : Catalog := changes.foldl apply empty

theorem run_concat (changes : List Change) (e : Change) : run (changes ++ [e]) = (run changes).apply e :=
  List.foldl_concat ..

theorem value_register (c : Catalog) (t : NodeType) :
    (c.register t).value =
      ⟨Keyed.put c.byKey (lower t.key) t,
        Keyed.put
          (match c.byKey.lookup (lower t.key) with
            | some previous => Keyed.drop c.byName (lower previous.name)
            | none => c.byName)
          (lower t.name) t⟩ := by
  unfold register
  dsimp only
  cases c.byKey.lookup (lower t.key) <;> rfl

theorem unregister_of_none {c : Catalog} {key : String} (h : c.byKey.lookup (lower key) = none) :
    c.unregister key = c := by
  unfold unregister
  simp only [h]

theorem unregister_of_some {c : Catalog} {key : String} {t : NodeType}
    (h : c.byKey.lookup (lower key) = some t) :
    c.unregister key = ⟨Keyed.drop c.byKey (lower key), Keyed.drop c.byName (lower t.name)⟩ := by
  unfold unregister
  simp only [h]

/-- A change puts what it brings, or nothing, under its key. -/
theorem lookup_byKey_apply (c : Catalog) (e : Change) (k : String) :
    (c.apply e).byKey.lookup k = if k = lower e.key then e.brings? else c.byKey.lookup k := by
  cases e with
  | register t =>
      rw [apply, value_register]
      exact Keyed.lookup_put ..
  | unregister key =>
      rw [apply]
      cases h : c.byKey.lookup (lower key) with
      | none =>
          rw [unregister_of_none h]
          split
          · next hk => exact hk ▸ h
          · rfl
      | some t =>
          rw [unregister_of_some h]
          exact Keyed.lookup_drop ..

/-- A change puts what it brings under its name, and takes out the name of what it takes out. -/
theorem lookup_byName_apply (c : Catalog) (e : Change) (n : String) :
    (c.apply e).byName.lookup n =
      if e.Brings n then e.brings? else if e.Removes c n then none else c.byName.lookup n := by
  cases e with
  | register t =>
      have hbrings : (Change.register t).Brings n ↔ n = lower t.name := by
        simp [Change.Brings, Change.brings?, eq_comm]
      rw [apply, value_register, Keyed.lookup_put, if_congr hbrings rfl rfl]
      congr 1
      cases h : c.byKey.lookup (lower t.key) with
      | none =>
          rw [if_neg]
          rintro ⟨u, hu, -⟩
          cases h.symm.trans hu
      | some u =>
          have hremoves : (Change.register t).Removes c n ↔ n = lower u.name := by
            simp [Change.Removes, Change.removes?, Change.key, h, eq_comm]
          rw [Keyed.lookup_drop, if_congr hremoves rfl rfl]
  | unregister key =>
      have hbrings : ¬ (Change.unregister key).Brings n := fun ⟨_, hu, _⟩ => by cases hu
      rw [apply, if_neg hbrings]
      cases h : c.byKey.lookup (lower key) with
      | none =>
          rw [unregister_of_none h, if_neg]
          rintro ⟨u, hu, -⟩
          cases h.symm.trans hu
      | some u =>
          have hremoves : (Change.unregister key).Removes c n ↔ n = lower u.name := by
            simp [Change.Removes, Change.removes?, Change.key, h, eq_comm]
          rw [unregister_of_some h, Keyed.lookup_drop, if_congr hremoves rfl rfl]

/-! ## Coherence -/

/-- Both indexes of a catalog know the same types. -/
structure Coherent (c : Catalog) : Prop where
  distinct : (c.byKey.map Prod.fst).Nodup
  keyed : ∀ {k t}, c.byKey.lookup k = some t → k = lower t.key
  named : ∀ {n t}, c.byName.lookup n = some t → n = lower t.name ∧ c.byKey.lookup (lower t.key) = some t

theorem coherent_empty : empty.Coherent where
  distinct := List.nodup_nil
  keyed := fun h => by cases h
  named := fun h => by cases h

theorem nodup_byKey_apply {c : Catalog} (h : (c.byKey.map Prod.fst).Nodup) (e : Change) :
    ((c.apply e).byKey.map Prod.fst).Nodup := by
  cases e with
  | register t =>
      rw [apply, value_register]
      exact Keyed.nodup_keys_put h ..
  | unregister key =>
      rw [apply]
      cases hlookup : c.byKey.lookup (lower key) with
      | none => rwa [unregister_of_none hlookup]
      | some t =>
          rw [unregister_of_some hlookup]
          exact Keyed.nodup_keys_drop h ..

namespace Coherent

variable {c : Catalog}

theorem apply (hc : c.Coherent) (e : Change) : (c.apply e).Coherent where
  distinct := nodup_byKey_apply hc.distinct e
  keyed := by
    intro k t h
    rw [lookup_byKey_apply] at h
    split at h
    · next hk => rw [hk, Change.key_of_brings h]
    · exact hc.keyed h
  named := by
    intro n t h
    rw [lookup_byName_apply] at h
    rw [lookup_byKey_apply]
    split at h
    · next hbrings =>
      obtain ⟨u, hu, hname⟩ := hbrings
      cases hu.symm.trans h
      exact ⟨hname.symm, by rw [if_pos (by rw [Change.key_of_brings hu]), hu]⟩
    · split at h
      · cases h
      · next hremoves =>
        -- a type that the name still finds is not the one that was taken out
        obtain ⟨hname, hkey⟩ := hc.named h
        have hother : lower t.key ≠ lower e.key := fun heq =>
          hremoves ⟨t, by rw [Change.removes?, ← heq, hkey], hname.symm⟩
        exact ⟨hname, by rw [if_neg hother, hkey]⟩

theorem mem_types_iff (hc : c.Coherent) {t : NodeType} :
    t ∈ c.types ↔ c.byKey.lookup (lower t.key) = some t := by
  unfold types
  rw [List.mem_map]
  constructor
  · rintro ⟨⟨k, t⟩, hmem, rfl⟩
    have hlookup := (Keyed.lookup_eq_some_iff hc.distinct).mpr hmem
    rwa [← hc.keyed hlookup]
  · exact fun h => ⟨_, Keyed.mem_of_lookup_eq_some h, rfl⟩

/-- A type that is there after a change came with it, or was there and stands under another key. -/
theorem mem_types_apply_iff (hc : c.Coherent) {e : Change} {t : NodeType} :
    t ∈ (c.apply e).types ↔ e.brings? = some t ∨ t ∈ c.types ∧ lower t.key ≠ lower e.key := by
  rw [(hc.apply e).mem_types_iff, hc.mem_types_iff, lookup_byKey_apply]
  constructor
  · intro h
    split at h
    · exact Or.inl h
    · next hk => exact Or.inr ⟨h, hk⟩
  · rintro (h | ⟨h, hk⟩)
    · rw [if_pos (by rw [Change.key_of_brings h]), h]
    · rw [if_neg hk, h]

end Coherent

theorem coherent_run (changes : List Change) : (run changes).Coherent := by
  induction changes using List.reverseRecOn with
  | nil => exact coherent_empty
  | append_singleton changes e ih =>
      rw [run_concat]
      exact ih.apply e

/-! ## What becomes of a name -/

/-- The last change to a name was that a type was taken out. -/
def Vacated (changes : List Change) (name : String) : Prop :=
  ∃ before e after, changes = before ++ e :: after ∧ e.Removes (run before) name ∧
    ∀ e' ∈ e :: after, ¬ e'.Brings name

theorem vacated_concat_iff {changes : List Change} {e : Change} {name : String} :
    Vacated (changes ++ [e]) name ↔
      ¬ e.Brings name ∧ (e.Removes (run changes) name ∨ Vacated changes name) := by
  constructor
  · rintro ⟨before, e', after, heq, hremoves, hbrings⟩
    cases after using List.reverseRecOn with
    | nil =>
        obtain ⟨rfl, hlast⟩ := List.append_inj' heq rfl
        cases hlast
        exact ⟨hbrings _ List.mem_cons_self, Or.inl hremoves⟩
    | append_singleton after last =>
        rw [← List.cons_append, ← List.append_assoc] at heq
        obtain ⟨rfl, hlast⟩ := List.append_inj' heq rfl
        cases hlast
        refine ⟨hbrings _ (by simp), Or.inr ⟨before, e', after, rfl, hremoves, fun e hmem => hbrings e ?_⟩⟩
        rw [← List.cons_append]
        exact List.mem_append_left _ hmem
  · rintro ⟨hlast, hremoves | ⟨before, e', after, rfl, hremoves, hbrings⟩⟩
    · exact ⟨changes, e, [], rfl, hremoves, by simpa using hlast⟩
    · refine ⟨before, e', after ++ [e], by simp, hremoves, fun e'' hmem => ?_⟩
      rw [← List.cons_append, List.mem_append, List.mem_singleton] at hmem
      rcases hmem with hmem | rfl
      · exact hbrings e'' hmem
      · exact hlast

/-- Nothing is found under a name that nobody brought, or that was vacated and not brought again. -/
theorem lookup_byName_run_eq_none_iff (changes : List Change) (name : String) :
    (run changes).byName.lookup name = none ↔
      Vacated changes name ∨ ∀ e ∈ changes, ¬ e.Brings name := by
  induction changes using List.reverseRecOn with
  | nil => exact iff_of_true rfl (Or.inr fun e he => absurd he List.not_mem_nil)
  | append_singleton changes e ih =>
      rw [run_concat, lookup_byName_apply, vacated_concat_iff]
      split
      · next hbrings =>
        obtain ⟨t, ht, -⟩ := id hbrings
        refine iff_of_false (by simp [ht]) ?_
        rintro (⟨hnot, -⟩ | hnone)
        · exact hnot hbrings
        · exact hnone e (by simp) hbrings
      · next hbrings =>
        split
        · next hremoves => exact iff_of_true rfl (Or.inl ⟨hbrings, Or.inl hremoves⟩)
        · next hremoves =>
          rw [ih]
          simp only [hbrings, hremoves, not_false_eq_true, true_and, false_or, List.mem_append,
            List.mem_singleton, or_imp, forall_and, forall_eq, and_true]

/-! ## Types whose names are gone -/

/-- The name of a type went with another type of that name, after the type had come, and none has brought it
since. -/
def Stranded (changes : List Change) (t : NodeType) : Prop :=
  ∃ before e after u, changes = before ++ e :: after ∧ t ∈ (run before).types ∧
    e.removes? (run before) = some u ∧ lower u.key ≠ lower t.key ∧ lower u.name = lower t.name ∧
    ∀ e' ∈ e :: after, ¬ e'.Brings (lower t.name)

/-- A type that no change brought was there all the time, and no change was under its key. -/
theorem mem_types_of_mem_foldl {c : Catalog} (hc : c.Coherent) {changes : List Change} {t : NodeType}
    (ht : t ∈ (changes.foldl apply c).types) (hbrings : ∀ e ∈ changes, e.brings? ≠ some t) :
    t ∈ c.types ∧ ∀ e ∈ changes, lower t.key ≠ lower e.key := by
  induction changes generalizing c with
  | nil => exact ⟨ht, fun e he => absurd he List.not_mem_nil⟩
  | cons e rest ih =>
      rw [List.forall_mem_cons] at hbrings
      rw [List.foldl_cons] at ht
      obtain ⟨hmem, hrest⟩ := ih (hc.apply e) ht hbrings.2
      obtain ⟨hmem, hkey⟩ := (hc.mem_types_apply_iff.mp hmem).resolve_left hbrings.1
      exact ⟨hmem, List.forall_mem_cons.mpr ⟨hkey, hrest⟩⟩

/-- The name of a type that is there is vacated exactly if the type is stranded. -/
theorem vacated_iff_stranded {changes : List Change} {t : NodeType} (ht : t ∈ (run changes).types) :
    Vacated changes (lower t.name) ↔ Stranded changes t := by
  constructor
  · rintro ⟨before, e, after, rfl, ⟨u, hu, hname⟩, hbrings⟩
    have hnot : ∀ e' ∈ e :: after, e'.brings? ≠ some t := fun e' he' h => hbrings e' he' ⟨t, h, rfl⟩
    rw [run, List.foldl_append] at ht
    obtain ⟨hmem, hkeys⟩ := mem_types_of_mem_foldl (coherent_run before) ht hnot
    have hkey : lower e.key = lower u.key := (coherent_run before).keyed hu
    exact ⟨before, e, after, u, rfl, hmem, hu, fun heq => hkeys e List.mem_cons_self (heq ▸ hkey).symm,
      hname, hbrings⟩
  · rintro ⟨before, e, after, u, heq, -, hu, -, hname, hbrings⟩
    exact ⟨before, e, after, heq, ⟨u, hu, hname⟩, hbrings⟩

/-- A type that is there was brought. -/
theorem exists_brings_of_mem_types {changes : List Change} {t : NodeType} (ht : t ∈ (run changes).types) :
    ∃ e ∈ changes, e.brings? = some t := by
  by_contra hnone
  have hmem := (mem_types_of_mem_foldl coherent_empty ht fun e he h => hnone ⟨e, he, h⟩).1
  cases hmem

/-- The types of a history have no blanks around their keys and names. -/
def Trimmed (changes : List Change) : Prop :=
  ∀ e ∈ changes, ∀ t ∈ e.brings?, trim t.key = t.key ∧ trim t.name = t.name

instance (changes : List Change) : Decidable (Trimmed changes) :=
  inferInstanceAs (Decidable (∀ e ∈ changes, ∀ t ∈ e.brings?, trim t.key = t.key ∧ trim t.name = t.name))

/-- Where types under different keys have different names, every type is found by its name. -/
theorem findName?_ne_none {changes : List Change} (htrimmed : Trimmed changes)
    (hnames : ∀ e ∈ changes, ∀ e' ∈ changes, ∀ t u, e.brings? = some t → e'.brings? = some u →
      lower t.name = lower u.name → lower t.key = lower u.key)
    {t : NodeType} (ht : t ∈ (run changes).types) : (run changes).findName? t.name ≠ none := by
  obtain ⟨e, he, hbrings⟩ := exists_brings_of_mem_types ht
  rw [findName?, (htrimmed e he t hbrings).2]
  intro hnone
  rcases (lookup_byName_run_eq_none_iff changes _).mp hnone with hvacated | hnever
  · obtain ⟨before, e', after, u, rfl, -, hu, hkey, hname, -⟩ := (vacated_iff_stranded ht).mp hvacated
    have hmem : u ∈ (run before).types :=
      (coherent_run before).mem_types_iff.mpr ((coherent_run before).keyed hu ▸ hu)
    obtain ⟨e'', he'', hbrings'⟩ := exists_brings_of_mem_types hmem
    exact hkey (hnames e'' (List.mem_append_left _ he'') e he u t hbrings' hbrings hname)
  · exact hnever e he ⟨t, hbrings, rfl⟩

/-- After any history, every type is found by its key; what a name finds is there and has the name; and the
name of a type finds a type of that name, unless the name went with another type. -/
theorem run_coherent (changes : List Change) (htrimmed : Trimmed changes) :
    (∀ t ∈ (run changes).types, (run changes).findKey? t.key = some t) ∧
      (∀ name t, (run changes).findName? name = some t →
        t ∈ (run changes).types ∧ lower t.name = lower (trim name)) ∧
      ∀ t ∈ (run changes).types,
        (∃ u ∈ (run changes).types, (run changes).findName? t.name = some u ∧ lower u.name = lower t.name) ↔
          ¬ Stranded changes t := by
  have hc := coherent_run changes
  have hfound : ∀ name t, (run changes).findName? name = some t →
      t ∈ (run changes).types ∧ lower t.name = lower (trim name) := by
    intro name t h
    obtain ⟨hname, hkey⟩ := hc.named h
    exact ⟨hc.mem_types_iff.mpr hkey, hname.symm⟩
  have hblank : ∀ t ∈ (run changes).types, trim t.key = t.key ∧ trim t.name = t.name := by
    intro t ht
    obtain ⟨e, he, hbrings⟩ := exists_brings_of_mem_types ht
    exact htrimmed e he t hbrings
  refine ⟨fun t ht => ?_, hfound, fun t ht => ?_⟩
  · rw [findKey?, (hblank t ht).1]
    exact hc.mem_types_iff.mp ht
  · obtain ⟨e, he, hbrings⟩ := exists_brings_of_mem_types ht
    have hnone : (run changes).findName? t.name = none ↔ Stranded changes t := by
      rw [findName?, (hblank t ht).2, lookup_byName_run_eq_none_iff, ← vacated_iff_stranded ht,
        or_iff_left fun hnever => hnever e he ⟨t, hbrings, rfl⟩]
    rw [← hnone, ← ne_eq, Option.ne_none_iff_exists']
    constructor
    · exact fun ⟨u, _, hu, _⟩ => ⟨u, hu⟩
    · intro ⟨u, hu⟩
      obtain ⟨hmem, hname⟩ := hfound t.name u hu
      exact ⟨u, hmem, hu, by rw [hname, (hblank t ht).2]⟩

/-- Two types of one name, of which the first is taken out. -/
def twoAdditions : List Change :=
  [.register (plainType "g-1" "Add" "Uncategorized" [] []),
    .register (plainType "g-2" "Add" "Uncategorized" [] []), .unregister "g-1"]

theorem run_coherent_twoAdditions :
    Trimmed twoAdditions ∧
      (run twoAdditions).findKey? "g-2" = some (plainType "g-2" "Add" "Uncategorized" [] []) := by
  have htrimmed : Trimmed twoAdditions := by decide +kernel
  have hmem : plainType "g-2" "Add" "Uncategorized" [] [] ∈ (run twoAdditions).types := by decide +kernel
  exact ⟨htrimmed, (run_coherent twoAdditions htrimmed).1 (plainType "g-2" "Add" "Uncategorized" [] []) hmem⟩

/-- The type that stays has lost its name. -/
theorem not_found_twoAdditions :
    Trimmed twoAdditions ∧ (run twoAdditions).types = [plainType "g-2" "Add" "Uncategorized" [] []] ∧
      (run twoAdditions).findName? "Add" = none := by
  decide +kernel

end Patchbay.Catalog
