import Patchbay.Keyed
import Patchbay.Proofs.Distinct
import Mathlib.Data.List.Perm.Basic
import Mathlib.Data.List.Nodup

/-!
# Keyed lists as maps

* `Keyed.put_of_notMem`, `Keyed.map_put`, `Keyed.map_drop` — how putting and dropping go together
  with what else is done to a list
* `Keyed.lookup_put`, `Keyed.lookup_drop` — what is found afterwards; `Keyed.lookup_filter` says it of any keys that
  are kept, `Keyed.lookup_perm` of another order.
* `Keyed.mem_of_mem_ofList`, `Keyed.ofList_of_nodup` — what is read of a list is in it, and all of it if it has
  each key once
* **`Keyed.lookup_eq_some_iff`** — in a list that has each key once, looking up is membership
* `Keyed.filterMap_lookup` — the values in the order of their keys
-/

namespace Patchbay.Keyed

variable {κ α β : Type} [DecidableEq κ]

theorem put_of_notMem {pairs : List (κ × α)} {key : κ} (value : α)
    (h : key ∉ pairs.map Prod.fst) : put pairs key value = pairs ++ [(key, value)] := by
  induction pairs with
  | nil => rfl
  | cons head rest ih =>
      obtain ⟨k, v⟩ := head
      rw [List.map_cons, List.mem_cons, not_or] at h
      rw [put, if_neg (Ne.symm h.1), ih h.2]
      rfl

/-- Putting what is there already changes nothing. -/
theorem put_of_lookup_eq_some {pairs : List (κ × α)} {key : κ} {value : α}
    (h : pairs.lookup key = some value) : put pairs key value = pairs := by
  induction pairs with
  | nil => cases h
  | cons head rest ih =>
      obtain ⟨k, v⟩ := head
      rw [List.lookup_cons] at h
      rw [put]
      split at h
      · next hk =>
        cases h
        rw [if_pos (beq_iff_eq.mp hk).symm]
      · next hk => rw [if_neg (Ne.symm (by simpa using hk)), ih h]

theorem drop_of_notMem {pairs : List (κ × α)} {key : κ} (h : key ∉ pairs.map Prod.fst) :
    drop pairs key = pairs := by
  unfold drop
  rw [List.filter_eq_self]
  intro pair hpair
  refine bne_iff_ne.mpr ?_
  rintro rfl
  exact h (List.mem_map_of_mem hpair)

/-- Where a key stands once, dropping it takes out its pair. -/
theorem drop_append_cons {before after : List (κ × α)} {key : κ} {value : α}
    (hbefore : key ∉ before.map Prod.fst) (hafter : key ∉ after.map Prod.fst) :
    drop (before ++ (key, value) :: after) key = before ++ after := by
  have hcons : drop ((key, value) :: after) key = drop after key := by
    unfold drop
    rw [List.filter_cons_of_neg]
    simp
  have happend : drop (before ++ (key, value) :: after) key =
      drop before key ++ drop ((key, value) :: after) key := List.filter_append ..
  rw [happend, hcons, drop_of_notMem hbefore, drop_of_notMem hafter]

theorem lookup_put (pairs : List (κ × α)) (key : κ) (value : α) (other : κ) :
    (put pairs key value).lookup other = if other = key then some value else pairs.lookup other := by
  split
  · next h => rw [h, lookup_put_self]
  · next h => rw [lookup_put_of_ne pairs value h]

/-- What is found among the keys that are kept. -/
theorem lookup_filter (keep : κ → Bool) (pairs : List (κ × α)) (key : κ) :
    (pairs.filter fun pair => keep pair.1).lookup key = if keep key then pairs.lookup key else none := by
  induction pairs with
  | nil => simp
  | cons head rest ih =>
      obtain ⟨k, v⟩ := head
      rw [List.filter_cons, List.lookup_cons]
      by_cases hkey : key = k
      · subst hkey
        cases hkeep : keep key with
        | true => simp
        | false => simpa [hkeep] using ih
      · cases hkeep : keep k with
        | true => rw [if_pos rfl, List.lookup_cons, beq_eq_false_iff_ne.mpr hkey, ih]
        | false => rw [if_neg Bool.false_ne_true, beq_eq_false_iff_ne.mpr hkey, ih]

theorem lookup_drop (pairs : List (κ × α)) (key other : κ) :
    (drop pairs key).lookup other = if other = key then none else pairs.lookup other := by
  refine (lookup_filter (· != key) pairs other).trans ?_
  by_cases hother : other = key <;> simp [hother]

theorem nodup_keys_put {pairs : List (κ × α)} (h : (pairs.map Prod.fst).Nodup) (key : κ) (value : α) :
    ((put pairs key value).map Prod.fst).Nodup := by
  rw [keys_put]
  exact nodup_added h key

theorem nodup_keys_drop {pairs : List (κ × α)} (h : (pairs.map Prod.fst).Nodup) (key : κ) :
    ((drop pairs key).map Prod.fst).Nodup := h.sublist (List.filter_sublist.map Prod.fst)

theorem mem_keys_put {pairs : List (κ × α)} {key k : κ} (value : α) :
    k ∈ (put pairs key value).map Prod.fst ↔ k = key ∨ k ∈ pairs.map Prod.fst := by
  rw [keys_put]
  split
  · next hmem =>
    constructor
    · exact Or.inr
    · rintro (rfl | h)
      · exact hmem
      · exact h
  · rw [List.mem_append, List.mem_singleton]
    exact Or.comm

theorem mem_keys_ofList {pairs : List (κ × α)} {k : κ} :
    k ∈ (ofList pairs).map Prod.fst ↔ k ∈ pairs.map Prod.fst := by
  have hfold : ∀ found : List (κ × α),
      k ∈ (pairs.foldl (fun found pair => put found pair.1 pair.2) found).map Prod.fst ↔
        k ∈ found.map Prod.fst ∨ k ∈ pairs.map Prod.fst := by
    induction pairs with
    | nil => simp
    | cons head rest ih =>
        intro found
        obtain ⟨key, value⟩ := head
        rw [List.foldl_cons, ih, mem_keys_put, List.map_cons, List.mem_cons, or_assoc]
        exact or_left_comm
  refine (hfold []).trans ?_
  rw [List.map_nil]
  simp only [List.not_mem_nil, false_or]

theorem mem_of_mem_put {pairs : List (κ × α)} {key : κ} {value : α} {e : κ × α}
    (h : e ∈ put pairs key value) : e = (key, value) ∨ e ∈ pairs := by
  induction pairs with
  | nil => exact .inl (List.mem_singleton.mp h)
  | cons head rest ih =>
      obtain ⟨k, v⟩ := head
      rw [put] at h
      split at h
      · next hk =>
        rcases List.mem_cons.mp h with rfl | h
        · exact .inl (by rw [hk])
        · exact .inr (List.mem_cons_of_mem _ h)
      · rcases List.mem_cons.mp h with rfl | h
        · exact .inr List.mem_cons_self
        · exact (ih h).imp_right (List.mem_cons_of_mem _)

/-- What is read of a list is in it. -/
theorem mem_of_mem_ofList {pairs : List (κ × α)} {e : κ × α}
    (h : e ∈ ofList pairs) : e ∈ pairs := by
  have hfold : ∀ found : List (κ × α),
      e ∈ pairs.foldl (fun found pair => put found pair.1 pair.2) found → e ∈ found ∨ e ∈ pairs := by
    clear h
    induction pairs with
    | nil => exact fun found h => .inl h
    | cons pair rest ih =>
        intro found h
        rcases ih _ h with hfound | hrest
        · rcases mem_of_mem_put hfound with rfl | hfound
          · exact .inr List.mem_cons_self
          · exact .inl hfound
        · exact .inr (List.mem_cons_of_mem _ hrest)
  exact (hfold [] h).resolve_left List.not_mem_nil

/-- Pairs that have each key once are read as they are. -/
theorem ofList_of_nodup {pairs : List (κ × α)} (h : (pairs.map Prod.fst).Nodup) :
    ofList pairs = pairs := by
  have hfold : ∀ found : List (κ × α), ((found ++ pairs).map Prod.fst).Nodup →
      pairs.foldl (fun found pair => put found pair.1 pair.2) found = found ++ pairs := by
    clear h
    induction pairs with
    | nil => simp
    | cons head rest ih =>
        intro found hnodup
        obtain ⟨key, value⟩ := head
        have hnew : key ∉ found.map Prod.fst := by
          rw [List.map_append, List.map_cons] at hnodup
          exact fun hmem => (List.nodup_append.mp hnodup).2.2 key hmem key List.mem_cons_self rfl
        have happend : found ++ (key, value) :: rest = (found ++ [(key, value)]) ++ rest := by simp
        rw [List.foldl_cons, put_of_notMem value hnew, happend]
        exact ih _ (happend ▸ hnodup)
  exact hfold [] (by simpa using h)

theorem map_put (f : α → β) (pairs : List (κ × α)) (key : κ) (value : α) :
    (put pairs key value).map (Prod.map id f) = put (pairs.map (Prod.map id f)) key (f value) := by
  induction pairs with
  | nil => rfl
  | cons head rest ih =>
      obtain ⟨k, v⟩ := head
      rw [put]
      split
      · next hk => simp [put, hk]
      · next hk => simp [put, hk, ih]

theorem map_drop (f : α → β) (pairs : List (κ × α)) (key : κ) :
    (drop pairs key).map (Prod.map id f) = drop (pairs.map (Prod.map id f)) key := by
  unfold drop
  rw [List.filter_map]
  rfl

theorem lookup_map (f : α → β) (pairs : List (κ × α)) (key : κ) :
    (pairs.map (Prod.map id f)).lookup key = (pairs.lookup key).map f := by
  induction pairs with
  | nil => rfl
  | cons head rest ih =>
      obtain ⟨k, v⟩ := head
      simp only [List.map_cons, Prod.map, List.lookup_cons, id]
      split
      · rfl
      · exact ih

theorem mem_of_lookup_eq_some {pairs : List (κ × α)} {key : κ} {value : α}
    (h : pairs.lookup key = some value) : (key, value) ∈ pairs := by
  induction pairs with
  | nil => cases h
  | cons head rest ih =>
      obtain ⟨k, v⟩ := head
      rw [List.lookup_cons] at h
      split at h
      · next hk =>
        cases h
        rw [beq_iff_eq.mp hk]
        exact List.mem_cons_self
      · exact List.mem_cons_of_mem _ (ih h)

/-- A key that is found is a key of the list. -/
theorem mem_keys_of_lookup {pairs : List (κ × α)} {key : κ} {value : α}
    (h : pairs.lookup key = some value) : key ∈ pairs.map Prod.fst :=
  List.mem_map.mpr ⟨_, mem_of_lookup_eq_some h, rfl⟩

/-- What is found is a value of the list. -/
theorem mem_values_of_lookup {pairs : List (κ × α)} {key : κ} {value : α}
    (h : pairs.lookup key = some value) : value ∈ pairs.map Prod.snd :=
  List.mem_map.mpr ⟨_, mem_of_lookup_eq_some h, rfl⟩

theorem lookup_eq_none_iff {pairs : List (κ × α)} {key : κ} :
    pairs.lookup key = none ↔ key ∉ pairs.map Prod.fst := by
  rw [List.lookup_eq_none_iff, List.mem_map, not_exists]
  constructor
  · intro h pair ⟨hpair, hkey⟩
    exact bne_iff_ne.mp (h pair hpair) hkey.symm
  · intro h pair hpair
    exact bne_iff_ne.mpr fun hkey => h pair ⟨hpair, hkey.symm⟩

theorem exists_lookup_eq_some {pairs : List (κ × α)} {key : κ} (h : key ∈ pairs.map Prod.fst) :
    ∃ value, pairs.lookup key = some value := by
  cases hlookup : pairs.lookup key with
  | none => exact absurd h (lookup_eq_none_iff.mp hlookup)
  | some value => exact ⟨value, rfl⟩

/-- Where each key stands once, looking it up is finding its pair. -/
theorem lookup_eq_some_iff {pairs : List (κ × α)} (hnodup : (pairs.map Prod.fst).Nodup) {key : κ}
    {value : α} : pairs.lookup key = some value ↔ (key, value) ∈ pairs := by
  refine ⟨mem_of_lookup_eq_some, fun hmem => ?_⟩
  induction pairs with
  | nil => cases hmem
  | cons head rest ih =>
      obtain ⟨k, v⟩ := head
      rw [List.map_cons, List.nodup_cons] at hnodup
      rw [List.lookup_cons]
      rcases List.mem_cons.mp hmem with heq | hrest
      · cases heq
        rw [beq_self_eq_true]
      · have hne : key ≠ k := by
          rintro rfl
          exact hnodup.1 (List.mem_map.mpr ⟨_, hrest, rfl⟩)
        rw [beq_eq_false_iff_ne.mpr hne]
        exact ih hnodup.2 hrest

/-- The order of the pairs does not matter. -/
theorem lookup_perm {pairs pairs' : List (κ × α)} (hnodup : (pairs.map Prod.fst).Nodup) (h : pairs'.Perm pairs)
    (key : κ) : pairs'.lookup key = pairs.lookup key := by
  have hnodup' : (pairs'.map Prod.fst).Nodup := (h.map Prod.fst).nodup_iff.mpr hnodup
  refine Option.ext fun value => ?_
  rw [lookup_eq_some_iff hnodup, lookup_eq_some_iff hnodup']
  exact h.mem_iff

/-- The values of keys that stand in the order of a longer list. -/
theorem filterMap_lookup {keys : List κ} {pairs : List (κ × α)} (hkeys : keys.Nodup)
    (h : (pairs.map Prod.fst).Sublist keys) : keys.filterMap (pairs.lookup ·) = pairs.map Prod.snd := by
  induction keys generalizing pairs with
  | nil =>
      rw [List.sublist_nil, List.map_eq_nil_iff] at h
      rw [h]
      rfl
  | cons key rest ih =>
      rw [List.nodup_cons] at hkeys
      cases pairs with
      | nil => simp
      | cons head pairs =>
          obtain ⟨k, v⟩ := head
          rw [List.map_cons] at h
          cases h with
          | cons _ hrest =>
              -- the key is not among the pairs
              have hnone : ((k, v) :: pairs).lookup key = none :=
                lookup_eq_none_iff.mpr fun hmem => hkeys.1 (hrest.subset hmem)
              rw [List.filterMap_cons, hnone]
              exact ih hkeys.2 hrest
          | cons_cons _ hrest =>
              have hsome : ((k, v) :: pairs).lookup k = some v := by
                rw [List.lookup_cons, beq_self_eq_true]
              rw [List.filterMap_cons, hsome, List.map_cons]
              rw [← ih hkeys.2 hrest]
              change v :: _ = v :: _
              congr 1
              refine List.filterMap_congr fun other hother => ?_
              have hne : other ≠ k := by
                rintro rfl
                exact hkeys.1 hother
              rw [List.lookup_cons, beq_eq_false_iff_ne.mpr hne]

/-- Where keys are different, each is found with what was found for it. -/
theorem lookup_filterMap {ι : Type} {items : List ι} {key : ι → κ} (f : ι → Option α)
    (hkeys : (items.map key).Nodup) {i : ι} (hi : i ∈ items) :
    (items.filterMap fun j => (f j).map (key j, ·)).lookup (key i) = f i := by
  induction items with
  | nil => cases hi
  | cons j rest ih =>
      rw [List.map_cons, List.nodup_cons] at hkeys
      have hnot : (rest.filterMap fun j => (f j).map (key j, ·)).lookup (key j) = none := by
        refine lookup_eq_none_iff.mpr fun hmem => hkeys.1 ?_
        obtain ⟨pair, hpair, hkey⟩ := List.mem_map.mp hmem
        obtain ⟨j', hj', hsome⟩ := List.mem_filterMap.mp hpair
        obtain ⟨v, -, rfl⟩ := Option.map_eq_some_iff.mp hsome
        exact List.mem_map.mpr ⟨j', hj', hkey⟩
      rcases List.mem_cons.mp hi with rfl | hi
      · cases hf : f i with
        | none => simpa [hf] using hnot
        | some v => simp [hf]
      · have hne : key i ≠ key j := fun heq => hkeys.1 (heq ▸ List.mem_map_of_mem hi)
        rw [← ih hkeys.2 hi]
        cases hf : f j with
        | none => simp [hf]
        | some v => simp [hf, List.lookup_cons, beq_eq_false_iff_ne.mpr hne]

end Patchbay.Keyed
