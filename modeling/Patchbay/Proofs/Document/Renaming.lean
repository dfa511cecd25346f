import Patchbay.Document.Repair
import Patchbay.Rebuild
import Patchbay.Proofs.IdSupply
import Patchbay.Proofs.Keyed

/-!
# Replaced ids

What repairing does to the ids of a document, and how it is undone for the caller.

* **`Renamer.components_settles`** — every component gets the id that the table of replacements has for
  it at the end, since a replacement never changes once it is made.
* `Renamer.components_sound` — where the supply is fresh, no two ids share a replacement.
* **`originalId_newId`** — the table can be read backwards on the ids of the document.  So replacing
  ids makes no two of them equal (`newId_injOn`).
* **`Rebuilt.restoreKeys_perm`** — what was found under the new ids is answered for under the
  old ones, each exactly once.
-/

namespace Patchbay

/-! ## Tables of replacements -/

/-- The id that a table has for an id. -/
def newId (renamed : Renaming) (id : String) : String := (renamed.lookup id).getD id

/-- Some of the ids in use are replaced, each by an id of its own that is not in use. -/
structure Renaming.Proper (used : List String) (renamed : Renaming) : Prop where
  olds : (renamed.map Prod.fst).Nodup
  news : (renamed.map Prod.snd).Nodup
  within : ∀ old ∈ renamed.map Prod.fst, old ∈ used
  fresh : ∀ new ∈ renamed.map Prod.snd, new ∉ used

/-- A table is read backwards from its beginning. -/
theorem Renaming.originalId_cons (old new : String) (rest : Renaming) (id : String) :
    originalId ((old, new) :: rest) id = if id = new then old else originalId rest id := by
  unfold originalId
  rw [List.find?_cons]
  by_cases hnew : id = new
  · simp [hnew]
  · have hbeq : (new == id) = false := beq_eq_false_iff_ne.mpr (Ne.symm hnew)
    simp [hnew, hbeq]

namespace Renaming.Proper

variable {used : List String} {renamed : Renaming}

/-- An id that replaces none stands for itself. -/
theorem originalId_of_notMem {id : String} (h : id ∉ renamed.map Prod.snd) :
    originalId renamed id = id := by
  unfold originalId
  have hnone : renamed.find? (fun x => x.2 == id) = none := by
    rw [List.find?_eq_none]
    intro pair hpair heq
    exact h (List.mem_map.mpr ⟨pair, hpair, beq_iff_eq.mp heq⟩)
  rw [hnone]

/-- A table is read backwards on the ids in use. -/
theorem originalId_newId (h : renamed.Proper used) {id : String} (hid : id ∈ used) :
    originalId renamed (newId renamed id) = id := by
  unfold newId
  cases hlookup : renamed.lookup id with
  | none => exact originalId_of_notMem fun hmem => h.fresh id hmem hid
  | some new =>
      have hmem : (id, new) ∈ renamed := Keyed.mem_of_lookup_eq_some hlookup
      unfold originalId
      rw [Option.getD_some]
      cases hfind : renamed.find? (fun x => x.2 == new) with
      | none =>
          have hnone := List.find?_eq_none.mp hfind (id, new) hmem
          exact absurd (beq_self_eq_true new) hnone
      | some pair =>
          have hpair := List.mem_of_find?_eq_some hfind
          have hbeq := List.find?_some hfind
          have hnew : pair.2 = new := beq_iff_eq.mp hbeq
          have hsame := List.inj_on_of_nodup_map h.news hpair hmem hnew
          rw [hsame]

/-- Among the new ids there is none that is replaced. -/
theorem newId_notMem_olds (h : renamed.Proper used) (id : String) :
    newId renamed id ∉ renamed.map Prod.fst := by
  unfold newId
  cases hlookup : renamed.lookup id with
  | none => exact Keyed.lookup_eq_none_iff.mp hlookup
  | some new =>
      exact fun hold => h.fresh new (Keyed.mem_values_of_lookup hlookup) (h.within new hold)

theorem tail {pair : String × String} (h : Renaming.Proper used (pair :: renamed)) :
    renamed.Proper used where
  olds := (List.nodup_cons.mp h.olds).2
  news := (List.nodup_cons.mp h.news).2
  within := fun old hold => h.within old (List.mem_cons_of_mem _ hold)
  fresh := fun new hnew => h.fresh new (List.mem_cons_of_mem _ hnew)

theorem newId_injOn (h : renamed.Proper used) {id id' : String} (hid : id ∈ used)
    (hid' : id' ∈ used) (heq : newId renamed id = newId renamed id') : id = id' := by
  rw [← h.originalId_newId hid, heq, h.originalId_newId hid']

end Renaming.Proper

/-! ## The renamer -/

namespace Renamer

variable {used : List String} {r : Renamer}

/-- The table is proper, replaces no GUID, and the supply will not repeat what it gave out. -/
structure Sound (used : List String) (r : Renamer) : Prop where
  proper : r.renamed.Proper used
  strange : ∀ old ∈ r.renamed.map Prod.fst, isGuid old = false
  supply : r.ids.FreshFor (used ++ r.renamed.map Prod.snd)

theorem sound_nil {ids : IdSupply} (h : ids.FreshFor used) : Sound used ⟨[], ids⟩ where
  proper := ⟨List.nodup_nil, List.nodup_nil, (fun _ h => nomatch h), fun _ h => nomatch h⟩
  strange := fun _ h => nomatch h
  supply := by simpa using h

/-- No GUID is replaced. -/
def SparesGuids (r : Renamer) : Prop := ∀ old ∈ r.renamed.map Prod.fst, isGuid old = false

theorem SparesGuids.lookup_eq_none (h : r.SparesGuids) {id : String} (hguid : isGuid id = true) :
    r.renamed.lookup id = none := by
  refine Keyed.lookup_eq_none_iff.mpr fun hmem => ?_
  have hstrange := h id hmem
  rw [hguid] at hstrange
  cases hstrange

/-- The table says all that it will ever say about an id. -/
def Settles (r : Renamer) (id : String) : Prop := isGuid id = true ∨ ∃ new, r.renamed.lookup id = some new

theorem Settles.newId_eq {r' : Renamer} {id : String} (h : r.Settles id)
    (hgrows : r.renamed <+: r'.renamed) (hr : r.SparesGuids) (hr' : r'.SparesGuids) :
    newId r'.renamed id = newId r.renamed id := by
  unfold newId
  rcases h with hguid | ⟨new, hnew⟩
  · rw [hr.lookup_eq_none hguid, hr'.lookup_eq_none hguid]
  · obtain ⟨more, hmore⟩ := hgrows
    rw [← hmore, List.lookup_append, hnew]
    rfl

theorem Settles.mono {r' : Renamer} {id : String} (h : r.Settles id)
    (hgrows : r.renamed <+: r'.renamed) : r'.Settles id := by
  refine h.imp_right fun ⟨new, hnew⟩ => ⟨new, ?_⟩
  obtain ⟨more, hmore⟩ := hgrows
  rw [← hmore, List.lookup_append, hnew]
  rfl

/-- What becomes of an id: a GUID stays, and any other has its replacement in the table or gets the next
id for one. -/
theorem rename_cases (r : Renamer) (id : String) :
    isGuid id = true ∧ r.rename id = (id, r) ∨
      isGuid id = false ∧ (∃ new, r.renamed.lookup id = some new ∧ r.rename id = (new, r)) ∨
      isGuid id = false ∧ r.renamed.lookup id = none ∧
        r.rename id = (r.ids.next.1, ⟨r.renamed ++ [(id, r.ids.next.1)], r.ids.next.2⟩) := by
  unfold rename
  cases hguid : isGuid id with
  | true => exact .inl ⟨rfl, rfl⟩
  | false =>
      cases hlookup : r.renamed.lookup id with
      | some new => exact .inr (.inl ⟨rfl, new, rfl, rfl⟩)
      | none => exact .inr (.inr ⟨rfl, rfl, rfl⟩)

/-- One id: the table grows, and says from then on what was answered. -/
theorem rename_settles (h : r.SparesGuids) (id : String) :
    (r.rename id).2.SparesGuids ∧ r.renamed <+: (r.rename id).2.renamed ∧
      (r.rename id).2.Settles id ∧ newId (r.rename id).2.renamed id = (r.rename id).1 := by
  obtain ⟨hguid, hrename⟩ | ⟨-, new, hlookup, hrename⟩ | ⟨hguid, hlookup, hrename⟩ := rename_cases r id
  · rw [hrename]
    refine ⟨h, List.prefix_rfl, .inl hguid, ?_⟩
    rw [newId, h.lookup_eq_none hguid]
    rfl
  · rw [hrename]
    refine ⟨h, List.prefix_rfl, .inr ⟨new, hlookup⟩, ?_⟩
    rw [newId, hlookup]
    rfl
  · have hfound : (r.renamed ++ [(id, r.ids.next.1)]).lookup id = some r.ids.next.1 := by
      rw [List.lookup_append, hlookup]
      simp
    rw [hrename]
    refine ⟨fun old hmem => ?_, List.prefix_append _ _, .inr ⟨_, hfound⟩, ?_⟩
    · rw [List.map_append, List.mem_append] at hmem
      rcases hmem with hmem | hmem
      · exact h old hmem
      · rwa [List.mem_singleton.mp hmem]
    · rw [newId, hfound]
      rfl

theorem components_cons (r : Renamer) (c : Component) (rest : List Component) :
    r.components (c :: rest) =
      ({ c with id := (r.rename c.id).1 } :: ((r.rename c.id).2.components rest).1,
        ((r.rename c.id).2.components rest).2) := by
  rw [components]

/-- All components of a list: each gets what the table has for its id at the end, and the table says about
it all that there is to say. -/
theorem components_settles (h : r.SparesGuids) (cs : List Component) :
    (r.components cs).2.SparesGuids ∧ r.renamed <+: (r.components cs).2.renamed ∧
      (∀ c ∈ cs, (r.components cs).2.Settles c.id) ∧
      (r.components cs).1 = cs.map fun c => { c with id := newId (r.components cs).2.renamed c.id } := by
  induction cs generalizing r with
  | nil => exact ⟨h, List.prefix_rfl, (fun c hc => nomatch hc), rfl⟩
  | cons c rest ih =>
      obtain ⟨hspares, hgrows, hsettles, hanswer⟩ := rename_settles h c.id
      obtain ⟨hspares', hgrows', hsettled, hrest⟩ := ih hspares
      have hid : newId ((r.rename c.id).2.components rest).2.renamed c.id = (r.rename c.id).1 :=
        (hsettles.newId_eq hgrows' hspares hspares').trans hanswer
      rw [components_cons]
      refine ⟨hspares', hgrows.trans hgrows', List.forall_mem_cons.mpr ⟨hsettles.mono hgrows', hsettled⟩, ?_⟩
      rw [List.map_cons, hid, ← hrest]

/-- One id: the table stays sound. -/
theorem rename_sound (h : r.Sound used) {id : String} (hid : id ∈ used) : (r.rename id).2.Sound used := by
  have hspares := (rename_settles h.strange id).1
  obtain ⟨-, hrename⟩ | ⟨-, new, -, hrename⟩ | ⟨-, hlookup, hrename⟩ := rename_cases r id
  · rwa [hrename]
  · rwa [hrename]
  · have hnew := h.supply.next_notMem
    rw [List.mem_append, not_or] at hnew
    have hold : id ∉ r.renamed.map Prod.fst := Keyed.lookup_eq_none_iff.mp hlookup
    have hnext := h.supply.next
    rw [List.append_assoc] at hnext
    rw [hrename] at hspares ⊢
    refine ⟨⟨?_, ?_, ?_, ?_⟩, hspares, ?_⟩ <;> rw [List.map_append]
    case refine_1 => exact h.proper.olds.append (List.nodup_singleton _) (List.disjoint_singleton.mpr hold)
    case refine_2 => exact h.proper.news.append (List.nodup_singleton _) (List.disjoint_singleton.mpr hnew.2)
    case refine_3 => exact List.forall_mem_append.mpr ⟨h.proper.within, List.forall_mem_singleton.mpr hid⟩
    case refine_4 => exact List.forall_mem_append.mpr ⟨h.proper.fresh, List.forall_mem_singleton.mpr hnew.1⟩
    case refine_5 => exact hnext

/-- All components of a list: the table stays sound. -/
theorem components_sound {cs : List Component} (hcs : ∀ c ∈ cs, c.id ∈ used) (h : r.Sound used) :
    (r.components cs).2.Sound used := by
  induction cs generalizing r with
  | nil => exact h
  | cons c rest ih =>
      rw [List.forall_mem_cons] at hcs
      rw [components_cons]
      exact ih hcs.2 (rename_sound h hcs.1)

/-- No id is empty once it is settled. -/
theorem Settles.newId_ne_empty {id : String} (h : r.Settles id) (hproper : r.renamed.Proper used)
    (hempty : "" ∈ used) : newId r.renamed id ≠ "" := by
  intro heq
  unfold newId at heq
  cases hlookup : r.renamed.lookup id with
  | some new =>
      rw [hlookup] at heq
      change new = "" at heq
      exact hproper.fresh new (Keyed.mem_values_of_lookup hlookup) (heq ▸ hempty)
  | none =>
      rw [hlookup] at heq
      have hguid : isGuid id = false := by
        change id = "" at heq
        rw [heq]
        decide
      rcases h with h | ⟨new, hnew⟩
      · rw [hguid] at h
        cases h
      · rw [hlookup] at hnew
        cases hnew

end Renamer

/-! ## Answering under the old ids -/

namespace Rebuilt

/-- A pair with another name for a key. -/
def rekey {α : Type} (old new : String) (pair : String × α) : String × α :=
  (if pair.1 = old then new else pair.1, pair.2)

theorem map_rekey_of_notMem {α : Type} {pairs : List (String × α)} {old : String} (new : String)
    (h : old ∉ pairs.map Prod.fst) : pairs.map (rekey old new) = pairs := by
  have hsame : ∀ pair ∈ pairs, rekey old new pair = pair := by
    intro pair hpair
    have hne : pair.1 ≠ old := fun e => h (e ▸ List.mem_map_of_mem hpair)
    rw [rekey, if_neg hne]
  exact (List.map_congr_left hsame).trans (List.map_id _)

/-- Moving a key gives its pair another name and keeps all others. -/
theorem moveKey_perm {α : Type} {pairs : List (String × α)} {old new : String}
    (hnodup : (pairs.map Prod.fst).Nodup) (hnew : new ∉ pairs.map Prod.fst) :
    (moveKey pairs old new).Perm (pairs.map (rekey old new)) := by
  unfold moveKey
  cases hlookup : pairs.lookup old with
  | none =>
      rw [map_rekey_of_notMem new (Keyed.lookup_eq_none_iff.mp hlookup)]
  | some v =>
      obtain ⟨before, after, rfl⟩ := List.append_of_mem (Keyed.mem_of_lookup_eq_some hlookup)
      rw [List.map_append, List.map_cons, List.nodup_middle, List.nodup_cons, List.mem_append,
        not_or] at hnodup
      obtain ⟨⟨hbefore, hafter⟩, -⟩ := hnodup
      have hdropped : new ∉ (before ++ after).map Prod.fst := by
        intro hmem
        refine hnew ?_
        rw [List.map_append, List.mem_append] at hmem ⊢
        rcases hmem with hmem | hmem
        · exact Or.inl hmem
        · exact Or.inr (List.mem_cons_of_mem _ hmem)
      dsimp only
      rw [Keyed.drop_append_cons hbefore hafter, Keyed.put_of_notMem v hdropped, List.map_append,
        List.map_cons, map_rekey_of_notMem new hbefore, map_rekey_of_notMem new hafter, rekey,
        if_pos rfl, List.append_assoc]
      refine List.Perm.append_left before ?_
      exact List.perm_append_singleton (new, v) after

theorem map_fst_rekey {α : Type} (pairs : List (String × α)) (old new : String) :
    (pairs.map (rekey old new)).map Prod.fst = (pairs.map Prod.fst).map fun k => if k = old then new else k := by
  rw [List.map_map, List.map_map]
  rfl

/-- Keys stay different when one of them moves to a place that is free. -/
theorem nodup_map_rekey {α : Type} {pairs : List (String × α)} {old new : String}
    (hnodup : (pairs.map Prod.fst).Nodup) (hnew : new ∉ pairs.map Prod.fst) :
    ((pairs.map (rekey old new)).map Prod.fst).Nodup := by
  rw [map_fst_rekey]
  refine hnodup.map_on fun a ha b hb hab => ?_
  by_cases haold : a = old <;> by_cases hbold : b = old
  · rw [haold, hbold]
  · rw [if_pos haold, if_neg hbold] at hab
    exact absurd (hab ▸ hb) hnew
  · rw [if_neg haold, if_pos hbold] at hab
    exact absurd (hab ▸ ha) hnew
  · rwa [if_neg haold, if_neg hbold] at hab

/-- What is done to the values of pairs can be done before or after a key moves. -/
theorem moveKey_map {α β : Type} (f : α → β) (pairs : List (String × α)) (old new : String) :
    moveKey (pairs.map (Prod.map id f)) old new = (moveKey pairs old new).map (Prod.map id f) := by
  unfold moveKey
  rw [Keyed.lookup_map]
  cases pairs.lookup old with
  | none => rfl
  | some v =>
      rw [Option.map_some]
      dsimp only
      rw [Keyed.map_put, Keyed.map_drop]

/-- All replaced keys moved back. -/
def restoreKeys {α : Type} (pairs : List (String × α)) (renamed : Renaming) : List (String × α) :=
  renamed.foldl (fun pairs (original, replacement) => moveKey pairs replacement original) pairs

theorem restoreIds_eq (r : Rebuilt) (renamed : Renaming) :
    r.restoreIds renamed =
      { r with ids := restoreKeys r.ids renamed, nodes := restoreKeys r.nodes renamed } := by
  induction renamed generalizing r with
  | nil => rfl
  | cons pair rest ih => exact ih _

theorem restoreKeys_map {α β : Type} (f : α → β) (pairs : List (String × α)) (renamed : Renaming) :
    restoreKeys (pairs.map (Prod.map id f)) renamed =
      (restoreKeys pairs renamed).map (Prod.map id f) := by
  induction renamed generalizing pairs with
  | nil => rfl
  | cons pair rest ih =>
      change restoreKeys (moveKey (pairs.map (Prod.map id f)) pair.2 pair.1) rest = _
      rw [moveKey_map, ih]
      rfl

/-- Moving the keys back in turn is reading the table backwards for each of them.  The table is read
from its beginning on; what one replacement moved, no later one finds, since an id that was in use
replaces none. -/
theorem restoreKeys_perm {α : Type} {used : List String} {renamed : Renaming}
    (h : renamed.Proper used) {pairs : List (String × α)} (hnodup : (pairs.map Prod.fst).Nodup)
    (hkeys : ∀ old ∈ renamed.map Prod.fst, old ∉ pairs.map Prod.fst) :
    (restoreKeys pairs renamed).Perm
      (pairs.map fun pair => (originalId renamed pair.1, pair.2)) := by
  induction renamed generalizing pairs with
  | nil =>
      refine List.Perm.of_eq ?_
      exact (List.map_id pairs).symm
  | cons replaced rest ih =>
      obtain ⟨old, new⟩ := replaced
      have hold : old ∉ pairs.map Prod.fst := hkeys old (by simp)
      have hmoved : (moveKey pairs new old).Perm (pairs.map (rekey new old)) :=
        moveKey_perm hnodup hold
      -- the moved keys are distinct, and none of them is still to be replaced
      have hnodup' : ((moveKey pairs new old).map Prod.fst).Nodup :=
        (hmoved.map Prod.fst).nodup_iff.mpr (nodup_map_rekey hnodup hold)
      have hkeys' : ∀ old' ∈ rest.map Prod.fst, old' ∉ (moveKey pairs new old).map Prod.fst := by
        intro old' hold' hmem
        rw [(hmoved.map Prod.fst).mem_iff, map_fst_rekey] at hmem
        obtain ⟨k, hk, heq⟩ := List.mem_map.mp hmem
        split at heq
        · exact (List.nodup_cons.mp h.olds).1 (heq ▸ hold')
        · exact hkeys old' (List.mem_cons_of_mem _ hold') (heq ▸ hk)
      refine (ih h.tail hnodup' hkeys').trans ?_
      refine (hmoved.map _).trans (List.Perm.of_eq ?_)
      rw [List.map_map]
      refine List.map_congr_left fun pair _ => ?_
      have hoverwritten : originalId rest old = old :=
        Renaming.Proper.originalId_of_notMem fun hmem =>
          h.fresh old (List.mem_cons_of_mem _ hmem) (h.within old (by simp))
      rw [Renaming.originalId_cons, Function.comp_apply, rekey]
      split
      · rw [hoverwritten]
      · rfl

end Rebuilt

end Patchbay
