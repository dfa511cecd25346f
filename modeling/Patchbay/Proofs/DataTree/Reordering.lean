import Patchbay.Proofs.DataTree.Lossless

/-!
# Data trees from objects in another order

The keys of an object have no order, and a text may list them in any.  A data tree that is read from such
an object has its branches at their paths, since the key of a branch tells its path.  **The key of an item
tells its index, and reading does not look at it**: items come in the order in which they are listed.

* `Reordered` — the object of a tree with the keys of the branches, and in each branch those of the items,
  in another order
* `Rearranged` — a tree with the items of another one as an object lists them
* **`expand_reordered`** — the result: what is read from a reordered object is the rearranged tree, and
  the tree itself if the branches alone are in another order.
-/

namespace Patchbay.DataTree

/-! ## Objects in another order -/

/-- The same entry, with the keys of its object in another order. -/
structure ReorderedEntry (entry' entry : String × Value) : Prop where
  key : entry'.1 = entry.1
  records : ∃ records' records : Entries, entry'.2 = .object records' ∧ entry.2 = .object records ∧
    records'.Perm records

/-- The same entries in another order, with the keys of their objects in another order. -/
def Reordered (entries' entries : Entries) : Prop :=
  ∃ between : Entries, entries'.Perm between ∧ List.Forall₂ ReorderedEntry between entries

/-- An entry has the items of a branch in the order `places`, each with the index that its key tells. -/
structure ListsAs (entry : String × Value) (b : Path × List Value) (places : List (Value × Nat)) : Prop where
  key : entry.1 = pathText b.1
  records : ∃ records : Entries, entry.2 = .object records ∧
    records.map Prod.fst = places.map fun place => itemKey (pathText b.1) place.2
  all : places.Perm b.2.zipIdx

/-- A tree has the paths of another one, and at each of them its items in the order in which an object lists
their keys. -/
structure Rearranged (entries : Entries) (arranged branches : Branches) : Prop where
  paths : (arranged.map Prod.fst).Perm (branches.map Prod.fst)
  items : ∀ b ∈ branches, ∃ entry ∈ entries, ∃ places, ListsAs entry b places ∧
    (b.1, places.map Prod.fst) ∈ arranged

/-! ## Reading them -/

/-- An entry lists the items of a branch in some order, and its records are read as these items. -/
def Lists (R : Value → Value → Prop) (entry : String × Value) (b : Path × List Value) : Prop :=
  ∃ places, ListsAs entry b places ∧ Holds R entry (b.1, places.map Prod.fst)

theorem map_itemKey_of_records {R : Value → Value → Prop} {key : String} {records : Entries}
    {places : List (Value × Nat)} (h : List.Forall₂ (Records R key) records places) :
    records.map Prod.fst = places.map fun place => itemKey key place.2 := by
  induction h with
  | nil => rfl
  | cons hrecord _ ih => rw [List.map_cons, List.map_cons, hrecord.key, ih]

/-- A stored branch with its keys in another order. -/
theorem Stores.lists {R : Value → Value → Prop} {entry' entry : String × Value} {b : Path × List Value}
    (h : Stores R entry b) (hreordered : ReorderedEntry entry' entry) : Lists R entry' b := by
  obtain ⟨hkey, records, hrecords, hstored⟩ := h
  obtain ⟨hkey', records', others, hrecords', hothers, hperm⟩ := hreordered
  obtain rfl : others = records := Value.object.inj (hothers.symm.trans hrecords)
  obtain ⟨places, hplaces, hall⟩ := List.perm_comp_forall₂ hperm hstored
  refine ⟨places, ⟨hkey'.trans hkey, ⟨records', hrecords', map_itemKey_of_records hplaces⟩, hall⟩,
    hkey'.trans hkey, records', hrecords', ?_⟩
  rw [List.forall₂_map_right_iff]
  exact hplaces.imp fun _ _ hrecord => hrecord.item

/-- Reordered entries list the branches of a tree, in some order. -/
theorem Reordered.exists_lists {R : Value → Value → Prop} {entries' entries : Entries} {branches : Branches}
    (h : Reordered entries' entries) (hstored : List.Forall₂ (Stores R) entries branches) :
    ∃ ordered : Branches, List.Forall₂ (Lists R) entries' ordered ∧ ordered.Perm branches := by
  obtain ⟨between, hperm, hbetween⟩ := h
  have hlists : List.Forall₂ (Lists R) between branches := by
    clear hperm
    induction hbetween generalizing branches with
    | nil =>
        cases hstored
        exact .nil
    | cons hentry _ ih =>
        cases hstored with
        | cons hfirst hrest => exact .cons (hfirst.lists hentry) (ih hrest)
  exact List.perm_comp_forall₂ hperm hlists

/-- The tree that listed branches make. -/
theorem exists_rearranged {R : Value → Value → Prop} {entries : Entries} {ordered : Branches}
    (h : List.Forall₂ (Lists R) entries ordered) :
    ∃ arranged : Branches, List.Forall₂ (Holds R) entries arranged ∧
      arranged.map Prod.fst = ordered.map Prod.fst ∧ Rearranged entries arranged ordered := by
  induction h with
  | nil => exact ⟨[], .nil, rfl, .refl _, fun b hb => nomatch hb⟩
  | @cons entry b entries ordered hentry _ ih =>
      obtain ⟨places, hlists, hholds⟩ := hentry
      obtain ⟨arranged, hrest, hpaths, -, hitems⟩ := ih
      have hpaths' : ((b.1, places.map Prod.fst) :: arranged).map Prod.fst = (b :: ordered).map Prod.fst := by
        rw [List.map_cons, List.map_cons, hpaths]
      refine ⟨_, .cons hholds hrest, hpaths', .of_eq hpaths', fun c hc => ?_⟩
      rcases List.mem_cons.mp hc with rfl | hc
      · exact ⟨entry, List.mem_cons_self, places, hlists, List.mem_cons_self⟩
      · obtain ⟨other, hother, places', hlists', hmem⟩ := hitems c hc
        exact ⟨other, List.mem_cons_of_mem _ hother, places', hlists', List.mem_cons_of_mem _ hmem⟩

theorem Rearranged.of_perm {entries : Entries} {arranged ordered branches : Branches}
    (h : Rearranged entries arranged ordered) (hperm : ordered.Perm branches) :
    Rearranged entries arranged branches where
  paths := h.paths.trans (hperm.map Prod.fst)
  items := fun b hb => h.items b (hperm.mem_iff.mpr hb)

/-- Rearranged items are equal to themselves if they were. -/
theorem Rearranged.definite {entries : Entries} {arranged branches : Branches}
    (h : Rearranged entries arranged branches) (hpaths : (branches.map Prod.fst).Nodup)
    (hdefinite : Definite branches) : Definite arranged := by
  intro c hc v hv
  obtain ⟨b, hb, hpath⟩ := List.mem_map.mp (h.paths.mem_iff.mp (List.mem_map_of_mem hc))
  obtain ⟨_, _, places, hlists, hmem⟩ := h.items b hb
  obtain rfl : c = (b.1, places.map Prod.fst) :=
    List.inj_on_of_nodup_map (h.paths.nodup_iff.mpr hpaths) hc hmem hpath.symm
  obtain ⟨place, hplace, rfl⟩ := List.mem_map.mp hv
  refine hdefinite b hb place.1 ?_
  rw [← List.zipIdx_map_fst 0 b.2]
  exact List.mem_map_of_mem (hlists.all.mem_iff.mp hplace)

/-- **A data tree that is read from its object in another order** is the tree with the items of each branch
as the object lists them, and the tree itself if the branches alone are in another order. -/
theorem expand_reordered {branches : Branches} (hpaths : (branches.map Prod.fst).Nodup)
    (hitems : ∀ b ∈ branches, ∀ v ∈ b.2, Storable v) (hshort : Short branches) :
    ∃ entries : Entries, (flatten branches).outcome.value = .ok (.object entries) ∧
      ∀ entries', Reordered entries' entries → ∃ read arranged,
        (expand (.object entries')).outcome.value = .ok read ∧ Rearranged entries' arranged branches ∧
        Recovers read arranged ∧ (Definite branches → (Value.tree read).sameAs (.tree arranged) = true) ∧
        (entries'.Perm entries → Recovers read branches ∧
          (Definite branches → (Value.tree read).sameAs (.tree branches) = true)) := by
  obtain ⟨entries, hflatten, hstored⟩ := flatten_stores (fun b hb => (hshort b hb).1) fun b hb v hv =>
    ((hitems b hb v hv).encodable ((hshort b hb).2 v hv)).kept
  refine ⟨entries, hflatten, fun entries' hreordered => ?_⟩
  have hread : ∀ {ordered : Branches}, List.Forall₂ (Holds Kept) entries' ordered →
      (ordered.map Prod.fst).Perm (branches.map Prod.fst) →
      ∃ read, (expand (.object entries')).outcome.value = .ok read ∧
        List.Forall₂ (Matching Kept) read ordered := by
    intro ordered hholds hperm
    refine expand_of_holds hholds (hperm.nodup_iff.mpr hpaths) fun b hb => ?_
    obtain ⟨c, hc, hpath⟩ := List.mem_map.mp (hperm.mem_iff.mp (List.mem_map_of_mem hb))
    exact hpath ▸ (hshort c hc).1
  obtain ⟨ordered, hlists, hperm⟩ := hreordered.exists_lists hstored
  obtain ⟨arranged, hholds, hsame, hrearranged⟩ := exists_rearranged hlists
  have hrearranged := hrearranged.of_perm (hperm.trans (sorted_perm branches))
  obtain ⟨read, hexpand, hmatching⟩ := hread hholds hrearranged.paths
  have harranged := hrearranged.paths.nodup_iff.mpr hpaths
  have hrecovers := recovers_of_matching harranged (.refl _) hmatching
  refine ⟨read, arranged, hexpand, hrearranged, hrecovers,
    fun hdefinite => hrecovers.sameAs harranged (hrearranged.definite hpaths hdefinite), fun houter => ?_⟩
  -- the entries themselves are in another order, and each is as it was stored
  obtain ⟨ordered, hordered, hperm⟩ := List.perm_comp_forall₂ houter hstored
  have hperm := hperm.trans (sorted_perm branches)
  obtain ⟨read', hexpand', hmatching'⟩ := hread (hordered.imp fun _ _ => Stores.holds) (hperm.map Prod.fst)
  obtain rfl : read = read' := Except.ok.inj (hexpand.symm.trans hexpand')
  have hrecovers := recovers_of_matching hpaths hperm hmatching'
  exact ⟨hrecovers, hrecovers.sameAs hpaths⟩

/-- Two switches at one path, and a text at another. -/
def switches : Branches := [([0], [.bool true, .bool false]), ([1], [.str "a"])]

theorem switches_regular : (switches.map Prod.fst).Nodup ∧ (∀ b ∈ switches, ∀ v ∈ b.2, Storable v) ∧
    Short switches ∧ Definite switches := by
  refine ⟨by decide, ?_, ?_, ?_⟩ <;>
    simp only [Short, Definite, switches, List.forall_mem_cons, List.not_mem_nil, IsEmpty.forall_iff, implies_true,
      and_true]
  · exact ⟨⟨.inl (.token (.boolean _) trivial), .inl (.token (.boolean _) trivial)⟩, .inl (.token (.text _) trivial)⟩
  · exact ⟨⟨by decide, trivial, trivial⟩, by decide, trivial⟩
  · exact ⟨⟨.inl (.boolean _), .inl (.boolean _)⟩, .inl (.text _)⟩

/-- The record of the switch that is on. -/
def firstSwitch : String × Value := ("\x7b0\x7d(0)", itemRecord "Boolean" (.str "boolean:true"))

/-- The record of the switch that is off. -/
def secondSwitch : String × Value := ("\x7b0\x7d(1)", itemRecord "Boolean" (.str "boolean:false"))

/-- The branch of the text. -/
def textBranch : String × Value := ("\x7b1\x7d", .object [("\x7b1\x7d(0)", itemRecord "Text" (.str "text:a"))])

theorem flatten_switches : (flatten switches).outcome.value =
    .ok (.object [("\x7b0\x7d", .object [firstSwitch, secondSwitch]), textBranch]) := by
  have hsorted : sorted switches = switches := List.mergeSort_of_pairwise (by decide)
  rw [outcome_flatten, hsorted]
  rfl

/-- The object of the switches, the other way round. -/
def exchangedSwitches : Entries := [textBranch, ("\x7b0\x7d", .object [secondSwitch, firstSwitch])]

theorem reordered_exchangedSwitches :
    Reordered exchangedSwitches [("\x7b0\x7d", .object [firstSwitch, secondSwitch]), textBranch] :=
  ⟨_, .swap _ _ _, .cons ⟨rfl, _, _, rfl, rfl, .swap _ _ _⟩ (.cons ⟨rfl, _, _, rfl, rfl, .refl _⟩ .nil)⟩

theorem expand_reordered_switches :
    ((switches.map Prod.fst).Nodup ∧ (∀ b ∈ switches, ∀ v ∈ b.2, Storable v) ∧ Short switches) ∧
      ∃ read arranged, (expand (.object exchangedSwitches)).outcome.value = .ok read ∧
        Rearranged exchangedSwitches arranged switches ∧ Recovers read arranged := by
  obtain ⟨hpaths, hitems, hshort, -⟩ := switches_regular
  obtain ⟨entries, hflatten, hexpand⟩ := expand_reordered hpaths hitems hshort
  obtain rfl := Value.object.inj (Except.ok.inj (flatten_switches.symm.trans hflatten))
  obtain ⟨read, arranged, hread, hrearranged, hrecovers, -⟩ := hexpand _ reordered_exchangedSwitches
  exact ⟨⟨hpaths, hitems, hshort⟩, read, arranged, hread, hrearranged, hrecovers⟩

/-- Two items of one branch change places with their keys. -/
theorem switches_exchanged :
    (switches.map Prod.fst).Nodup ∧ (∀ b ∈ switches, ∀ v ∈ b.2, Storable v) ∧ Short switches ∧ Definite switches ∧
      ∃ entries, (flatten switches).outcome.value = .ok (.object entries) ∧ Reordered exchangedSwitches entries ∧
        ∃ read, (expand (.object exchangedSwitches)).outcome.value = .ok read ∧
          (Value.tree read).sameAs (.tree switches) = false := by
  obtain ⟨hpaths, hitems, hshort, hdefinite⟩ := switches_regular
  have hdiffers : (Value.tree [([1], [.str "a"]), ([0], [.bool false, .bool true])]).sameAs (.tree switches) =
      false := by decide +kernel
  exact ⟨hpaths, hitems, hshort, hdefinite, _, flatten_switches, reordered_exchangedSwitches, _, rfl, hdiffers⟩

end Patchbay.DataTree
