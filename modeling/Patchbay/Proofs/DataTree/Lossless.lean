import Patchbay.Proofs.DataTree.RoundTrip
import Patchbay.Proofs.Keyed

/-!
# Data trees lose nothing

A data tree that was written as an object is read from it as the same tree, with every item at its path and
its index.

* `Value.FiniteJson` — what JSON texts write, without the words for numbers that are none.
  **`Value.FiniteJson.sameAs_self`**: these are equal to themselves.
* `Kept` — an item as it comes back: containers as they are, everything else up to equality
* `Recovers` — a tree with the same paths and with all items at their places, kept
* `Short` — a tree all of whose integers have texts.  An integer of too many digits has none, and
  `flatten_tooLong` says that a tree with one, in a path or as an item, is refused as a whole.
* **`flatten_lossless`** — the result
-/

namespace Patchbay

/-! ## JSON values -/

namespace Value

mutual

/-- What a JSON text writes: null, truth values, finite numbers, texts, arrays, and objects with each key
once. -/
def FiniteJson : Value → Prop
  | null | bool _ | int _ | str _ => True
  | float x => Double.isFinite x
  | list items => AllFiniteJson items
  | object entries => (entries.map Prod.fst).Nodup ∧ EntriesFiniteJson entries
  | _ => False

/-- `FiniteJson` of every item. -/
def AllFiniteJson : List Value → Prop
  | [] => True
  | v :: rest => FiniteJson v ∧ AllFiniteJson rest

/-- `FiniteJson` of the value of every entry. -/
def EntriesFiniteJson : List (String × Value) → Prop
  | [] => True
  | (_, v) :: rest => FiniteJson v ∧ EntriesFiniteJson rest

end

mutual

/-- **A JSON value of finite numbers is equal to itself.** -/
theorem FiniteJson.sameAs_self : ∀ v : Value, v.FiniteJson → v.sameAs v = true
  | null, _ => by simp [sameAs, sameLeaf]
  | bool b, _ => sameAs_bool b
  | int i, _ => sameAs_int i
  | float _, h => sameAs_float (.refl _) h
  | str s, _ => by simp
  | list items, h => by
    rw [sameAs]
    exact AllFiniteJson.sameItems_self items h
  | object entries, h => by
    rw [sameAs, beq_self_eq_true, Bool.true_and]
    exact EntriesFiniteJson.sameEntries_self entries entries h.2 fun entry hentry =>
      (Keyed.lookup_eq_some_iff h.1).mpr hentry

theorem AllFiniteJson.sameItems_self : ∀ items : List Value, AllFiniteJson items → sameItems items items = true
  | [], _ => by rw [sameItems]
  | v :: rest, h => by
    rw [sameItems, FiniteJson.sameAs_self v h.1, AllFiniteJson.sameItems_self rest h.2]
    rfl

theorem EntriesFiniteJson.sameEntries_self : ∀ entries others : List (String × Value),
    EntriesFiniteJson entries → (∀ entry ∈ entries, others.lookup entry.1 = some entry.2) →
      sameEntries entries others = true
  | [], _, _, _ => by rw [sameEntries]
  | (key, v) :: rest, others, h, hlookup => by
    rw [sameEntries, hlookup (key, v) List.mem_cons_self]
    dsimp only
    rw [FiniteJson.sameAs_self v h.1, EntriesFiniteJson.sameEntries_self rest others h.2 fun entry hentry =>
      hlookup entry (List.mem_cons_of_mem _ hentry)]
    rfl

end

end Value

namespace DataTree

/-! ## Items -/

/-- An item as it comes back: a container as it is, everything else up to equality. -/
def Kept (w v : Value) : Prop :=
  match v with
  | .list _ | .object _ | .tree _ => w = v
  | _ => w.sameAs v = true

theorem Encodable.kept {v : Value} (h : Encodable v) : Returns Kept v := by
  cases h with
  | null => exact ⟨.null, _, rfl, rfl, by simp [Kept, Value.sameAs, Value.sameLeaf]⟩
  | token hv hwritable =>
      obtain ⟨c, token, w, hc, hserialize, -, -, hread, hsame⟩ := Registry.keeps_of_tokenizable hv hwritable
      have htoken : c.serialize v = .ok token := by
        rwa [Registry.serialize, hc] at hserialize
      refine ⟨w, itemRecord c.typeName (.str token),
        encodeItem_of_serialize (ne_null_of_forValue? hc) hc htoken, ?_, ?_⟩
      · change (Registry.builtin.tryDecode (.str token)).value.2 = w
        rw [hread]
        rfl
      · cases hv <;> exact hsame
  | list items => exact ⟨.list items, _, rfl, rfl, rfl⟩
  | object entries => exact ⟨.object entries, _, rfl, rfl, rfl⟩
  | tree branches => exact ⟨.tree branches, _, rfl, rfl, rfl⟩

/-- The items that lose nothing in a document if they can be written at all. -/
def Storable (v : Value) : Prop := Encodable v ∨ ∃ i, v = .int i

theorem Storable.encodable {v : Value} (h : Storable v) (hwritable : Registry.Writable v) : Encodable v := by
  rcases h with h | ⟨i, rfl⟩
  · exact h
  · exact .token (.integer i) hwritable

/-- An integer of too many digits is no item. -/
theorem encodeItem_tooLong {v : Value} (h : Storable v) (hlong : ¬ Registry.Writable v) :
    (encodeItem v).outcome.value = .error .unreadable := by
  have hint : ∃ i, v = .int i := by
    cases v with
    | int i => exact ⟨i, rfl⟩
    | _ => exact absurd trivial hlong
  obtain ⟨i, rfl⟩ := hint
  have hc : Registry.builtin.forValue? (.int i) = some Codec.integer :=
    Registry.builtin_forValue? (by simp [Codec.builtins]) rfl
  have hserialize := Registry.serialize_longInteger (Nat.lt_of_not_le hlong)
  rw [Registry.serialize, hc] at hserialize
  unfold encodeItem
  rw [hc]
  dsimp only at hserialize ⊢
  rw [hserialize]
  rfl

theorem encodeItems_tooLong (key : String) {items : List Value} (h : ∀ v ∈ items, Storable v)
    (hlong : ¬ ∀ v ∈ items, Registry.Writable v) (index : Nat) :
    (encodeItems key index items).outcome.value = .error .unreadable := by
  induction items generalizing index with
  | nil => exact absurd (fun v hv => nomatch hv) hlong
  | cons v rest ih =>
      rw [List.forall_mem_cons] at h hlong
      rw [encodeItems, Attempt.outcome_bind]
      by_cases hv : Registry.Writable v
      · obtain ⟨w, record, hwritten, -⟩ := (h.1.encodable hv).kept
        rw [hwritten]
        dsimp only
        rw [Attempt.outcome_bind, ih h.2 (fun hrest => hlong ⟨hv, hrest⟩) (index + 1)]
      · rw [encodeItem_tooLong h.1 hv]

/-! ## Trees -/

/-- All integers of a tree have texts, those of its paths and those that are items. -/
def Short (branches : Branches) : Prop :=
  ∀ b ∈ branches, (∀ i ∈ b.1, Text.digitCount i.natAbs ≤ integerDigitLimit) ∧ ∀ v ∈ b.2, Registry.Writable v

/-- A tree has the paths of another one, and at each of them its items in their order, as they come back. -/
structure Recovers (read branches : Branches) : Prop where
  paths : (read.map Prod.fst).Perm (branches.map Prod.fst)
  items : ∀ b ∈ branches, ∃ items, read.lookup b.1 = some items ∧ List.Forall₂ Kept items b.2

theorem writePath_tooLong {path : Path} (h : ¬ ∀ i ∈ path, Text.digitCount i.natAbs ≤ integerDigitLimit) :
    writePath path = .error .unreadable := by
  have hmapM : path.mapM Token.writeInteger = .error .unreadable := by
    induction path with
    | nil => exact absurd (fun i hi => nomatch hi) h
    | cons i rest ih =>
        rw [List.forall_mem_cons] at h
        rw [List.mapM_cons]
        by_cases hi : Text.digitCount i.natAbs ≤ integerDigitLimit
        · rw [Token.writeInteger_eq hi, ih fun hrest => h ⟨hi, hrest⟩]
          rfl
        · rw [Token.writeInteger, if_pos (Nat.lt_of_not_le hi)]
          rfl
  rw [writePath, hmapM]
  rfl

theorem encodeBranches_tooLong {branches : Branches} (h : ∀ b ∈ branches, ∀ v ∈ b.2, Storable v)
    (hlong : ¬ Short branches) : (encodeBranches branches).outcome.value = .error .unreadable := by
  induction branches with
  | nil => exact absurd (fun b hb => nomatch hb) hlong
  | cons b rest ih =>
      obtain ⟨path, items⟩ := b
      rw [List.forall_mem_cons] at h
      rw [Short, List.forall_mem_cons] at hlong
      rw [encodeBranches, Attempt.outcome_bind]
      by_cases hpath : ∀ i ∈ path, Text.digitCount i.natAbs ≤ integerDigitLimit
      · rw [writePath_eq hpath]
        change (encodeItems (pathText path) 0 items >>= _ : Attempt Entries).outcome.value = _
        rw [Attempt.outcome_bind]
        by_cases hitems : ∀ v ∈ items, Registry.Writable v
        · obtain ⟨records, hwritten, -⟩ :=
            encodeItems_records (pathText path) (fun v hv => ((h.1 v hv).encodable (hitems v hv)).kept) 0
          rw [hwritten]
          dsimp only
          rw [Attempt.outcome_bind, ih h.2 fun hrest => hlong ⟨⟨hpath, hitems⟩, hrest⟩]
        · rw [encodeItems_tooLong (pathText path) h.1 hitems]
      · rw [writePath_tooLong hpath]
        rfl

/-- A tree with an integer that has no text is refused. -/
theorem flatten_tooLong {branches : Branches} (h : ∀ b ∈ branches, ∀ v ∈ b.2, Storable v)
    (hlong : ¬ Short branches) : (flatten branches).outcome.value = .error .unreadable := by
  have hmem : ∀ b, b ∈ sorted branches ↔ b ∈ branches := fun b => (sorted_perm branches).mem_iff
  have hsorted : ¬ Short (sorted branches) := fun hshort => hlong fun b hb => hshort b ((hmem b).mpr hb)
  rw [outcome_flatten, encodeBranches_tooLong (fun b hb => h b ((hmem b).mp hb)) hsorted]
  rfl

/-- A branch of a tree of different paths is found at its path. -/
theorem lookup_of_mem {branches : Branches} (hpaths : (branches.map Prod.fst).Nodup) {b : Path × List Value}
    (hb : b ∈ branches) : branches.lookup b.1 = some b.2 := by
  -- paths are compared element by element here
  have hbeq : (List.instBEq : BEq Path) = instBEqOfDecidableEq := lawful_beq_subsingleton _ _
  rw [hbeq]
  exact (Keyed.lookup_eq_some_iff hpaths).mpr hb

/-- Branches that match those of a tree in another order recover it. -/
theorem recovers_of_matching {read branches ordered : Branches} (hpaths : (branches.map Prod.fst).Nodup)
    (hperm : ordered.Perm branches) (h : List.Forall₂ (Matching Kept) read ordered) : Recovers read branches := by
  have hread : (read.map Prod.fst).Perm (branches.map Prod.fst) := by
    rw [map_fst_of_matching h]
    exact hperm.map Prod.fst
  refine ⟨hread, fun b hb => ?_⟩
  obtain ⟨c, hc, hmatching⟩ : ∃ c ∈ read, Matching Kept c b := by
    obtain ⟨i, hi, rfl⟩ := List.mem_iff_getElem.mp (hperm.mem_iff.mpr hb)
    have hlength : i < read.length := by rwa [h.length_eq]
    exact ⟨read[i], List.getElem_mem hlength, h.get hlength hi⟩
  refine ⟨c.2, ?_, hmatching.items⟩
  rw [← hmatching.path]
  exact lookup_of_mem (hread.nodup_iff.mpr hpaths) hc

/-- The items of a tree are equal to themselves: they have tokens, or are JSON values of finite numbers. -/
def Definite (branches : Branches) : Prop :=
  ∀ b ∈ branches, ∀ v ∈ b.2, Registry.Tokenizable v ∨ v.FiniteJson

theorem sameItems_of_kept {items others : List Value} (h : List.Forall₂ Kept items others)
    (hdefinite : ∀ v ∈ others, Registry.Tokenizable v ∨ v.FiniteJson) : Value.sameItems items others = true := by
  induction h with
  | nil => rw [Value.sameItems]
  | @cons w v _ _ hkept _ ih =>
      rw [List.forall_mem_cons] at hdefinite
      have hsame : w.sameAs v = true := by
        cases v with
        | list items =>
            obtain rfl : w = .list items := hkept
            exact hdefinite.1.elim (fun htoken => nomatch htoken) (Value.FiniteJson.sameAs_self _)
        | object entries =>
            obtain rfl : w = .object entries := hkept
            exact hdefinite.1.elim (fun htoken => nomatch htoken) (Value.FiniteJson.sameAs_self _)
        | tree branches => exact hdefinite.1.elim (fun htoken => nomatch htoken) (fun hjson => hjson.elim)
        | _ => exact hkept
      rw [Value.sameItems, hsame, ih hdefinite.2]
      rfl

/-- A tree that recovers another one is equal to it. -/
theorem Recovers.sameAs {read branches : Branches} (h : Recovers read branches)
    (hpaths : (branches.map Prod.fst).Nodup) (hdefinite : Definite branches) :
    (Value.tree read).sameAs (.tree branches) = true := by
  have hlength : read.length = branches.length := by simpa using h.paths.length_eq
  have hall : ∀ part : Branches, (∀ c ∈ part, c ∈ read) → Value.sameBranches part branches = true := by
    intro part hpart
    induction part with
    | nil => rw [Value.sameBranches]
    | cons c rest ih =>
        rw [List.forall_mem_cons] at hpart
        obtain ⟨b, hb, hpath⟩ := List.mem_map.mp (h.paths.mem_iff.mp (List.mem_map_of_mem hpart.1))
        obtain ⟨items, hitems, hkept⟩ := h.items b hb
        rw [hpath, lookup_of_mem (h.paths.nodup_iff.mpr hpaths) hpart.1] at hitems
        obtain rfl : c.2 = items := Option.some.inj hitems
        rw [Value.sameBranches, ← hpath, lookup_of_mem hpaths hb]
        dsimp only
        rw [sameItems_of_kept hkept (hdefinite b hb), ih hpart.2]
        rfl
  rw [Value.sameAs, hall read fun _ hc => hc, hlength, beq_self_eq_true]
  rfl

/-- **A data tree of different paths and of storable items is read back, every item at its path and its
index, if all of its integers have texts; otherwise it is refused.** -/
theorem flatten_lossless {branches : Branches} (hpaths : (branches.map Prod.fst).Nodup)
    (hitems : ∀ b ∈ branches, ∀ v ∈ b.2, Storable v) :
    (Short branches → ∃ entries read, (flatten branches).outcome.value = .ok (.object entries) ∧
      (expand (.object entries)).outcome.value = .ok read ∧ Recovers read branches ∧
      (Definite branches → (Value.tree read).sameAs (.tree branches) = true)) ∧
    (¬ Short branches → (flatten branches).outcome.value = .error .unreadable) := by
  refine ⟨fun hshort => ?_, flatten_tooLong hitems⟩
  obtain ⟨entries, read, hflatten, hexpand, hmatching⟩ :=
    flatten_returns hpaths (fun b hb => (hshort b hb).1) fun b hb v hv =>
      ((hitems b hb v hv).encodable ((hshort b hb).2 v hv)).kept
  have hrecovers := recovers_of_matching hpaths (sorted_perm branches) hmatching
  exact ⟨entries, read, hflatten, hexpand, hrecovers, hrecovers.sameAs hpaths⟩

/-- A tree of three branches: items that look like tokens and like records, no items, and no path. -/
def mixedTree : Branches :=
  [([1, -2], [.str "number:1", .int 7, .bool true]), ([0], []),
    ([], [.null, .list [.str "text:a"], .object [("value", .str "integer:1")]])]

theorem flatten_lossless_mixedTree :
    (mixedTree.map Prod.fst).Nodup ∧ (∀ b ∈ mixedTree, ∀ v ∈ b.2, Storable v) ∧
      ∃ entries read, (flatten mixedTree).outcome.value = .ok (.object entries) ∧
        (expand (.object entries)).outcome.value = .ok read ∧
        (Value.tree read).sameAs (.tree mixedTree) = true := by
  have hpaths : (mixedTree.map Prod.fst).Nodup := by decide
  have hitems : ∀ b ∈ mixedTree, ∀ v ∈ b.2, Storable v := by
    simp only [mixedTree, List.forall_mem_cons, List.not_mem_nil, IsEmpty.forall_iff, implies_true,
      and_true, true_and]
    exact ⟨⟨.inl (.token (.text _) trivial), .inr ⟨7, rfl⟩, .inl (.token (.boolean _) trivial)⟩,
      .inl .null, .inl (.list _), .inl (.object _)⟩
  have hseven : Registry.Writable (.int 7) := show Text.digitCount 7 ≤ integerDigitLimit by decide
  have hshort : Short mixedTree := by
    simp only [Short, mixedTree, List.forall_mem_cons, List.not_mem_nil, IsEmpty.forall_iff, implies_true,
      and_true, true_and]
    exact ⟨⟨⟨by decide, by decide⟩, trivial, hseven, trivial⟩, by decide, trivial, trivial, trivial⟩
  have hdefinite : Definite mixedTree := by
    simp only [Definite, mixedTree, List.forall_mem_cons, List.not_mem_nil, IsEmpty.forall_iff, implies_true,
      and_true, true_and]
    exact ⟨⟨.inl (.text _), .inl (.integer _), .inl (.boolean _)⟩, .inr trivial, .inr ⟨trivial, trivial⟩,
      .inr ⟨by decide, trivial, trivial⟩⟩
  obtain ⟨entries, read, hflatten, hexpand, -, hsame⟩ := (flatten_lossless hpaths hitems).1 hshort
  exact ⟨hpaths, hitems, entries, read, hflatten, hexpand, hsame hdefinite⟩

/-- The smallest integer without a text is no item of a tree. -/
theorem longTree_refused :
    let branches : Branches := [([0], [.int (10 ^ integerDigitLimit : ℕ)])]
    (branches.map Prod.fst).Nodup ∧ (∀ b ∈ branches, ∀ v ∈ b.2, Storable v) ∧
      (flatten branches).outcome.value = .error .unreadable := by
  have hitems : ∀ b ∈ ([([0], [.int (10 ^ integerDigitLimit : ℕ)])] : Branches), ∀ v ∈ b.2, Storable v := by
    intro b hb v hv
    rw [List.mem_singleton.mp hb] at hv
    exact .inr ⟨_, List.mem_singleton.mp hv⟩
  refine ⟨List.nodup_singleton _, hitems, flatten_tooLong hitems fun hshort => ?_⟩
  have hdigits := (hshort _ List.mem_cons_self).2 _ List.mem_cons_self
  rw [Registry.Writable, Int.natAbs_natCast] at hdigits
  exact lt_irrefl _ ((Nat.length_toDigits_le_iff (by decide) (by decide)).mp hdigits)

end DataTree

end Patchbay
