import Patchbay.Proofs.DataTree.Paths
import Patchbay.Proofs.Journal.Running
import Patchbay.Proofs.Token.Repeating

/-!
# Data trees read back

A data tree that was written as an object and read from it is written as the same object again.

* **`readPath_pathText`** — a path is read from its text, whatever integers it is made of.
* **`Returns`** says of an item that it is written and read as one that is related to it.  Whatever the
  relation is, it goes from the items to the branches and to the tree (`flatten_returns`), which is read
  in the order in which it was written.
* **`flatten_stores`** says what is written, and **`expand_of_holds`** what such an object is read as,
  whatever the order of its entries.  That paths are different is needed, since branches with one path
  would be read as one branch.
* `Encodable`, **`Encodable.returns`** — the items that lose nothing in their records: null, what loses
  nothing in a token, and containers, which stand in a record as they are.
* **`flatten_repeats`** — the result: writing in the order of the paths again changes nothing.
-/

namespace Patchbay.DataTree

/-! ## Paths -/

theorem dropIndices_of_notMem {cs : List Char} (h : '(' ∉ cs) : dropIndices 0 cs = cs := by
  induction cs with
  | nil => rfl
  | cons c rest ih =>
      have hc : afterIndex? (c :: rest) = none := by
        unfold afterIndex?
        split
        · next heq =>
          cases heq
          exact absurd List.mem_cons_self h
        · rfl
      rw [dropIndices, hc, ih fun hmem => h (List.mem_cons_of_mem c hmem)]

theorem braced_toList (parts : List String) :
    (braced parts).toList = '\x7b' :: (List.intercalate [';'] (parts.map String.toList) ++ ['\x7d']) := by
  simp [braced, Text.joinWith, String.toList_append, String.toList_intercalate]

/-- What stands between the braces of a path is cut at the semicolons. -/
theorem elements_braced {parts : List String} (hne : parts ≠ [])
    (h : ∀ s ∈ parts, ∀ c ∈ s.toList, Double.IsNumberChar c) :
    elements (braced parts) = parts.map String.toList := by
  have hpieces : ∀ piece ∈ parts.map String.toList, ';' ∉ piece := by
    intro piece hpiece
    obtain ⟨s, hs, rfl⟩ := List.mem_map.mp hpiece
    exact Double.notMem_of_isNumberChar (h s hs) (by decide)
  have hplain : ∀ c ∈ List.intercalate [';'] (parts.map String.toList), isBrace c = false ∧ c ≠ '(' := by
    intro c hc
    rcases Text.mem_intercalate hc with rfl | ⟨piece, hpiece, hc⟩
    · decide
    · obtain ⟨s, hs, rfl⟩ := List.mem_map.mp hpiece
      have hnumber := h s hs c hc
      have hne : ∀ d, ¬ Double.IsNumberChar d → c ≠ d := fun d hd heq => hd (heq ▸ hnumber)
      have hbrace := hne '\x7b' (by unfold Double.IsNumberChar; decide)
      have hbrace' := hne '\x7d' (by unfold Double.IsNumberChar; decide)
      exact ⟨by simp [isBrace, hbrace, hbrace'], hne '(' (by unfold Double.IsNumberChar; decide)⟩
  have hsplit := Text.splitOn_intercalate hpieces (by simpa using hne)
  rw [elements, braced_toList]
  generalize List.intercalate [';'] (parts.map String.toList) = body at hplain hsplit ⊢
  have hindices : '(' ∉ '\x7b' :: (body ++ ['\x7d']) := by
    simpa using fun hmem => (hplain '(' hmem).2 rfl
  have htrim : Text.trimChars ('\x7b' :: (body ++ ['\x7d'])) = '\x7b' :: (body ++ ['\x7d']) :=
    Text.trimBy_of_ends (by decide) (by decide) body
  rw [dropIndices_of_notMem hindices, htrim,
    Text.trimBy_enclosed (by decide) (by decide) fun c hc => (hplain c hc).1, hsplit]

theorem readElement_integerText {i : ℤ} (h : Text.digitCount i.natAbs ≤ integerDigitLimit) :
    readElement (Text.integerText i).toList = .ok (some i) := by
  have htrim : Text.trimChars (Text.integerText i).toList = (Text.integerText i).toList :=
    Text.trimBy_eq_self fun c hc => (Token.isNumberChar_integerText i c hc).isBlank
  have hdigits : ∀ c ∈ Text.digitsOfNat i.natAbs, Text.isDigitLike c = true :=
    fun c hc => Text.isDigitLike_of_isDigit (Text.isDigit_of_mem_digitsOfNat hc)
  have hresembles : ∃ n digits, Resembles n digits (Text.integerText i).toList := by
    rw [Token.integerText_toList]
    split
    · exact ⟨1, _, rfl, Text.digitsOfNat_ne_nil _, hdigits⟩
    · exact ⟨0, _, rfl, Text.digitsOfNat_ne_nil _, hdigits⟩
  rw [readElement, htrim, if_pos (looksNumeric_iff.mpr hresembles), Token.readInt?_integerText h]

/-- **A path is read back from its text.** -/
theorem readPath_pathText {path : Path}
    (h : ∀ i ∈ path, Text.digitCount i.natAbs ≤ integerDigitLimit) :
    readPath (pathText path) = .ok path := by
  cases hpath : path with
  | nil => rfl
  | cons first rest =>
      rw [← hpath]
      have helements : elements (pathText path) = path.map fun i => (Text.integerText i).toList := by
        rw [pathText, elements_braced (by simp [hpath]), List.map_map]
        · rfl
        · intro s hs
          obtain ⟨i, -, rfl⟩ := List.mem_map.mp hs
          exact Token.isNumberChar_integerText i
      rw [readPath, helements]
      clear helements hpath
      induction path with
      | nil => rfl
      | cons i rest ih =>
          rw [List.map_cons, readElements, readElement_integerText (h i (by simp))]
          change (do return i :: (← readElements _)) = _
          rw [ih fun j hj => h j (by simp [hj])]
          rfl

/-! ## The order of paths -/

theorem pathLe_total (p q : Path) : (pathLe p q || pathLe q p) = true := by
  induction p generalizing q with
  | nil => rfl
  | cons i p ih =>
      cases q with
      | nil => rfl
      | cons j q =>
          have hrest := ih q
          rw [pathLe, pathLe]
          grind

theorem pathLe_trans {p q r : Path} (hpq : pathLe p q = true) (hqr : pathLe q r = true) :
    pathLe p r = true := by
  induction p generalizing q r with
  | nil => rfl
  | cons i p ih =>
      cases q with
      | nil => cases hpq
      | cons j q =>
          cases r with
          | nil => cases hqr
          | cons k r =>
              rw [pathLe] at hpq hqr ⊢
              grind

/-! ## Items -/

/-- The items that lose nothing in their records. -/
inductive Encodable : Value → Prop
  | null : Encodable .null
  | token {v : Value} (hv : Registry.Tokenizable v) (hwritable : Registry.Writable v) : Encodable v
  | list (items : List Value) : Encodable (.list items)
  | object (entries : Entries) : Encodable (.object entries)
  | tree (branches : Branches) : Encodable (.tree branches)

/-- A value is written as a record, and read from it as one that `R` relates to it. -/
def Returns (R : Value → Value → Prop) (v : Value) : Prop :=
  ∃ w record, (encodeItem v).outcome.value = .ok record ∧ (decodeItem (itemPayload record)).value = w ∧ R w v

/-- Values that are written alike. -/
def WrittenAlike (w v : Value) : Prop := (encodeItem w).outcome.value = (encodeItem v).outcome.value

theorem encodeItem_of_serialize {v : Value} {c : Codec} {token : String} (hv : v ≠ .null)
    (hc : Registry.builtin.forValue? v = some c) (htoken : c.serialize v = .ok token) :
    (encodeItem v).outcome.value = .ok (itemRecord c.typeName (.str token)) := by
  unfold encodeItem
  split
  · exact absurd rfl hv
  · rw [hc]
    dsimp only
    rw [htoken]
    rfl

theorem ne_null_of_forValue? {v : Value} {c : Codec} (hc : Registry.builtin.forValue? v = some c) : v ≠ .null := by
  rintro rfl
  cases hc

theorem Encodable.returns {v : Value} (h : Encodable v) : Returns WrittenAlike v := by
  cases h with
  | null => exact ⟨.null, _, rfl, rfl, rfl⟩
  | token hv hwritable =>
      obtain ⟨c, token, w, hc, htoken, hread, hc', htoken'⟩ := Registry.builtin_repeats hv hwritable
      have hwritten := encodeItem_of_serialize (ne_null_of_forValue? hc) hc htoken
      have hagain := encodeItem_of_serialize (ne_null_of_forValue? hc') hc' htoken'
      refine ⟨w, itemRecord c.typeName (.str token), hwritten, ?_, hagain.trans hwritten.symm⟩
      change (Registry.builtin.tryDecode (.str token)).value.2 = w
      rw [hread]
  | list items => exact ⟨.list items, _, rfl, rfl, rfl⟩
  | object entries => exact ⟨.object entries, _, rfl, rfl, rfl⟩
  | tree branches => exact ⟨.tree branches, _, rfl, rfl, rfl⟩

/-- What a record is read as. -/
def readRecord (record : Value) : Value := (decodeItem (itemPayload record)).value

theorem value_decodeItems (items : List Value) : (decodeItems items).value = items.map readRecord := by
  induction items with
  | nil => rfl
  | cons v rest ih =>
      rw [decodeItems, Logged.value_bind, Logged.value_bind, ih]
      rfl

/-- The key of an item: the text of its path, and its index. -/
def itemKey (key : String) (index : Nat) : String := key ++ "(" ++ String.ofList (Text.digitsOfNat index) ++ ")"

/-- An entry stands for an item at an index: the key tells the index, and what the record is read as is
related to the item. -/
structure Records (R : Value → Value → Prop) (key : String) (entry : String × Value) (place : Value × Nat) :
    Prop where
  key : entry.1 = itemKey key place.2
  item : R (readRecord entry.2) place.1

/-- The items of a branch are written in their order, each under its index. -/
theorem encodeItems_records {R : Value → Value → Prop} (key : String) {items : List Value}
    (h : ∀ v ∈ items, Returns R v) (index : Nat) :
    ∃ entries : Entries, (encodeItems key index items).outcome.value = .ok entries ∧
      List.Forall₂ (Records R key) entries (items.zipIdx index) := by
  induction items generalizing index with
  | nil => exact ⟨[], rfl, .nil⟩
  | cons v rest ih =>
      obtain ⟨_, record, hwritten, rfl, hw⟩ := h v (by simp)
      obtain ⟨entries, hrest, hrecords⟩ := ih (fun u hu => h u (by simp [hu])) (index + 1)
      refine ⟨(itemKey key index, record) :: entries, ?_, ?_⟩
      · rw [encodeItems, Attempt.outcome_bind, hwritten]
        dsimp only
        rw [Attempt.outcome_bind, hrest]
        rfl
      · rw [List.zipIdx_cons]
        exact .cons ⟨rfl, hw⟩ hrecords

theorem encodeItems_congr (key : String) {items others : List Value} (h : List.Forall₂ WrittenAlike others items)
    (index : Nat) :
    (encodeItems key index others).outcome.value = (encodeItems key index items).outcome.value := by
  induction h generalizing index with
  | nil => rfl
  | cons hw _ ih =>
      rw [encodeItems, encodeItems]
      exact Attempt.outcome_bind_congr hw fun _ => Attempt.outcome_bind_congr (ih (index + 1)) fun _ => rfl

/-! ## Trees -/

/-- A data tree that loses nothing in a document: each path leads to one branch and can be written, and
so can all items. -/
structure Exact (branches : Branches) : Prop where
  paths : (branches.map Prod.fst).Nodup
  short : ∀ b ∈ branches, ∀ i ∈ b.1, Text.digitCount i.natAbs ≤ integerDigitLimit
  items : ∀ b ∈ branches, ∀ v ∈ b.2, Encodable v

theorem addItems_of_notMem {branches : Branches} {path : Path} (items : List Value)
    (h : path ∉ branches.map Prod.fst) : addItems branches path items = branches ++ [(path, items)] := by
  induction branches with
  | nil => rfl
  | cons b rest ih =>
      rw [List.map_cons, List.mem_cons, not_or] at h
      rw [addItems, if_neg (Ne.symm h.1), ih h.2]
      rfl

/-- Two branches at one path, with items that `R` relates. -/
structure Matching (R : Value → Value → Prop) (c b : Path × List Value) : Prop where
  path : c.1 = b.1
  items : List.Forall₂ R c.2 b.2

theorem map_fst_of_matching {R : Value → Value → Prop} {read branches : Branches}
    (h : List.Forall₂ (Matching R) read branches) : read.map Prod.fst = branches.map Prod.fst := by
  induction h with
  | nil => rfl
  | cons hb _ ih => rw [List.map_cons, List.map_cons, hb.path, ih]

/-- A path has a text if all of its integers do. -/
theorem writePath_eq {path : Path} (h : ∀ i ∈ path, Text.digitCount i.natAbs ≤ integerDigitLimit) :
    writePath path = .ok (pathText path) := by
  have hall : path.mapM Token.writeInteger = .ok (path.map Text.integerText) :=
    mapM_eq_ok fun i hi => Token.writeInteger_eq (h i hi)
  rw [writePath, hall]
  rfl

/-- An entry holds a branch: it is an object under the text of the path, with a record for each item. -/
structure Holds (R : Value → Value → Prop) (entry : String × Value) (b : Path × List Value) : Prop where
  key : entry.1 = pathText b.1
  items : ∃ records : Entries, entry.2 = .object records ∧
    List.Forall₂ (fun (record : String × Value) v => R (readRecord record.2) v) records b.2

/-- An entry holds a branch with its items in their order, each under its index. -/
structure Stores (R : Value → Value → Prop) (entry : String × Value) (b : Path × List Value) : Prop where
  key : entry.1 = pathText b.1
  items : ∃ records : Entries, entry.2 = .object records ∧
    List.Forall₂ (Records R (pathText b.1)) records b.2.zipIdx

theorem Stores.holds {R : Value → Value → Prop} {entry : String × Value} {b : Path × List Value}
    (h : Stores R entry b) : Holds R entry b := by
  obtain ⟨hkey, records, hrecords, hstored⟩ := h
  refine ⟨hkey, records, hrecords, ?_⟩
  rw [← List.zipIdx_map_fst 0 b.2, List.forall₂_map_right_iff]
  exact hstored.imp fun _ _ hrecord => hrecord.item

/-- Branches are written in their order. -/
theorem encodeBranches_stores {R : Value → Value → Prop} {branches : Branches}
    (hshort : ∀ b ∈ branches, ∀ i ∈ b.1, Text.digitCount i.natAbs ≤ integerDigitLimit)
    (hitems : ∀ b ∈ branches, ∀ v ∈ b.2, Returns R v) :
    ∃ entries : Entries, (encodeBranches branches).outcome.value = .ok entries ∧
      List.Forall₂ (Stores R) entries branches := by
  induction branches with
  | nil => exact ⟨[], rfl, .nil⟩
  | cons b rest ih =>
      obtain ⟨path, items⟩ := b
      rw [List.forall_mem_cons] at hshort hitems
      obtain ⟨entries, hwritten, hstored⟩ := ih hshort.2 hitems.2
      obtain ⟨records, hrecords, hitem⟩ := encodeItems_records (pathText path) hitems.1 0
      refine ⟨(pathText path, .object records) :: entries, ?_, .cons ⟨rfl, records, rfl, hitem⟩ hstored⟩
      rw [encodeBranches, writePath_eq hshort.1, Attempt.outcome_bind]
      change (encodeItems (pathText path) 0 items >>= _ : Attempt Entries).outcome.value = _
      rw [Attempt.outcome_bind, hrecords]
      dsimp only
      rw [Attempt.outcome_bind, hwritten]
      rfl

/-- What an entry of an object is read as: a path, and the items of its branch. -/
structure ReadAs (entry : String × Value) (c : Path × List Value) : Prop where
  path : readPath entry.1 = .ok c.1
  items : (writtenItems entry.2).map readRecord = c.2

/-- Entries of different paths are read in their order, each as a branch of its own. -/
theorem expandBranches_of_readAs {entries : Entries} {read : Branches} (h : List.Forall₂ ReadAs entries read)
    (hpaths : (read.map Prod.fst).Nodup) {before : Branches}
    (hbefore : ∀ p ∈ read.map Prod.fst, p ∉ before.map Prod.fst) :
    (expandBranches before entries).outcome.value = .ok (before ++ read) := by
  induction h generalizing before with
  | nil =>
      rw [List.append_nil]
      rfl
  | @cons entry c entries read hentry _ ih =>
      obtain ⟨key, v⟩ := entry
      obtain ⟨path, items⟩ := c
      obtain ⟨hpath, hitems⟩ := hentry
      rw [List.map_cons, List.nodup_cons] at hpaths
      rw [List.map_cons, List.forall_mem_cons] at hbefore
      dsimp only at hpath hitems hpaths hbefore
      rw [expandBranches, hpath, Attempt.outcome_bind]
      change (expandBranches (addItems before path (decodeItems (writtenItems v)).value)
        entries).outcome.value = _
      rw [value_decodeItems, hitems, addItems_of_notMem items hbefore.1, ih hpaths.2, List.append_assoc]
      · rfl
      · intro p hp hmem
        rw [List.map_append, List.mem_append] at hmem
        rcases hmem with hmem | hmem
        · exact hbefore.2 p hp hmem
        · rw [List.mem_singleton.mp hmem] at hp
          exact hpaths.1 hp

/-- Entries that hold branches are read as these, up to the relation of their items. -/
theorem exists_readAs_of_holds {R : Value → Value → Prop} {entries : Entries} {branches : Branches}
    (h : List.Forall₂ (Holds R) entries branches)
    (hshort : ∀ b ∈ branches, ∀ i ∈ b.1, Text.digitCount i.natAbs ≤ integerDigitLimit) :
    ∃ read : Branches, List.Forall₂ ReadAs entries read ∧ List.Forall₂ (Matching R) read branches := by
  induction h with
  | nil => exact ⟨[], .nil, .nil⟩
  | @cons entry b entries branches hentry _ ih =>
      obtain ⟨key, v⟩ := entry
      obtain ⟨hkey, records, hv, hitems⟩ := hentry
      rw [List.forall_mem_cons] at hshort
      obtain ⟨read, hread, hmatching⟩ := ih hshort.2
      refine ⟨(b.1, (writtenItems v).map readRecord) :: read, .cons ⟨?_, rfl⟩ hread, .cons ⟨rfl, ?_⟩ hmatching⟩
      · rw [hkey, readPath_pathText hshort.1]
      · dsimp only at hv
        rw [hv, writtenItems, List.map_map, List.forall₂_map_left_iff]
        exact hitems

/-- An object whose entries hold branches of different paths is read as these branches. -/
theorem expand_of_holds {R : Value → Value → Prop} {entries : Entries} {branches : Branches}
    (h : List.Forall₂ (Holds R) entries branches) (hpaths : (branches.map Prod.fst).Nodup)
    (hshort : ∀ b ∈ branches, ∀ i ∈ b.1, Text.digitCount i.natAbs ≤ integerDigitLimit) :
    ∃ read : Branches, (expand (.object entries)).outcome.value = .ok read ∧
      List.Forall₂ (Matching R) read branches := by
  obtain ⟨read, hread, hmatching⟩ := exists_readAs_of_holds h hshort
  refine ⟨read, ?_, hmatching⟩
  rw [expand]
  refine expandBranches_of_readAs hread ?_ fun p _ hmem => nomatch hmem
  rwa [map_fst_of_matching hmatching]

theorem encodeBranches_congr {branches others : Branches}
    (h : List.Forall₂ (Matching WrittenAlike) others branches) :
    (encodeBranches others).outcome.value = (encodeBranches branches).outcome.value := by
  induction h with
  | nil => rfl
  | @cons c b _ _ hb _ ih =>
      obtain ⟨path, items⟩ := b
      obtain ⟨path', items'⟩ := c
      obtain ⟨rfl, hitems⟩ := hb
      rw [encodeBranches, encodeBranches]
      exact Attempt.outcome_bind_congr rfl fun key =>
        Attempt.outcome_bind_congr (encodeItems_congr key hitems 0) fun _ =>
          Attempt.outcome_bind_congr ih fun _ => rfl

/-- The branches of a tree in the order of their paths. -/
def sorted (branches : Branches) : Branches := branches.mergeSort fun a b => pathLe a.1 b.1

theorem sorted_perm (branches : Branches) : (sorted branches).Perm branches := List.mergeSort_perm ..

/-- What stands in the order of a sorted tree is sorted. -/
theorem sorted_of_paths {read branches : Branches} (h : read.map Prod.fst = (sorted branches).map Prod.fst) :
    sorted read = read := by
  have hsorted : (sorted branches).Pairwise fun a b => pathLe a.1 b.1 = true :=
    @List.pairwise_mergeSort _ (fun a b => pathLe a.1 b.1) (fun _ _ _ => pathLe_trans)
      (fun a b => pathLe_total a.1 b.1) branches
  have hpaths : ((sorted branches).map Prod.fst).Pairwise fun p q => pathLe p q = true :=
    List.pairwise_map.mpr hsorted
  rw [← h] at hpaths
  exact List.mergeSort_of_pairwise (List.pairwise_map.mp hpaths)

theorem outcome_flatten (branches : Branches) :
    (flatten branches).outcome.value = (encodeBranches (sorted branches)).outcome.value.map Value.object :=
  Attempt.outcome_bind_pure _ _

/-- A tree of integers that have texts is written in the order of its paths. -/
theorem flatten_stores {R : Value → Value → Prop} {branches : Branches}
    (hshort : ∀ b ∈ branches, ∀ i ∈ b.1, Text.digitCount i.natAbs ≤ integerDigitLimit)
    (hitems : ∀ b ∈ branches, ∀ v ∈ b.2, Returns R v) :
    ∃ entries : Entries, (flatten branches).outcome.value = .ok (.object entries) ∧
      List.Forall₂ (Stores R) entries (sorted branches) := by
  have hmem : ∀ b, b ∈ sorted branches → b ∈ branches := fun b hb => (sorted_perm branches).mem_iff.mp hb
  obtain ⟨entries, hwritten, hstored⟩ :=
    encodeBranches_stores (fun b hb => hshort b (hmem b hb)) fun b hb => hitems b (hmem b hb)
  refine ⟨entries, ?_, hstored⟩
  rw [outcome_flatten, hwritten]
  rfl

/-- A data tree with different paths is read back, in the order of its paths. -/
theorem flatten_returns {R : Value → Value → Prop} {branches : Branches}
    (hpaths : (branches.map Prod.fst).Nodup)
    (hshort : ∀ b ∈ branches, ∀ i ∈ b.1, Text.digitCount i.natAbs ≤ integerDigitLimit)
    (hitems : ∀ b ∈ branches, ∀ v ∈ b.2, Returns R v) :
    ∃ (entries : Entries) (read : Branches), (flatten branches).outcome.value = .ok (.object entries) ∧
      (expand (.object entries)).outcome.value = .ok read ∧
      List.Forall₂ (Matching R) read (sorted branches) := by
  obtain ⟨entries, hflatten, hstored⟩ := flatten_stores hshort hitems
  obtain ⟨read, hexpand, hmatching⟩ :=
    expand_of_holds (hstored.imp fun _ _ => Stores.holds)
      (((sorted_perm branches).map Prod.fst).nodup_iff.mpr hpaths)
      fun b hb => hshort b ((sorted_perm branches).mem_iff.mp hb)
  exact ⟨entries, read, hflatten, hexpand, hmatching⟩

/-- **A data tree that is read from its object has the same object.** -/
theorem flatten_repeats {branches : Branches} (h : Exact branches) :
    ∃ (entries : Entries) (read : Branches),
      (flatten branches).outcome.value = .ok (.object entries) ∧
      (expand (.object entries)).outcome.value = .ok read ∧
      (flatten read).outcome.value = .ok (.object entries) ∧ read.length = branches.length := by
  obtain ⟨entries, read, hflatten, hexpand, hmatching⟩ :=
    flatten_returns h.paths h.short fun b hb v hv => (h.items b hb v hv).returns
  refine ⟨entries, read, hflatten, hexpand, ?_, ?_⟩
  · rw [← hflatten, outcome_flatten, outcome_flatten, sorted_of_paths (map_fst_of_matching hmatching),
      encodeBranches_congr hmatching]
  · rw [hmatching.length_eq, (sorted_perm branches).length_eq]

end Patchbay.DataTree
