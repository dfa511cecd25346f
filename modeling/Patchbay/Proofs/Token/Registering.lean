import Patchbay.Proofs.Journal.Running
import Patchbay.Proofs.Keyed
import Patchbay.Proofs.Token.RoundTrip

/-!
# Registering codecs

A registry grows by whole codecs and never takes one back.

* `Registry.enroll` — registering as it goes on, look-up by look-up and entry by entry, in a state that a
  failed run would leave half changed.  **`Registry.result_enroll`** says that it never does: all the looking
  up comes before the first entry.
* `Registry.Taken`, `Registry.entered` — when a codec is refused, and what is entered otherwise
* **`Registry.Extends`** — whatever was found is found as before.  Names, tags and kinds follow three
  different policies, but none of them replaces an entry.
* **`Registry.Coherent`** — each tag leads to the one codec with that tag, and whatever is found by name or
  by kind is found by its tag, too
* `Kind.Hierarchy` — kinds of values with all the kinds they belong to.  That the codec responsible for a
  value accepts it does not depend on how kinds are related (`Coherent.acceptsIn`); truth values, which are
  integers that no codec for integers accepts, are the exception that needs a codec of their own.
* **`Registry.enroll_enrollAll`** — the result, for every sequence of registrations after the built-in ones
-/

namespace Patchbay

namespace Procedure

variable {σ α : Type}

theorem result_forM_cons (f : α → Procedure σ PUnit) (a : α) (rest : List α) (s : σ) :
    ((a :: rest).forM f).result s = (f a >>= fun _ => rest.forM f).result s := rfl

/-- A loop that only looks stops at the first item that it refuses, and leaves the state alone. -/
theorem result_forM_throw {p : σ → α → Bool} {e : α → Fault} (items : List α) (s : σ) :
    (items.forM fun a => (do if p (← get) a then throw (e a) : Procedure σ PUnit)).result s =
      match items.find? (p s) with
      | some a => (.error (e a), s)
      | none => (.ok (), s) := by
  induction items with
  | nil => rfl
  | cons a rest ih =>
      have hfirst : (do if p (← get) a then throw (e a) : Procedure σ PUnit).result s =
          if p s a then (.error (e a), s) else (.ok (), s) := by
        rw [result_bind]
        change (if p s a then throw (e a) else pure () : Procedure σ PUnit).result s = _
        split <;> rfl
      rw [result_forM_cons, result_bind, hfirst, List.find?_cons]
      cases p s a with
      | true => rfl
      | false => exact ih

/-- A loop of changes makes them one after the other. -/
theorem result_forM_modify (f : α → σ → σ) (items : List α) (s : σ) :
    (items.forM fun a => (modify (f a) : Procedure σ PUnit)).result s =
      (.ok (), items.foldl (fun s a => f a s) s) := by
  induction items generalizing s with
  | nil => rfl
  | cons a rest ih =>
      rw [result_forM_cons, result_bind]
      exact ih (f a s)

end Procedure

/-! ## Codecs and kinds -/

/-- How kinds are related: for each kind, the kinds that its values belong to, the most specific first, which
is the kind itself. -/
structure Kind.Hierarchy where
  lineage : Kind → List Kind
  self : ∀ k, (lineage k).head? = some k

/-- The hierarchy of the values here: truth values are integers. -/
def Kind.Hierarchy.usual : Kind.Hierarchy where
  lineage := Kind.lineage
  self := fun k => by cases k <;> rfl

/-- Whether a codec takes values of a kind, in a hierarchy. -/
def Codec.acceptsIn (h : Kind.Hierarchy) (c : Codec) (k : Kind) : Bool :=
  if k == .bool then c.kinds.contains .bool else (h.lineage k).any c.kinds.contains

theorem Codec.acceptsIn_usual (c : Codec) (v : Value) : c.acceptsIn .usual v.kind = c.accepts v := rfl

/-- A codec accepts only tokens that begin with its tag. -/
theorem Codec.tag_of_validates {c : Codec} {token : Value} (h : c.validates token = true) :
    ∃ s, token = .str s ∧ c.tag = String.ofList (Text.cut ':' s.toList).1 := by
  unfold validates deserialize at h
  split at h
  · next s =>
    refine ⟨s, rfl, ?_⟩
    split at h
    · next v hv =>
      obtain ⟨payload, hpayload, -⟩ := Option.bind_eq_some_iff.mp hv
      unfold payload? at hpayload
      split at hpayload
      · next tag rest hcut =>
        obtain ⟨htag, -⟩ := Option.ite_none_right_eq_some.mp hpayload
        rw [hcut]
        exact (beq_iff_eq.mp htag).symm
      · cases hpayload
    · cases h
  · cases h

namespace Registry

variable {r r' r'' : Registry} {c : Codec} {aliases : List String}

/-! ## What is refused, and what is entered -/

/-- One of the names or the tag of a codec is taken. -/
def Taken (r : Registry) (c : Codec) (aliases : List String) : Prop :=
  (∃ name ∈ c.typeName :: aliases, (r.get? name).isSome) ∨ (r.byTag.lookup c.tag).isSome

/-- The registry with a codec entered under names, its tag, and the kinds that are left to it. -/
def entered (r : Registry) (c : Codec) (aliases : List String) : Registry where
  byName := (c.typeName :: aliases).foldl (fun pairs name => addFirst pairs (Text.lower name) c) r.byName
  byTag := r.byTag ++ [(c.tag, c)]
  byKind := c.kinds.foldl (fun pairs k => addFirst pairs k c) r.byKind

theorem register_of_taken (h : r.Taken c aliases) : ∃ fault, r.register c aliases = .error fault := by
  unfold register
  dsimp only
  cases hname : (c.typeName :: aliases).find? fun name => (r.byName.lookup (Text.lower name)).isSome with
  | some name => exact ⟨.codecNameTaken name, rfl⟩
  | none =>
      rcases h with ⟨name, hmem, htaken⟩ | htag
      · exact absurd htaken (List.find?_eq_none.mp hname name hmem)
      · obtain ⟨owner, howner⟩ := Option.isSome_iff_exists.mp htag
        rw [howner]
        exact ⟨.codecTagTaken c.tag owner.typeName, rfl⟩

theorem register_of_not_taken (h : ¬ r.Taken c aliases) :
    r.register c aliases = .ok (r.entered c aliases) := by
  unfold Taken at h
  rw [not_or] at h
  have hname : ((c.typeName :: aliases).find? fun name => (r.byName.lookup (Text.lower name)).isSome) = none :=
    List.find?_eq_none.mpr fun name hmem htaken => h.1 ⟨name, hmem, htaken⟩
  have htag : r.byTag.lookup c.tag = none := by
    rw [← Option.not_isSome_iff_eq_none]
    exact h.2
  unfold register
  dsimp only
  rw [hname, htag]
  rfl

/-! ## Entry by entry -/

/-- Enters a codec under its names, its tag and the kinds that are left to it. -/
def enter (c : Codec) (aliases : List String) : Procedure Registry Codec := do
  (c.typeName :: aliases).forM fun name =>
    modify fun r => { r with byName := Keyed.put r.byName (Text.lower name) c }
  modify fun r => { r with byTag := Keyed.put r.byTag c.tag c }
  c.kinds.forM fun k => modify fun r => { r with byKind := addFirst r.byKind k c }
  return c

/-- Registering as it goes on: every name is looked up, then the tag, and then the codec is entered. -/
def enroll (c : Codec) (aliases : List String) : Procedure Registry Codec := do
  (c.typeName :: aliases).forM fun name => do
    if ((← MonadState.get).byName.lookup (Text.lower name)).isSome then throw (.codecNameTaken name)
  match (← MonadState.get).byTag.lookup c.tag with
  | some owner => throw (.codecTagTaken c.tag owner.typeName)
  | none => enter c aliases

/-- Adding a pair unless its key is there is no different from putting it, if nothing else is there. -/
theorem addFirst_eq_put {α β : Type} [DecidableEq α] {pairs : List (α × β)} {key : α} {value : β}
    (h : ∀ other, pairs.lookup key = some other → other = value) :
    addFirst pairs key value = Keyed.put pairs key value := by
  unfold addFirst
  cases hlookup : pairs.lookup key with
  | none => exact (Keyed.put_of_notMem value (Keyed.lookup_eq_none_iff.mp hlookup)).symm
  | some other =>
      rw [h other hlookup] at hlookup
      exact (Keyed.put_of_lookup_eq_some hlookup).symm

theorem lookup_addFirst {α β : Type} [DecidableEq α] (pairs : List (α × β)) (key : α) (value : β) (other : α) :
    (addFirst pairs key value).lookup other =
      (pairs.lookup other).or (if other = key then some value else none) := by
  unfold addFirst
  cases hlookup : pairs.lookup key with
  | some there =>
      by_cases hother : other = key
      · simp [hother, hlookup]
      · simp [hother]
  | none =>
      rw [Option.isSome_none, if_neg Bool.false_ne_true, List.lookup_append, List.lookup_cons, List.lookup_nil]
      by_cases hother : other = key
      · simp [hother]
      · simp [hother, beq_eq_false_iff_ne.mpr hother]

/-- One value under many keys, in a list that has no other value under any of them. -/
theorem foldl_addFirst_eq_foldl_put {ι α β : Type} [DecidableEq α] {key : ι → α} {value : β} {items : List ι}
    {pairs : List (α × β)} (h : ∀ i ∈ items, ∀ other, pairs.lookup (key i) = some other → other = value) :
    items.foldl (fun pairs i => addFirst pairs (key i) value) pairs =
      items.foldl (fun pairs i => Keyed.put pairs (key i) value) pairs := by
  induction items generalizing pairs with
  | nil => rfl
  | cons i rest ih =>
      rw [List.foldl_cons, List.foldl_cons, ← addFirst_eq_put (h i List.mem_cons_self)]
      refine ih fun j hj other hother => ?_
      rw [lookup_addFirst, Option.or_eq_some_iff] at hother
      rcases hother with hthere | ⟨-, hnew⟩
      · exact h j (List.mem_cons_of_mem i hj) other hthere
      · split at hnew
        · exact (Option.some.inj hnew).symm
        · cases hnew

/-- Where nothing is taken, nothing is replaced. -/
theorem result_enter (h : ¬ r.Taken c aliases) :
    (enter c aliases).result r = (.ok c, r.entered c aliases) := by
  unfold Taken at h
  rw [not_or, Option.not_isSome_iff_eq_none] at h
  have hnames : (c.typeName :: aliases).foldl
        (fun (r : Registry) name => { r with byName := Keyed.put r.byName (Text.lower name) c }) r =
      { r with byName :=
          (c.typeName :: aliases).foldl (fun pairs name => Keyed.put pairs (Text.lower name) c) r.byName } :=
    List.foldl_hom (fun pairs => { r with byName := pairs }) fun _ _ => rfl
  have hkinds : ∀ r : Registry,
      c.kinds.foldl (fun (r : Registry) k => { r with byKind := addFirst r.byKind k c }) r =
        { r with byKind := c.kinds.foldl (fun pairs k => addFirst pairs k c) r.byKind } :=
    fun r => List.foldl_hom (fun pairs => { r with byKind := pairs }) fun _ _ => rfl
  have hput : (c.typeName :: aliases).foldl (fun pairs name => addFirst pairs (Text.lower name) c) r.byName =
      (c.typeName :: aliases).foldl (fun pairs name => Keyed.put pairs (Text.lower name) c) r.byName := by
    refine foldl_addFirst_eq_foldl_put fun name hname other hother => ?_
    exact absurd ⟨name, hname, by rw [get?, hother]; rfl⟩ h.1
  have htag : Keyed.put r.byTag c.tag c = r.byTag ++ [(c.tag, c)] :=
    Keyed.put_of_notMem c (Keyed.lookup_eq_none_iff.mp h.2)
  unfold enter
  rw [Procedure.result_bind, Procedure.result_forM_modify, hnames]
  dsimp only
  rw [Procedure.result_bind]
  change ((c.kinds.forM _) >>= _ : Procedure Registry Codec).result { r with byName := _, byTag := _ } = _
  rw [Procedure.result_bind, Procedure.result_forM_modify, hkinds, htag]
  unfold entered
  rw [hput]
  rfl

/-- **Registering is all or nothing**: it comes to what `register` gives, and to no change if it fails. -/
theorem result_enroll (r : Registry) (c : Codec) (aliases : List String) :
    (enroll c aliases).result r =
      match r.register c aliases with
      | .ok r' => (.ok c, r')
      | .error fault => (.error fault, r) := by
  unfold enroll
  rw [Procedure.result_bind, Procedure.result_forM_throw
    (p := fun (r : Registry) name => (r.byName.lookup (Text.lower name)).isSome)]
  cases hname : (c.typeName :: aliases).find? fun name => (r.byName.lookup (Text.lower name)).isSome with
  | some name =>
      unfold register
      dsimp only
      rw [hname]
      rfl
  | none =>
      dsimp only
      rw [Procedure.result_bind]
      change (match r.byTag.lookup c.tag with
        | some owner => throw (.codecTagTaken c.tag owner.typeName)
        | none => enter c aliases : Procedure Registry Codec).result r = _
      cases htag : r.byTag.lookup c.tag with
      | some owner =>
          unfold register
          dsimp only
          rw [hname, htag]
          rfl
      | none =>
          have hfree : ¬ r.Taken c aliases := by
            rintro (⟨name, hmem, htaken⟩ | htaken)
            · exact List.find?_eq_none.mp hname name hmem htaken
            · rw [htag] at htaken
              cases htaken
          rw [register_of_not_taken hfree]
          exact result_enter hfree

theorem result_enroll_of_taken (h : r.Taken c aliases) :
    ∃ fault, (enroll c aliases).result r = (.error fault, r) := by
  obtain ⟨fault, hfault⟩ := register_of_taken h
  exact ⟨fault, by rw [result_enroll, hfault]⟩

theorem result_enroll_of_not_taken (h : ¬ r.Taken c aliases) :
    (enroll c aliases).result r = (.ok c, r.entered c aliases) := by
  rw [result_enroll, register_of_not_taken h]

/-! ## Nothing is taken back -/

/-- Whatever is found in the first registry is found in the second one. -/
structure Extends (r r' : Registry) : Prop where
  names : ∀ {name owner}, r.byName.lookup name = some owner → r'.byName.lookup name = some owner
  tags : ∀ {tag owner}, r.byTag.lookup tag = some owner → r'.byTag.lookup tag = some owner
  kinds : ∀ {k owner}, r.byKind.lookup k = some owner → r'.byKind.lookup k = some owner

theorem Extends.refl (r : Registry) : r.Extends r := ⟨id, id, id⟩

theorem Extends.trans (h : r.Extends r') (h' : r'.Extends r'') : r.Extends r'' where
  names := fun hname => h'.names (h.names hname)
  tags := fun htag => h'.tags (h.tags htag)
  kinds := fun hkind => h'.kinds (h.kinds hkind)

/-- What is found after one value was added under many keys: first of all what was there. -/
theorem lookup_foldl_addFirst {ι α β : Type} [DecidableEq α] (key : ι → α) (value : β) (items : List ι)
    (pairs : List (α × β)) (k : α) :
    (items.foldl (fun pairs i => addFirst pairs (key i) value) pairs).lookup k =
      (pairs.lookup k).or (if k ∈ items.map key then some value else none) := by
  induction items generalizing pairs with
  | nil => simp
  | cons i rest ih =>
      rw [List.foldl_cons, ih, lookup_addFirst, Option.or_assoc]
      congr 1
      by_cases hi : k = key i <;> by_cases hrest : k ∈ rest.map key <;> simp_all

theorem lookup_entered_byName (r : Registry) (c : Codec) (aliases : List String) (key : String) :
    (r.entered c aliases).byName.lookup key =
      (r.byName.lookup key).or (if key ∈ (c.typeName :: aliases).map Text.lower then some c else none) :=
  lookup_foldl_addFirst Text.lower c (c.typeName :: aliases) r.byName key

theorem lookup_entered_byTag (r : Registry) (c : Codec) (aliases : List String) (tag : String) :
    (r.entered c aliases).byTag.lookup tag = (r.byTag.lookup tag).or (if tag = c.tag then some c else none) := by
  unfold entered
  rw [List.lookup_append, List.lookup_cons, List.lookup_nil]
  by_cases htag : tag = c.tag
  · simp [htag]
  · simp [htag, beq_eq_false_iff_ne.mpr htag]

theorem lookup_entered_byKind (r : Registry) (c : Codec) (aliases : List String) (k : Kind) :
    (r.entered c aliases).byKind.lookup k =
      (r.byKind.lookup k).or (if k ∈ c.kinds then some c else none) := by
  have hlookup := lookup_foldl_addFirst id c c.kinds r.byKind k
  rw [List.map_id] at hlookup
  exact hlookup

theorem extends_entered (r : Registry) (c : Codec) (aliases : List String) :
    r.Extends (r.entered c aliases) where
  names := fun h => by rw [lookup_entered_byName, h, Option.some_or]
  tags := fun h => by rw [lookup_entered_byTag, h, Option.some_or]
  kinds := fun h => by rw [lookup_entered_byKind, h, Option.some_or]

/-- The new codec is found under each of its names, and under its tag. -/
theorem lookup_entered_self (h : ¬ r.Taken c aliases) :
    (∀ name ∈ c.typeName :: aliases, (r.entered c aliases).get? name = some c) ∧
      (r.entered c aliases).byTag.lookup c.tag = some c := by
  unfold Taken at h
  rw [not_or, Option.not_isSome_iff_eq_none] at h
  refine ⟨fun name hname => ?_, ?_⟩
  · have hnone : r.byName.lookup (Text.lower name) = none :=
      Option.not_isSome_iff_eq_none.mp fun htaken => h.1 ⟨name, hname, htaken⟩
    rw [get?, lookup_entered_byName, hnone, Option.none_or, if_pos (List.mem_map_of_mem hname)]
  · rw [lookup_entered_byTag, h.2, Option.none_or, if_pos rfl]

/-! ## What holds of every registry -/

/-- Each tag leads to the codec with that tag, and whatever is found by a name or by a kind is found by its
tag.  A codec is responsible only for kinds that it was registered for. -/
structure Coherent (r : Registry) : Prop where
  tags : ∀ {tag c}, r.byTag.lookup tag = some c → c.tag = tag
  distinct : (r.byTag.map Prod.fst).Nodup
  names : ∀ {name c}, r.byName.lookup name = some c → r.byTag.lookup c.tag = some c
  kinds : ∀ {k c}, r.byKind.lookup k = some c → r.byTag.lookup c.tag = some c ∧ k ∈ c.kinds

theorem coherent_empty : empty.Coherent := ⟨nofun, List.nodup_nil, nofun, nofun⟩

theorem Coherent.entered (hr : r.Coherent) (h : ¬ r.Taken c aliases) : (r.entered c aliases).Coherent where
  tags := by
    intro tag d hd
    rw [lookup_entered_byTag, Option.or_eq_some_iff] at hd
    rcases hd with hthere | ⟨-, hnew⟩
    · exact hr.tags hthere
    · split at hnew
      · next htag => rw [← Option.some.inj hnew, htag]
      · cases hnew
  distinct := by
    have hnot : c.tag ∉ r.byTag.map Prod.fst := by
      rw [← Keyed.lookup_eq_none_iff, ← Option.not_isSome_iff_eq_none]
      exact fun htaken => h (Or.inr htaken)
    have hkeys : (r.entered c aliases).byTag.map Prod.fst = (r.byTag.map Prod.fst).concat c.tag := by
      rw [List.concat_eq_append]
      exact List.map_append
    rw [hkeys]
    exact hr.distinct.concat hnot
  names := by
    intro name d hd
    rw [lookup_entered_byName, Option.or_eq_some_iff] at hd
    rcases hd with hthere | ⟨-, hnew⟩
    · exact (extends_entered r c aliases).tags (hr.names hthere)
    · split at hnew
      · rw [← Option.some.inj hnew]
        exact (lookup_entered_self h).2
      · cases hnew
  kinds := by
    intro k d hd
    rw [lookup_entered_byKind, Option.or_eq_some_iff] at hd
    rcases hd with hthere | ⟨-, hnew⟩
    · exact ⟨(extends_entered r c aliases).tags (hr.kinds hthere).1, (hr.kinds hthere).2⟩
    · split at hnew
      · next hk =>
        rw [← Option.some.inj hnew]
        exact ⟨(lookup_entered_self h).2, hk⟩
      · cases hnew

/-- At most one codec accepts a token: the one with its tag. -/
theorem Coherent.length_filter_validates (hr : r.Coherent) (token : Value) :
    (r.byTag.filter fun entry => entry.2.validates token).length ≤ 1 := by
  cases hcount : r.byTag.filter fun entry => entry.2.validates token with
  | nil => exact Nat.zero_le 1
  | cons entry rest =>
      have hmem : ∀ e ∈ entry :: rest, e ∈ r.byTag ∧ e.2.validates token = true := by
        intro e he
        rw [← hcount, List.mem_filter] at he
        exact he
      have htag : ∀ e ∈ entry :: rest, e.1 = e.2.tag := fun e he =>
        (hr.tags ((Keyed.lookup_eq_some_iff hr.distinct).mpr (hmem e he).1)).symm
      have hsame : ∀ tag ∈ (entry :: rest).map Prod.fst, tag = entry.1 := by
        intro tag hmap
        obtain ⟨e, he, rfl⟩ := List.mem_map.mp hmap
        obtain ⟨s, hs, hcut⟩ := Codec.tag_of_validates (hmem e he).2
        obtain ⟨s', hs', hcut'⟩ := Codec.tag_of_validates (hmem entry List.mem_cons_self).2
        rw [hs] at hs'
        cases hs'
        rw [htag e he, htag entry List.mem_cons_self, hcut, hcut']
      have hnodup : ((entry :: rest).map Prod.fst).Nodup := by
        rw [← hcount]
        exact hr.distinct.sublist (List.filter_sublist.map Prod.fst)
      rw [List.eq_replicate_of_mem hsame, List.length_map] at hnodup
      exact List.nodup_replicate.mp hnodup

/-! ## Who is responsible -/

/-- The codec responsible for a kind, in a hierarchy. -/
def forKind? (h : Kind.Hierarchy) (r : Registry) (k : Kind) : Option Codec :=
  (h.lineage k).findSome? fun k => r.byKind.lookup k

theorem forKind?_usual (r : Registry) (v : Value) : r.forKind? .usual v.kind = r.forValue? v := rfl

/-- The codec responsible for a kind accepts it, provided that truth values have a codec: they would be
left to that for integers otherwise. -/
theorem Coherent.acceptsIn (hr : r.Coherent) (htruth : .bool ∈ r.byKind.map Prod.fst) (h : Kind.Hierarchy)
    {k : Kind} (hc : r.forKind? h k = some c) : c.acceptsIn h k = true := by
  unfold forKind? at hc
  unfold Codec.acceptsIn
  by_cases hk : k = .bool
  · subst hk
    obtain ⟨rest, hlineage⟩ := List.head?_eq_some_iff.mp (h.self .bool)
    obtain ⟨owner, howner⟩ := Keyed.exists_lookup_eq_some htruth
    rw [hlineage, List.findSome?_cons, howner] at hc
    rw [← Option.some.inj hc, beq_self_eq_true, if_pos rfl, List.contains_iff_mem]
    exact (hr.kinds howner).2
  · obtain ⟨other, hmem, hother⟩ := List.exists_of_findSome?_eq_some hc
    rw [if_neg (by simpa using hk), List.any_eq_true]
    exact ⟨other, hmem, List.contains_iff_mem.mpr (hr.kinds hother).2⟩

/-! ## Sequences of registrations -/

/-- The registry that a registration leaves behind, whatever came of it. -/
def afterEnroll (r : Registry) (call : Codec × List String) : Registry := ((enroll call.1 call.2).result r).2

theorem afterEnroll_eq (r : Registry) (call : Codec × List String) :
    r.afterEnroll call = (r.register call.1 call.2).toOption.getD r := by
  unfold afterEnroll
  rw [result_enroll]
  cases r.register call.1 call.2 <;> rfl

/-- The registry after a sequence of registrations that follow the built-in ones. -/
def enrollAll (calls : List (Codec × List String)) : Registry := calls.foldl afterEnroll builtin

theorem enrollAll_eq (calls : List (Codec × List String)) : enrollAll calls = builtin.registerAll calls := by
  unfold enrollAll registerAll
  congr 1
  funext r call
  exact r.afterEnroll_eq call

theorem Coherent.registerAll (hr : r.Coherent) (calls : List (Codec × List String)) :
    (r.registerAll calls).Coherent ∧ r.Extends (r.registerAll calls) := by
  induction calls generalizing r with
  | nil => exact ⟨hr, .refl r⟩
  | cons call rest ih =>
      obtain ⟨c, aliases⟩ := call
      change ((r.register c aliases).toOption.getD r |>.registerAll rest).Coherent ∧
        r.Extends ((r.register c aliases).toOption.getD r |>.registerAll rest)
      by_cases h : r.Taken c aliases
      · obtain ⟨fault, hfault⟩ := register_of_taken h
        rw [hfault]
        exact ih hr
      · rw [register_of_not_taken h]
        obtain ⟨hcoherent, hextends⟩ := ih (hr.entered h)
        exact ⟨hcoherent, (extends_entered r c aliases).trans hextends⟩

theorem coherent_builtin : builtin.Coherent := (coherent_empty.registerAll Codec.builtins).1

/-- A registry that was built up from the built-in one is coherent, and truth values have a codec in it. -/
theorem coherent_enrollAll (calls : List (Codec × List String)) :
    (enrollAll calls).Coherent ∧ .bool ∈ (enrollAll calls).byKind.map Prod.fst := by
  rw [enrollAll_eq]
  obtain ⟨hcoherent, hextends⟩ := coherent_builtin.registerAll calls
  have hboolean : builtin.byKind.lookup .bool = some .boolean := rfl
  exact ⟨hcoherent, List.mem_map_of_mem (Keyed.mem_of_lookup_eq_some (hextends.kinds hboolean))⟩

/-- **Registries grow by whole codecs.**  After any sequence of registrations, a further one is refused
exactly if one of its names or its tag is taken, and then changes nothing.  If it goes through, whatever was
found is found as before, and the new codec is found under all of its names and its tag.  At most one codec
accepts a token.  The codec responsible for a value accepts it, and so it would in any other hierarchy of
kinds. -/
theorem enroll_enrollAll (calls : List (Codec × List String)) (c : Codec) (aliases : List String) :
    let r := enrollAll calls
    let outcome := ((enroll c aliases).result r).1
    let r' := ((enroll c aliases).result r).2
    ((∃ fault, outcome = .error fault) ↔ r.Taken c aliases) ∧
      (∀ fault, outcome = .error fault → r' = r) ∧
      (∀ d, outcome = .ok d → d = c ∧
        (∀ name owner, r.get? name = some owner → r'.get? name = some owner) ∧
        (∀ tag owner, r.byTag.lookup tag = some owner → r'.byTag.lookup tag = some owner) ∧
        (∀ name ∈ c.typeName :: aliases, r'.get? name = some c) ∧ r'.byTag.lookup c.tag = some c) ∧
      (∀ name owner, r.get? name = some owner → r.byTag.lookup owner.tag = some owner) ∧
      (∀ token, (r.byTag.filter fun entry => entry.2.validates token).length ≤ 1) ∧
      (∀ v owner, r.forValue? v = some owner → owner.accepts v = true) ∧
      ∀ (h : Kind.Hierarchy) (k : Kind) (owner : Codec), r.forKind? h k = some owner → owner.acceptsIn h k = true := by
  dsimp only
  obtain ⟨hcoherent, htruth⟩ := coherent_enrollAll calls
  generalize enrollAll calls = r at hcoherent htruth
  have hresponsible : ∀ v owner, r.forValue? v = some owner → owner.accepts v = true := by
    intro v owner howner
    rw [← forKind?_usual] at howner
    rw [← Codec.acceptsIn_usual]
    exact hcoherent.acceptsIn htruth .usual howner
  rw [← and_assoc, ← and_assoc]
  refine ⟨?_, fun name owner howner => hcoherent.names howner, hcoherent.length_filter_validates, hresponsible,
    fun h k owner howner => hcoherent.acceptsIn htruth h howner⟩
  by_cases h : r.Taken c aliases
  · obtain ⟨fault, hfault⟩ := result_enroll_of_taken h
    rw [hfault]
    exact ⟨⟨iff_of_true ⟨fault, rfl⟩ h, fun _ _ => rfl⟩, fun d hd => nomatch hd⟩
  · rw [result_enroll_of_not_taken h]
    refine ⟨⟨iff_of_false (fun ⟨fault, hfault⟩ => nomatch hfault) h, fun fault hfault => nomatch hfault⟩, ?_⟩
    have hextends := extends_entered r c aliases
    exact fun d hd => ⟨(Except.ok.inj hd).symm, fun _ _ => hextends.names, fun _ _ => hextends.tags,
      lookup_entered_self h⟩

end Registry

end Patchbay
