import Patchbay.Proofs.Keyed
import Patchbay.Validation.DataType

/-!
# Registering types of data

What a call leaves of the table of types, whether it is refused or not. A type is stored before its aliases
are looked at, and an alias is only compared with the names of types, not with the other aliases.

* `DataTypes.Call`, `DataTypes.call`, `DataTypes.run` — registrations and aliases, one after the other
* `DataTypes.addAliases_eq` — aliases are added up to the first that is the name of a type.
* **`DataTypes.call_eq`** — both kinds of calls come down to that, so that there is one account of what a call
  leaves (`lookup_aliases_call`, `lookup_byName_call`).
* `DataTypes.Coherent` — types are found under their own names, after every history (`coherent_run`).
* **`DataTypes.call_run`** — which calls are refused, which of these leave something behind, and which names
  stand for another type afterwards
-/

namespace Patchbay.DataTypes

/-! ## Calls -/

/-- A call that changes the table of types. -/
inductive Call
  /-- A type and its aliases. -/
  | register (type : DataType) (aliases : List String)
  /-- A name that stands for another. -/
  | addAlias (synonym name : String)
deriving Repr, DecidableEq

namespace Call

/-- The type that a call brings. -/
def type? : Call → Option DataType
  | register type _ => some type
  | addAlias _ _ => none

/-- The aliases of a call. -/
def synonyms : Call → List String
  | register _ aliases => aliases
  | addAlias synonym _ => [synonym]

/-- What the aliases of a call stand for. -/
def target : Call → String
  | register type _ => type.name
  | addAlias _ name => name

end Call

/-- Makes a call: the fault, if it is refused, and the table that it leaves. -/
def call (t : DataTypes) : Call → Option Fault × DataTypes
  | .register type aliases =>
    match t.register type aliases with
    | (.ok _, t) => (none, t)
    | (.error fault, t) => (some fault, t)
  | .addAlias synonym name =>
    match t.addAlias synonym name with
    | .ok t => (none, t)
    | .error fault => (some fault, t)

/-- The table after calls that follow the standard types, whatever came of them. -/
def run (calls : List Call) : DataTypes := calls.foldl (fun t c => (t.call c).2) standard

variable {t : DataTypes} {c : Call} {key : String}

/-! ## What a call does -/

/-- Whether a name is that of a type. -/
def isType (t : DataTypes) (name : String) : Bool := (t.byName.lookup (Text.lower name)).isSome

/-- Whether the type that a call brings has a name that a type or an alias has. -/
def taken (t : DataTypes) (c : Call) : Bool :=
  c.type?.any fun type => t.isType type.name || (t.aliases.lookup (Text.lower type.name)).isSome

/-- The table with the type that a call brings. -/
def stored (t : DataTypes) (c : Call) : DataTypes :=
  match c.type? with
  | some type => { t with byName := Keyed.put t.byName (Text.lower type.name) type }
  | none => t

/-- The keys that a call makes aliases: those of its aliases up to the first that is the name of a type. -/
def granted (t : DataTypes) (c : Call) : List String :=
  if t.taken c then [] else (c.synonyms.takeWhile fun a => !(t.stored c).isType a).map Text.lower

theorem addAlias_eq (t : DataTypes) (synonym name : String) :
    t.addAlias synonym name =
      if t.isType synonym then .error (.aliasShadows synonym)
      else .ok { t with aliases := Keyed.put t.aliases (Text.lower synonym) (Text.lower name) } := rfl

/-- **Aliases are added up to the first that is the name of a type**, which is what refuses the rest. -/
theorem addAliases_eq (t : DataTypes) (name : String) (synonyms : List String) :
    t.addAliases name synonyms =
      ((synonyms.find? t.isType).map .aliasShadows,
        { t with
          aliases := (synonyms.takeWhile fun a => !t.isType a).foldl
            (fun pairs a => Keyed.put pairs (Text.lower a) (Text.lower name)) t.aliases }) := by
  induction synonyms generalizing t with
  | nil => rfl
  | cons a rest ih =>
      rw [addAliases, addAlias_eq]
      cases ha : t.isType a with
      | true => simp [ha]
      | false =>
          -- the names of types are the same in the table with one more alias
          simp only [Bool.false_eq_true, if_false, List.find?_cons, ha, List.takeWhile_cons, Bool.not_false,
            if_true, List.foldl_cons]
          exact ih _

/-- **What a call comes to**: nothing if the name of its type is taken, else its type, if it has one, and its
aliases up to the first that is the name of a type. -/
theorem call_eq (t : DataTypes) (c : Call) :
    t.call c = if t.taken c then (some (.paramTypeTaken c.target), t)
      else (t.stored c).addAliases c.target c.synonyms := by
  cases c with
  | register type aliases =>
      have htaken : t.taken (.register type aliases) =
          ((t.byName.lookup (Text.lower type.name)).isSome || (t.aliases.lookup (Text.lower type.name)).isSome) := rfl
      rw [htaken, call, register]
      cases (t.byName.lookup (Text.lower type.name)).isSome || (t.aliases.lookup (Text.lower type.name)).isSome with
      | true => rfl
      | false =>
          change _ = addAliases { t with byName := Keyed.put t.byName (Text.lower type.name) type } type.name aliases
          obtain ⟨refusal, t'⟩ := addAliases { t with byName := Keyed.put t.byName (Text.lower type.name) type }
            type.name aliases
          cases refusal <;> rfl
  | addAlias synonym name =>
      change _ = t.addAliases name [synonym]
      rw [call, addAliases]
      cases t.addAlias synonym name <;> rfl

theorem call_of_taken (h : t.taken c = true) : t.call c = (some (.paramTypeTaken c.target), t) := by
  rw [call_eq, if_pos h]

theorem call_of_not_taken (h : t.taken c = false) : t.call c = (t.stored c).addAliases c.target c.synonyms := by
  rw [call_eq, h, if_neg Bool.false_ne_true]

/-! ## What is found afterwards -/

theorem lookup_foldl_put {α β γ : Type} [DecidableEq β] (f : α → β) (value : γ) (items : List α)
    (pairs : List (β × γ)) (key : β) :
    (items.foldl (fun pairs a => Keyed.put pairs (f a) value) pairs).lookup key =
      if key ∈ items.map f then some value else pairs.lookup key := by
  induction items generalizing pairs with
  | nil => rfl
  | cons a rest ih =>
      rw [List.foldl_cons, ih, Keyed.lookup_put]
      by_cases hrest : key ∈ rest.map f <;> by_cases ha : key = f a <;> simp_all

theorem aliases_stored (t : DataTypes) (c : Call) : (t.stored c).aliases = t.aliases := by
  unfold stored
  split <;> rfl

/-- The aliases after a call: new ones, which may replace others, and the others. -/
theorem lookup_aliases_call (t : DataTypes) (c : Call) (key : String) :
    (t.call c).2.aliases.lookup key =
      if key ∈ t.granted c then some (Text.lower c.target) else t.aliases.lookup key := by
  unfold granted
  cases htaken : t.taken c with
  | true =>
      rw [call_of_taken htaken]
      rfl
  | false =>
      rw [call_of_not_taken htaken, addAliases_eq, if_neg Bool.false_ne_true]
      dsimp only
      rw [lookup_foldl_put, aliases_stored]

/-- The types after a call: the new one, if its name is not taken, and the others. -/
theorem byName_call (t : DataTypes) (c : Call) :
    (t.call c).2.byName = if t.taken c then t.byName else (t.stored c).byName := by
  cases htaken : t.taken c with
  | true =>
      rw [call_of_taken htaken]
      rfl
  | false =>
      rw [call_of_not_taken htaken, addAliases_eq]
      rfl

/-- A type that is stored is new. -/
theorem lookup_of_not_taken {type : DataType} (htype : c.type? = some type) (h : t.taken c = false) :
    t.byName.lookup (Text.lower type.name) = none := by
  unfold taken at h
  rw [htype, Option.any_some, Bool.or_eq_false_iff] at h
  exact Option.not_isSome_iff_eq_none.mp (Bool.eq_false_iff.mp h.1)

theorem lookup_byName_stored (t : DataTypes) (c : Call) (key : String) :
    (t.stored c).byName.lookup key =
      (c.type?.filter fun type => key == Text.lower type.name).or (t.byName.lookup key) := by
  unfold stored
  cases c.type? with
  | none => rfl
  | some type =>
      dsimp only
      rw [Keyed.lookup_put, Option.filter_some]
      by_cases hkey : key = Text.lower type.name <;> simp [hkey]

/-- No type is lost. -/
theorem lookup_byName_call {type : DataType} (h : t.byName.lookup key = some type) :
    (t.call c).2.byName.lookup key = some type := by
  rw [byName_call]
  cases htaken : t.taken c with
  | true => exact h
  | false =>
      rw [if_neg Bool.false_ne_true, lookup_byName_stored]
      cases htype : c.type? with
      | none => exact h
      | some new =>
          have hne : key ≠ Text.lower new.name := by
            rintro rfl
            rw [lookup_of_not_taken htype htaken] at h
            cases h
          rw [Option.filter_some, beq_eq_false_iff_ne.mpr hne, if_neg Bool.false_ne_true, Option.none_or, h]

/-! ## What holds of every table -/

/-- Types are found under their own names. -/
def Coherent (t : DataTypes) : Prop :=
  ∀ key type, t.byName.lookup key = some type → key = Text.lower type.name

theorem coherent_empty : empty.Coherent := nofun

theorem Coherent.call (h : t.Coherent) (c : Call) : (t.call c).2.Coherent := by
  intro key type hkey
  rw [byName_call] at hkey
  split at hkey
  · exact h key type hkey
  · rw [lookup_byName_stored, Option.or_eq_some_iff] at hkey
    rcases hkey with hnew | ⟨-, hthere⟩
    · obtain ⟨-, hname⟩ := Option.filter_eq_some_iff.mp hnew
      exact beq_iff_eq.mp hname
    · exact h key type hthere

theorem Coherent.calls (h : t.Coherent) (calls : List Call) :
    (calls.foldl (fun t c => (t.call c).2) t).Coherent := by
  induction calls generalizing t with
  | nil => exact h
  | cons c rest ih => exact ih (h.call c)

/-- The standard types are registered like all others. -/
theorem standard_eq : standard =
    (standardEntries.map fun (type, aliases) => Call.register type aliases).foldl (fun t c => (t.call c).2) empty := by
  have hregister : ∀ (t : DataTypes) (type : DataType) (aliases : List String),
      (t.register type aliases).2 = (t.call (.register type aliases)).2 := by
    intro t type aliases
    rw [call]
    rcases t.register type aliases with ⟨_ | _, t'⟩ <;> rfl
  rw [standard, List.foldl_map]
  simp only [hregister]

theorem coherent_run (calls : List Call) : (run calls).Coherent := by
  refine Coherent.calls ?_ calls
  rw [standard_eq]
  exact coherent_empty.calls _

/-! ## Refusals and redirections -/

/-- A call is refused for the name of its type, or for an alias that is the name of a type. -/
def Refuses (t : DataTypes) (c : Call) : Prop :=
  t.taken c = true ∨ ∃ a ∈ c.synonyms, (t.stored c).isType a = true

/-- A call brings a type under a name that is free, and is refused for one of its aliases. -/
def Strands (t : DataTypes) (c : Call) : Prop :=
  t.taken c = false ∧ c.type?.isSome = true ∧ ∃ a ∈ c.synonyms, (t.stored c).isType a = true

/-- A call makes an alias of a name that stands for a type, and gives it to another one. -/
def Redirects (t : DataTypes) (c : Call) (name : String) (type : DataType) : Prop :=
  Text.lower (Text.trim name) ∈ t.granted c ∧ Text.lower c.target ≠ Text.lower type.name

theorem refused_iff (t : DataTypes) (c : Call) : (t.call c).1.isSome = true ↔ t.Refuses c := by
  unfold Refuses
  cases htaken : t.taken c with
  | true =>
      rw [call_of_taken htaken]
      exact iff_of_true rfl (.inl rfl)
  | false =>
      rw [call_of_not_taken htaken, addAliases_eq, Option.isSome_map, List.find?_isSome]
      exact (or_iff_right Bool.false_ne_true).symm

/-- A refused call leaves the table as it was, unless it strands its type. -/
theorem unchanged_iff (h : t.Refuses c) : (t.call c).2 = t ↔ ¬ t.Strands c := by
  unfold Strands
  rcases h with htaken | ⟨a, ha, hshadows⟩
  · rw [call_of_taken htaken]
    exact iff_of_true rfl fun hstrands => Bool.false_ne_true (hstrands.1.symm.trans htaken)
  · cases htaken : t.taken c with
    | true =>
        rw [call_of_taken htaken]
        exact iff_of_true rfl fun hstrands => Bool.false_ne_true hstrands.1.symm
    | false =>
        cases c with
        | register type aliases =>
            refine iff_of_false (fun hsame => ?_) (not_not_intro ⟨rfl, rfl, a, ha, hshadows⟩)
            -- the type is there now, and was not
            have hnew : (t.call (.register type aliases)).2.byName.lookup (Text.lower type.name) = some type := by
              rw [byName_call, htaken, if_neg Bool.false_ne_true]
              exact Keyed.lookup_put_self _ _ _
            rw [hsame, lookup_of_not_taken rfl htaken] at hnew
            cases hnew
        | addAlias synonym name =>
            refine iff_of_true ?_ fun hstrands => nomatch hstrands.2.1
            obtain rfl : a = synonym := List.mem_singleton.mp ha
            have hshadows : t.isType a = true := hshadows
            rw [call_of_not_taken htaken, addAliases_eq]
            change ({ t with aliases := ([a].takeWhile fun a => !t.isType a).foldl _ t.aliases } : DataTypes) = t
            rw [List.takeWhile_cons, hshadows]
            rfl

/-- A name that stands for a type stands for it afterwards, unless it is redirected. -/
theorem get?_call_iff (h : t.Coherent) (c : Call) {name : String} {type : DataType}
    (hname : t.get? name = some type) : (t.call c).2.get? name = some type ↔ ¬ t.Redirects c name type := by
  unfold get? at hname ⊢
  unfold Redirects
  split at hname
  · cases hname
  · next hne =>
    rw [if_neg hne]
    dsimp only at hname ⊢
    rw [lookup_aliases_call]
    generalize Text.lower (Text.trim name) = key at hname ⊢
    by_cases hgranted : key ∈ t.granted c
    · rw [if_pos hgranted, Option.getD_some]
      have hown : t.byName.lookup (Text.lower type.name) = some type := by
        rw [← h _ _ hname, hname]
      constructor
      · rintro hfound ⟨-, hother⟩
        exact hother (h.call c _ _ hfound)
      · intro hkept
        rw [not_and, not_not] at hkept
        rw [hkept hgranted]
        exact lookup_byName_call hown
    · rw [if_neg hgranted]
      exact iff_of_true (lookup_byName_call hname) fun hredirects => hgranted hredirects.1

/-- **What a call leaves of the table.**  After any sequence of calls, a further one is refused exactly if the
name of its type is taken or one of its aliases is the name of a type.  A refused call changes nothing, unless
it strands its type, which is there then although it was refused.  Names and aliases stand for the same types
afterwards, but those that the call makes aliases of others. -/
theorem call_run (calls : List Call) (c : Call) :
    let t := run calls
    let refusal := (t.call c).1
    let t' := (t.call c).2
    (refusal.isSome = true ↔ t.Refuses c) ∧
      (refusal.isSome = true → (t' = t ↔ ¬ t.Strands c)) ∧
      (∀ type, t.Strands c → c.type? = some type → type ∈ t'.types) ∧
      ∀ name type, t.get? name = some type → (t'.get? name = some type ↔ ¬ t.Redirects c name type) := by
  dsimp only
  refine ⟨refused_iff _ c, fun h => unchanged_iff ((refused_iff _ c).mp h), fun type hstrands htype => ?_,
    fun name type hname => get?_call_iff (coherent_run calls) c hname⟩
  have hthere : ((run calls).call c).2.byName.lookup (Text.lower type.name) = some type := by
    rw [byName_call, hstrands.1, if_neg Bool.false_ne_true, lookup_byName_stored, htype]
    simp
  exact mem_values_of_lookup hthere

/-- A refused registration whose type is found under its first alias, and an accepted alias that was that of
another type. -/
theorem call_standard_teapot :
    ((run []).call (.register ⟨"Teapot", .geometry, none⟩ ["Pot", "Point"])).1 = some (.aliasShadows "Point") ∧
      (run []).get? "Pot" = none ∧
      ((run []).call (.register ⟨"Teapot", .geometry, none⟩ ["Pot", "Point"])).2.get? "Pot" =
        some ⟨"Teapot", .geometry, none⟩ ∧
      ((run []).call (.addAlias "double" "Integer")).1 = none ∧
      (run []).get? "double" = some ⟨"Number", .numeric, none⟩ ∧
      ((run []).call (.addAlias "double" "Integer")).2.get? "double" = some ⟨"Integer", .numeric, some "Number"⟩ := by
  decide +kernel

end Patchbay.DataTypes
