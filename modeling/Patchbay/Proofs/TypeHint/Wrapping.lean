import Patchbay.TypeHint
import Patchbay.Proofs.Text.Cutting

/-!
# Hints inside collections

The pattern that recognizes a collection finds back what was put inside it, even if that has brackets,
commas and collections of its own.

* `TypeHint.wrapper?_spelled` — every spelling of a collection is recognized, with its access and what is
  between its brackets.
* `TypeHint.insideBrackets?_of_trimmed`, `TypeHint.insideBrackets?_isSome` — what is between the brackets is a
  type, unless its lines are broken.
* **`TypeHint.forAccess_unwraps`** — a bare hint comes back out of the collection it was put in, with the access,
  and what is in a collection is not put in another.
-/

namespace Patchbay.TypeHint

open Text (isBlank)

variable {name : String} {access : Access} {qualifier before gap after cs : List Char}

/-! ## Spellings of a collection -/

theorem dropWhile_blanks {c : Char} (h : ∀ b ∈ gap, isBlank b = true) (hc : isBlank c = false)
    (rest : List Char) : (gap ++ c :: rest).dropWhile isBlank = c :: rest := by
  rw [List.dropWhile_append_of_pos h, List.dropWhile_cons_of_neg (by rw [hc]; decide)]

theorem findSome?_eq_some_of_only {α β : Type} {f : α → Option β} {items : List α} {a : α} {b : β}
    (hmem : a ∈ items) (ha : f a = some b) (hother : ∀ a' ∈ items, a' ≠ a → f a' = none) :
    items.findSome? f = some b := by
  induction items with
  | nil => cases hmem
  | cons first rest ih =>
      by_cases hfirst : first = a
      · rw [List.findSome?_cons, hfirst, ha]
      · rw [List.findSome?_cons, hother first List.mem_cons_self hfirst]
        exact ih ((List.mem_cons.mp hmem).resolve_left (Ne.symm hfirst))
          fun a' ha' => hother a' (List.mem_cons_of_mem first ha')

/-- No name of a collection is the beginning of another. -/
theorem afterText?_other {pair : String × Access} (hpair : pair ∈ collections) (h : (name, access) ∈ collections)
    (hne : pair ≠ (name, access)) (rest : List Char) :
    Text.afterText? pair.1.toList (name.toList ++ rest) = none := by
  simp only [collections, List.mem_cons, List.not_mem_nil, or_false, Prod.mk.injEq] at hpair h
  rcases hpair with rfl | rfl | rfl | rfl | rfl | rfl <;>
    obtain ⟨rfl, rfl⟩ | ⟨rfl, rfl⟩ | ⟨rfl, rfl⟩ | ⟨rfl, rfl⟩ | ⟨rfl, rfl⟩ | ⟨rfl, rfl⟩ := h <;>
      first
      | exact absurd rfl hne
      | rfl

/-- A collection is recognized by its name. -/
theorem collectionAt?_spelled (h : (name, access) ∈ collections) (hgap : ∀ c ∈ gap, isBlank c = true)
    (inside : List Char) : collectionAt? (name.toList ++ (gap ++ '<' :: inside)) = some (access, inside) := by
  refine findSome?_eq_some_of_only h ?_ fun pair hpair hne => ?_
  · simp only [Text.afterText?_append, dropWhile_blanks hgap (show isBlank '<' = false from rfl), bind,
      Option.bind]
  · simp only [afterText?_other hpair h hne, bind, Option.bind]

/-- The ways in which a collection may be qualified. -/
def Qualifier (cs : List Char) : Prop := cs = [] ∨ cs = qualification

theorem dropQualification_spelled (h : (name, access) ∈ collections) (hqualifier : Qualifier qualifier)
    (rest : List Char) :
    dropQualification ((qualifier ++ (name.toList ++ rest)).dropWhile isBlank) = name.toList ++ rest := by
  obtain rfl | rfl := hqualifier
  · simp only [collections, List.mem_cons, List.not_mem_nil, or_false, Prod.mk.injEq] at h
    obtain ⟨rfl, rfl⟩ | ⟨rfl, rfl⟩ | ⟨rfl, rfl⟩ | ⟨rfl, rfl⟩ | ⟨rfl, rfl⟩ | ⟨rfl, rfl⟩ := h <;> rfl
  · change (Text.afterText? qualification (qualification ++ (name.toList ++ rest))).getD _ = _
    rw [Text.afterText?_append, Option.getD_some]

/-- The last bracket closes the collection, whatever blanks follow it. -/
theorem reverse_trimRightBy_closed (h : ∀ c ∈ after, isBlank c = true) (inside : List Char) :
    (Text.trimRightBy isBlank (inside ++ '>' :: after)).reverse = '>' :: inside.reverse := by
  have hreverse : (inside ++ '>' :: after).reverse = after.reverse ++ '>' :: inside.reverse := by simp
  rw [Text.trimRightBy, List.reverse_reverse, hreverse]
  exact dropWhile_blanks (fun c hc => h c (List.mem_reverse.mp hc)) rfl _

/-- **Every spelling of a collection is recognized**, with what stands between its brackets. -/
theorem wrapper?_spelled (h : (name, access) ∈ collections) (hqualifier : Qualifier qualifier)
    (hbefore : ∀ c ∈ before, isBlank c = true) (hgap : ∀ c ∈ gap, isBlank c = true)
    (hafter : ∀ c ∈ after, isBlank c = true) (inside : List Char) :
    wrapper? (before ++ (qualifier ++ (name.toList ++ (gap ++ '<' :: (inside ++ '>' :: after))))) =
      (insideBrackets? inside).map (access, ·) := by
  unfold wrapper?
  rw [List.dropWhile_append_of_pos hbefore, dropQualification_spelled h hqualifier, collectionAt?_spelled h hgap]
  simp only [bind, Option.bind, reverse_trimRightBy_closed hafter, List.reverse_reverse]
  cases insideBrackets? inside <;> rfl

/-! ## What is between the brackets -/

theorem insideBrackets?_of_trimmed (htrimmed : Text.Trimmed cs) (hne : cs ≠ []) (hline : '\n' ∉ cs) :
    insideBrackets? cs = some cs := by
  unfold insideBrackets?
  rw [Text.trimChars_eq_self htrimmed]
  simp [hne, hline]

/-- Nothing is too blank to be a type. -/
theorem insideBrackets?_isSome (hne : cs ≠ []) (hline : '\n' ∉ cs) : (insideBrackets? cs).isSome = true := by
  unfold insideBrackets?
  have hinside : '\n' ∉ Text.trimChars cs := fun h => hline ((Text.trimChars_isInfix cs).subset h)
  dsimp only
  split
  · obtain ⟨c, rest, rfl⟩ := List.exists_cons_of_ne_nil hne
    have hc : c ≠ '\n' := fun h => hline (by simp [h])
    simp only [Option.isSome_map, List.find?_isSome, List.mem_reverse]
    exact ⟨c, List.mem_cons_self, by simpa using hc⟩
  · rw [if_neg (by simpa using hinside)]
    rfl

/-! ## Putting hints in collections -/

/-- A bare hint is put in one collection. -/
theorem exists_toList_forAccess {hint : String} (hne : hint ≠ "") (hbare : isCollection hint = false)
    (haccess : access ≠ .item) : ∃ name, (name, access) ∈ collections ∧
      (forAccess hint access).toList = name.toList ++ '<' :: (hint.toList ++ ['>']) := by
  have hchoice : (hint.isEmpty || isCollection hint) = false := by
    rw [hbare, Bool.or_false, Bool.eq_false_iff, ne_eq, String.isEmpty_iff]
    exact hne
  unfold forAccess
  rw [hchoice]
  cases access with
  | item => exact absurd rfl haccess
  | list => exact ⟨"List", by decide, by simp⟩
  | tree => exact ⟨"DataTree", by decide, by simp⟩

theorem wrapper?_forAccess {hint : String} (hne : hint ≠ "") (hbare : isCollection hint = false)
    (haccess : access ≠ .item) :
    wrapper? (forAccess hint access).toList = (insideBrackets? hint.toList).map (access, ·) := by
  obtain ⟨name, hname, hspelled⟩ := exists_toList_forAccess hne hbare haccess
  have hblank : ∀ c ∈ ([] : List Char), isBlank c = true := fun c hc => absurd hc List.not_mem_nil
  rw [hspelled]
  exact wrapper?_spelled hname (.inl rfl) hblank hblank hblank hint.toList

theorem forAccess_of_isCollection {hint : String} (h : isCollection hint = true) (a : Access) :
    forAccess hint a = hint := by
  unfold forAccess
  exact if_pos (by rw [h, Bool.or_true])

theorem forAccess_item (hint : String) : forAccess hint .item = hint := by
  unfold forAccess
  split <;> rfl

/-- What is in a collection stays there, and a hint is put in one collection only. -/
theorem forAccess_forAccess {hint : String} (hline : '\n' ∉ hint.toList) {a : Access} (ha : a ≠ .item)
    (b : Access) : forAccess (forAccess hint a) b = forAccess hint a := by
  by_cases hempty : hint = ""
  · rw [hempty]
    rfl
  · cases hbare : isCollection hint with
    | true => rw [forAccess_of_isCollection hbare, forAccess_of_isCollection hbare]
    | false =>
        refine forAccess_of_isCollection ?_ b
        rw [isCollection, wrapper?_forAccess hempty hbare ha, Option.isSome_map]
        exact insideBrackets?_isSome (mt String.toList_eq_nil_iff.mp hempty) hline

/-- **A bare hint comes back out of the collection it was put in**, with the access, however many brackets it
has of its own. What is in a collection is not put in another. -/
theorem forAccess_unwraps (hint : String) (hline : '\n' ∉ hint.toList) :
    (hint ≠ "" → Text.trim hint = hint → isCollection hint = false →
      (∀ a, a ≠ .item → isCollection (forAccess hint a) = true ∧ base (forAccess hint a) = hint ∧
        TypeHint.access (forAccess hint a) = a) ∧
      forAccess hint .item = hint ∧ TypeHint.access (forAccess hint .item) = .item) ∧
    ∀ a b, a ≠ .item → forAccess (forAccess hint a) b = forAccess hint a := by
  refine ⟨fun hne htrim hbare => ⟨fun a ha => ?_, forAccess_item hint, ?_⟩,
    fun a b ha => forAccess_forAccess hline ha b⟩
  · have htrimmed : Text.Trimmed hint.toList := by
      rw [← htrim, Text.trim, String.toList_ofList]
      exact Text.trimmed_trimChars hint.toList
    have hinside := insideBrackets?_of_trimmed htrimmed (mt String.toList_eq_nil_iff.mp hne) hline
    have hwrapper : wrapper? (forAccess hint a).toList = some (a, hint.toList) := by
      rw [wrapper?_forAccess hne hbare ha, hinside, Option.map_some]
    refine ⟨?_, ?_, ?_⟩
    · rw [isCollection, hwrapper, Option.isSome_some]
    · rw [base, hwrapper]
      exact String.ofList_toList
    · rw [TypeHint.access, hwrapper]
  · have hnone : wrapper? hint.toList = none := by simpa [isCollection] using hbare
    rw [forAccess_item, TypeHint.access, hnone]

/-- A dictionary of lists is put in a tree and comes out of it. -/
theorem forAccess_unwraps_nested : ("Dictionary<string, List<int>>" ≠ "" ∧
    '\n' ∉ "Dictionary<string, List<int>>".toList ∧
    base (forAccess "Dictionary<string, List<int>>" .tree) = "Dictionary<string, List<int>>") :=
  ⟨by decide, by decide,
    (((forAccess_unwraps "Dictionary<string, List<int>>" (by decide)).1 (by decide) (by decide) (by decide)).1
      .tree (by decide)).2.1⟩

end Patchbay.TypeHint
