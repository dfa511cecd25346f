import Patchbay.IdSupply
import Patchbay.Text.Digit

/-!
# Fresh ids

* **`IdSupply.FreshFor`** is what is asked of a supply of ids: the ids to come differ from each
  other and from those in use.
* `IdSupply.Distinct` — no two ids of a supply are the same, and none is empty
* **`IdSupply.counter_freshFor`** — numbered GUIDs are such a supply, since their digits tell the
  number (`Text.natOfHex_hexText`).
-/

namespace Patchbay

/-- The ids to come are different from each other and from those in use. -/
structure IdSupply.FreshFor (s : IdSupply) (used : List String) : Prop where
  distinct : ∀ i j, s.issued < i → s.issued < j → s.name i = s.name j → i = j
  unused : ∀ i, s.issued < i → s.name i ∉ used

/-- The ids are different from each other, and none is empty. -/
structure IdSupply.Distinct (s : IdSupply) : Prop where
  injective : ∀ ⦃i j⦄, s.name i = s.name j → i = j
  nonempty : ∀ i, s.name i ≠ ""

namespace IdSupply.FreshFor

variable {s : IdSupply} {used : List String}

theorem next_notMem (h : s.FreshFor used) : s.next.1 ∉ used := h.unused _ (Nat.lt_succ_self _)

theorem next (h : s.FreshFor used) : s.next.2.FreshFor (used ++ [s.next.1]) where
  distinct := fun i j hi hj => h.distinct i j (Nat.lt_of_succ_lt hi) (Nat.lt_of_succ_lt hj)
  unused := by
    intro i hi hmem
    rcases List.mem_append.mp hmem with hmem | hmem
    · exact h.unused i (Nat.lt_of_succ_lt hi) hmem
    · have hsame : i = s.issued + 1 :=
        h.distinct i _ (Nat.lt_of_succ_lt hi) (Nat.lt_succ_self _) (List.mem_singleton.mp hmem)
      exact absurd hi (hsame ▸ Nat.lt_irrefl _)

theorem mono (h : s.FreshFor used) {less : List String} (hless : less ⊆ used) : s.FreshFor less :=
  ⟨h.distinct, fun i hi hmem => h.unused i hi (hless hmem)⟩

end IdSupply.FreshFor

/-! ## Numbered GUIDs -/

namespace Text

/-- The number that a run of hexadecimal digits writes. -/
def natOfHex (cs : List Char) : Nat := cs.foldl (fun value c => 16 * value + (hexValue? c).getD 0) 0

theorem natOfHex_append_singleton (cs : List Char) (c : Char) :
    natOfHex (cs ++ [c]) = 16 * natOfHex cs + (hexValue? c).getD 0 := by
  simp [natOfHex]

theorem hexValue?_digitChar {d : Nat} (h : d < 16) : hexValue? d.digitChar = some d := by
  have hall : ∀ d < 16, hexValue? d.digitChar = some d := by decide
  exact hall d h

theorem natOfHex_toDigits (n : Nat) : natOfHex (Nat.toDigits 16 n) = n := by
  induction n using Nat.strongRecOn with
  | _ n ih =>
      by_cases h : n < 16
      · rw [Nat.toDigits_of_lt_base h]
        simp [natOfHex, hexValue?_digitChar h]
      · rw [Nat.toDigits_of_base_le (by decide) (Nat.le_of_not_lt h), natOfHex_append_singleton,
          ih (n / 16) (Nat.div_lt_self (by omega) (by decide)),
          hexValue?_digitChar (Nat.mod_lt n (by decide)), Option.getD_some]
        exact Nat.div_add_mod n 16

theorem natOfHex_zeros (k : Nat) (cs : List Char) :
    natOfHex (List.replicate k '0' ++ cs) = natOfHex cs := by
  have hzero : 16 * 0 + (hexValue? '0').getD 0 = 0 := by decide
  induction k with
  | zero => rfl
  | succ k ih =>
      rw [List.replicate_succ, List.cons_append, natOfHex, List.foldl_cons, hzero]
      exact ih

/-- Leading zeros do not matter. -/
theorem natOfHex_hexText (width n : Nat) : natOfHex (hexText width n) = n := by
  have hpadded : hexText width n =
      List.replicate (width - (Nat.toDigits 16 n).length) '0' ++ Nat.toDigits 16 n := rfl
  rw [hpadded, natOfHex_zeros]
  exact natOfHex_toDigits n

end Text

namespace IdSupply

theorem guidOf_injective {i j : Nat} (h : guidOf i = guidOf j) : i = j := by
  unfold guidOf at h
  generalize "00000000-0000-4000-8000-" = front at h
  have hdigits := congrArg String.toList h
  rw [String.toList_append, String.toList_append, String.toList_ofList, String.toList_ofList]
    at hdigits
  rw [← Text.natOfHex_hexText 12 i, List.append_cancel_left hdigits, Text.natOfHex_hexText]

theorem length_guidOf (i : Nat) : 24 ≤ (guidOf i).length := by
  have hfront : "00000000-0000-4000-8000-".length = 24 := by decide
  unfold guidOf
  rw [String.length_append, hfront]
  exact Nat.le_add_right _ _

/-- Numbered GUIDs are fresh where all ids in use are shorter. -/
theorem counter_freshFor {used : List String} (h : ∀ id ∈ used, id.length < 24) :
    counter.FreshFor used where
  distinct := fun _ _ _ _ heq => guidOf_injective heq
  unused := fun i _ hmem => absurd (h _ hmem) (Nat.not_lt_of_le (length_guidOf i))

theorem counter_distinct : counter.Distinct where
  injective := fun _ _ => guidOf_injective
  nonempty := fun i h => by
    have hlength := length_guidOf i
    rw [show guidOf i = "" from h] at hlength
    exact absurd hlength (by decide)

end IdSupply

end Patchbay
