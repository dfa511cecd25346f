import Mathlib.Data.List.Nodup
import Mathlib.Data.List.Perm.Basic

/-!
# Lists without repetitions

* `nodup_eraseDups`, `eraseDups_of_nodup`, `eraseDups_concat` — what is left when repetitions are taken from
  a list
* `nodup_added` — adding an element unless it is there
* `nodup_flatMap_map` — pairs listed by their first components
-/

namespace Patchbay

variable {α β γ : Type}

section

variable [DecidableEq α]

theorem nodup_eraseDups (items : List α) : items.eraseDups.Nodup := by
  induction hn : items.length using Nat.strongRecOn generalizing items with
  | _ n ih =>
      cases items with
      | nil => exact List.nodup_nil
      | cons a rest =>
          rw [List.eraseDups_cons, List.nodup_cons]
          refine ⟨?_, ih _ ?_ _ rfl⟩
          · simp [List.mem_eraseDups]
          · rw [← hn, List.length_cons]
            exact Nat.lt_succ_of_le (List.length_filter_le _ _)

theorem eraseDups_of_nodup {items : List α} (h : items.Nodup) : items.eraseDups = items := by
  induction items with
  | nil => rfl
  | cons a rest ih =>
      rw [List.nodup_cons] at h
      have hrest : rest.filter (fun b => !b == a) = rest :=
        List.filter_eq_self.mpr fun b hb => by simpa using fun heq : b = a => h.1 (heq ▸ hb)
      rw [List.eraseDups_cons, hrest, ih h.2]

/-- Of an element that comes again only the first one stays. -/
theorem eraseDups_concat (items : List α) (a : α) :
    (items ++ [a]).eraseDups = items.eraseDups ++ if a ∈ items then [] else [a] := by
  rw [List.eraseDups_append]
  split
  · next hold => simp [List.removeAll, hold]
  · next hnew => simp [List.removeAll, hnew, List.eraseDups_cons]

/-- An element that is added unless it is there is there once. -/
theorem nodup_added {items : List α} (h : items.Nodup) (a : α) :
    (if a ∈ items then items else items ++ [a]).Nodup := by
  split
  · exact h
  · next ha =>
    rw [← List.concat_eq_append]
    exact h.concat ha

end

/-- Pairs are listed once if their first components are, and the second ones for each of these. -/
theorem nodup_flatMap_map {items : List α} {ends : α → List β} {pair : α → β → γ}
    (hpair : ∀ a b c d, pair a b = pair c d → a = c ∧ b = d) (hitems : items.Nodup)
    (hends : ∀ a ∈ items, (ends a).Nodup) : (items.flatMap fun a => (ends a).map (pair a)).Nodup := by
  refine List.nodup_flatMap.mpr ⟨fun a ha => ?_, hitems.imp fun hne => ?_⟩
  · exact (hends a ha).map fun b d heq => (hpair a b a d heq).2
  · intro w hw hw'
    obtain ⟨b, -, rfl⟩ := List.mem_map.mp hw
    obtain ⟨d, -, heq⟩ := List.mem_map.mp hw'
    exact hne (hpair _ _ _ _ heq).1.symm

end Patchbay
