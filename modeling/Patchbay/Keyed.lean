/-!
# Keyed lists

Lists of pairs in order of arrival, each key once.

* `Keyed.put` — a value under a key: in place if the key is there, else at the end
* `Keyed.drop` — the list without a key
* `Keyed.ofList` — pairs read in order, later values under a key replacing earlier ones

Values are looked up with `List.lookup`; `lookup_put_self` and `lookup_put_of_ne` say what `put`
changes.
-/

namespace Patchbay.Keyed

variable {κ α : Type} [DecidableEq κ]

/-- Puts a value under a key: in place if the key is there, else at the end. -/
def put (pairs : List (κ × α)) (key : κ) (value : α) : List (κ × α) :=
  match pairs with
  | [] => [(key, value)]
  | (k, v) :: rest => if k = key then (k, value) :: rest else (k, v) :: put rest key value

/-- The list without a key. -/
def drop (pairs : List (κ × α)) (key : κ) : List (κ × α) := pairs.filter fun (k, _) => k != key

/-- The pairs of a list read in order. -/
def ofList (pairs : List (κ × α)) : List (κ × α) :=
  pairs.foldl (fun found (key, value) => put found key value) []

theorem lookup_put_self (pairs : List (κ × α)) (key : κ) (value : α) :
    (put pairs key value).lookup key = some value := by
  induction pairs with
  | nil => simp [put]
  | cons head rest ih =>
    obtain ⟨k, v⟩ := head
    unfold put
    split
    · next h => simp [h]
    · next h =>
      have hne : (key == k) = false := by simpa using fun e : key = k => h e.symm
      simpa [List.lookup_cons, hne] using ih

theorem lookup_put_of_ne (pairs : List (κ × α)) {key other : κ} (value : α) (h : other ≠ key) :
    (put pairs key value).lookup other = pairs.lookup other := by
  induction pairs with
  | nil =>
    have hne : (other == key) = false := by simpa using h
    simp [put, List.lookup_cons, hne]
  | cons head rest ih =>
    obtain ⟨k, v⟩ := head
    unfold put
    split
    · next hk =>
      have hne : (other == k) = false := by simpa [hk] using h
      simp [List.lookup_cons, hne]
    · simp only [List.lookup_cons]
      split <;> simp_all

/-- Putting a value keeps the other keys in their places. -/
theorem keys_put (pairs : List (κ × α)) (key : κ) (value : α) :
    (put pairs key value).map Prod.fst =
      if key ∈ pairs.map Prod.fst then pairs.map Prod.fst else pairs.map Prod.fst ++ [key] := by
  induction pairs with
  | nil => simp [put]
  | cons head rest ih =>
    obtain ⟨k, v⟩ := head
    unfold put
    split
    · next h => simp [h]
    · next h =>
      have hne : key ≠ k := fun e => h e.symm
      by_cases hm : key ∈ rest.map Prod.fst <;> simp_all

end Patchbay.Keyed
