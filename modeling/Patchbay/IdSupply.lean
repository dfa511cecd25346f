import Patchbay.Text.Quoted

/-!
# Supplies of ids

* `IdSupply` — ids by number, and how many of them were issued
* `IdSupply.next` — the next id
* `IdSupply.counter` — numbered GUIDs
-/

namespace Patchbay

/-- A supply of ids. -/
structure IdSupply where
  /-- The id with a number; numbers count from one. -/
  name : Nat → String
  issued : Nat

namespace IdSupply

/-- The next id, and the supply without it. -/
def next (s : IdSupply) : String × IdSupply := (s.name (s.issued + 1), ⟨s.name, s.issued + 1⟩)

/-- The GUID that ends in a number. -/
def guidOf (n : Nat) : String := "00000000-0000-4000-8000-" ++ String.ofList (Text.hexText 12 n)

/-- Numbered GUIDs. -/
def counter : IdSupply := ⟨guidOf, 0⟩

end IdSupply

end Patchbay
