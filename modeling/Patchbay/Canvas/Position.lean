/-!
# Positions and rectangles

* `Coordinate` — the numbers that positions are made of
* `Position`, `Frame` — a place in the plane, and a rectangle with its sides along the axes
* `Frame.around` — the rectangle around two rectangles
* `leastOf`, `greatestOf` — the extremes of a list that is not empty

## Design decisions

* Everything is defined for any kind of coordinates. Programs run on doubles, statements about
  layouts are made about exact numbers.
* Comparisons are written as the program makes them, so that coordinates which cannot be compared
  keep their part in the result.
-/

namespace Patchbay

/-- Numbers that can be counted in, added, subtracted, multiplied and compared. -/
class Coordinate (α : Type) extends Add α, Sub α, Mul α, LT α, BEq α where
  ofNat : Nat → α
  decLt : (a b : α) → Decidable (a < b)

instance Coordinate.decidableLt {α : Type} [Coordinate α] (a b : α) : Decidable (a < b) :=
  Coordinate.decLt a b

instance : Coordinate Float where
  ofNat := Float.ofNat
  decLt := inferInstance

/-- A place in the plane. -/
structure Position (α : Type) where
  x : α
  y : α
deriving Repr, DecidableEq, Inhabited

/-- A rectangle, given by its upper left corner. -/
structure Frame (α : Type) where
  x : α
  y : α
  width : α
  height : α
deriving Repr, DecidableEq, Inhabited

section

variable {α : Type} [Coordinate α]

/-- The smaller number; the second if neither is smaller. -/
def lesser (a b : α) : α := if a < b then a else b

/-- The larger number; the first if neither is larger. -/
def greater (a b : α) : α := if a < b then b else a

/-- The least of `a` and the items of a list; of equals the first. -/
def leastOf (a : α) (items : List α) : α := items.foldl (fun m x => if x < m then x else m) a

/-- The greatest of `a` and the items of a list; of equals the first. -/
def greatestOf (a : α) (items : List α) : α := items.foldl (fun m x => if m < x then x else m) a

@[simp] theorem leastOf_nil (a : α) : leastOf a [] = a := rfl

@[simp] theorem greatestOf_nil (a : α) : greatestOf a [] = a := rfl

namespace Position

/-- The position moved by another. -/
def add (p q : Position α) : Position α := ⟨p.x + q.x, p.y + q.y⟩

/-- The upper left corner of the canvas. -/
def origin : Position α := ⟨Coordinate.ofNat 0, Coordinate.ofNat 0⟩

end Position

namespace Frame

/-- Whether a rectangle has neither width nor height. -/
def isNull (r : Frame α) : Bool :=
  r.width == Coordinate.ofNat 0 && r.height == Coordinate.ofNat 0

/-- The lower edge. -/
def bottom (r : Frame α) : α := r.y + r.height

/-- The two ends of a span that may run backwards. -/
def ends (start length : α) : α × α :=
  if length < Coordinate.ofNat 0 then (start + length, start) else (start, start + length)

/-- The rectangle around two rectangles. One without width and height does not count. -/
def around (r s : Frame α) : Frame α :=
  if r.isNull then s
  else if s.isNull then r
  else
    let left := lesser (ends r.x r.width).1 (ends s.x s.width).1
    let right := greater (ends r.x r.width).2 (ends s.x s.width).2
    let top := lesser (ends r.y r.height).1 (ends s.y s.height).1
    let bottom := greater (ends r.y r.height).2 (ends s.y s.height).2
    ⟨left, top, right - left, bottom - top⟩

/-- The rectangle of a node with its pivot at the upper left. -/
def ofPivot (p : Position α) : Frame α := ⟨p.x, p.y, Coordinate.ofNat 160, Coordinate.ofNat 80⟩

/-- The rectangle around all of a list; nothing if there is none. -/
def aroundAll : List (Frame α) → Option (Frame α)
  | [] => none
  | r :: rest => some (rest.foldl around r)

end Frame

end

end Patchbay
