/-!
# Cutting texts

* `splitOn` — the pieces between the occurrences of one character
* `cut` — what stands before and after the first occurrence
* `cutsFromRight` — every way to cut at an occurrence, the last one first
* `afterText?` — what follows a fixed beginning
* `lines` — the lines of a text, without their line breaks
* `joinWith` — pieces joined by a separator
* `eraseAll` — a text without the occurrences of another
-/

namespace Patchbay.Text

/-- The pieces of `cs` between the occurrences of `sep`; a text without `sep` is one piece. -/
def splitOn (sep : Char) : List Char → List (List Char)
  | [] => [[]]
  | c :: rest =>
    if c = sep then [] :: splitOn sep rest
    else
      match splitOn sep rest with
      | [] => [[c]]
      | piece :: pieces => (c :: piece) :: pieces

/-- What stands before the first `sep`, and what stands after it if there is one. -/
def cut (sep : Char) : List Char → List Char × Option (List Char)
  | [] => ([], none)
  | c :: rest =>
    if c = sep then ([], some rest)
    else
      let (before, after) := cut sep rest
      (c :: before, after)

/-- All cuts of `cs` at an occurrence of `sep`, the last occurrence first. -/
def cutsFromRight (sep : Char) : List Char → List (List Char × List Char)
  | [] => []
  | c :: rest =>
    let later := (cutsFromRight sep rest).map fun (before, after) => (c :: before, after)
    if c = sep then later ++ [([], rest)] else later

/-- What is left of `cs` after `word`, if `cs` begins with it. -/
def afterText? : List Char → List Char → Option (List Char)
  | [], cs => some cs
  | _ :: _, [] => none
  | w :: word, c :: cs => if w = c then afterText? word cs else none

@[simp] theorem splitOn_nil (sep : Char) : splitOn sep [] = [[]] := rfl

theorem splitOn_ne_nil (sep : Char) (cs : List Char) : splitOn sep cs ≠ [] := by
  cases cs with
  | nil => simp
  | cons c rest =>
    unfold splitOn
    split
    · simp
    · split <;> simp

theorem afterText?_append (word cs : List Char) : afterText? word (word ++ cs) = some cs := by
  induction word with
  | nil => rfl
  | cons w word ih => simpa [afterText?] using ih

theorem afterText?_eq_some {word cs rest : List Char} (h : afterText? word cs = some rest) :
    cs = word ++ rest := by
  induction word generalizing cs with
  | nil => simpa [afterText?] using h
  | cons w word ih =>
    cases cs with
    | nil => simp [afterText?] at h
    | cons c cs =>
      unfold afterText? at h
      split at h
      · next hwc => rw [hwc, ih h, List.cons_append]
      · simp at h

/-- The characters that end a line. A carriage return followed by a line feed is one break. -/
def isLineBreak (c : Char) : Bool :=
  let n := c.toNat
  (10 ≤ n && n ≤ 13) || (28 ≤ n && n ≤ 30) || n == 0x85 || n == 0x2028 || n == 0x2029

/-- Reads lines; `line` is the line being read, in reverse, and `afterReturn` says that the last
character was a carriage return, so that a line feed belongs to its break. -/
def linesFrom (line : List Char) (afterReturn : Bool) : List Char → List (List Char)
  | [] => if line.isEmpty then [] else [line.reverse]
  | c :: rest =>
    if afterReturn && c == '\n' then linesFrom [] false rest
    else if isLineBreak c then line.reverse :: linesFrom [] (c == '\r') rest
    else linesFrom (c :: line) false rest

/-- The lines of a text without their breaks. A break at the very end opens no further line. -/
def lines (cs : List Char) : List (List Char) := linesFrom [] false cs

/-- `pieces` with `sep` between neighbours. -/
def joinWith (sep : String) (pieces : List String) : String := String.intercalate sep pieces

/-- Copies a text and leaves out the occurrences of `pattern`; `skip` counts the characters of the
current occurrence that are still to be passed over. -/
def eraseFrom (pattern : List Char) : Nat → List Char → List Char
  | _, [] => []
  | skip + 1, _ :: rest => eraseFrom pattern skip rest
  | 0, c :: rest =>
    if pattern.isPrefixOf (c :: rest) then eraseFrom pattern (pattern.length - 1) rest
    else c :: eraseFrom pattern 0 rest

/-- `cs` without the occurrences of `pattern`, found from the left and without overlap. -/
def eraseAll (pattern cs : List Char) : List Char := eraseFrom pattern 0 cs

end Patchbay.Text
