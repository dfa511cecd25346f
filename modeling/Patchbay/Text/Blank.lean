/-!
# Blanks

The white space of a document's texts, and the operations that take it away.

* `isBlank` — the characters that count as white space
* `trim`, `trimBy` — a text without the blanks (or other characters) at its two ends
* `words` — the maximal runs of characters that are not blank

Everything works on lists of characters; the functions on strings are wrappers.
-/

namespace Patchbay.Text

/-- White space: the line breaks and separators U+0009–000D and U+001C–0020, and the blanks
beyond the first 128 characters. The zero-width characters U+200B and U+FEFF are not in it. -/
def isBlank (c : Char) : Bool :=
  let n := c.toNat
  (9 ≤ n && n ≤ 13) || (28 ≤ n && n ≤ 32) || n == 0x85 || n == 0xA0 || n == 0x1680
    || (0x2000 ≤ n && n ≤ 0x200A) || n == 0x2028 || n == 0x2029 || n == 0x202F
    || n == 0x205F || n == 0x3000

/-- The blanks that may stand around a number in the middle of a text: `isBlank` without the four
information separators U+001C–001F. -/
def isNumberBlank (c : Char) : Bool :=
  isBlank c && !(28 ≤ c.toNat && c.toNat ≤ 31)

/-- `cs` without its longest tail of characters in `p`. -/
def trimRightBy (p : Char → Bool) (cs : List Char) : List Char :=
  (cs.reverse.dropWhile p).reverse

/-- `cs` without the characters in `p` at its two ends. -/
def trimBy (p : Char → Bool) (cs : List Char) : List Char :=
  trimRightBy p (cs.dropWhile p)

/-- `cs` without the blanks at its two ends. -/
def trimChars (cs : List Char) : List Char := trimBy isBlank cs

/-- `s` without the blanks at its two ends. -/
def trim (s : String) : String := String.ofList (trimChars s.toList)

@[simp] theorem trimRightBy_nil (p : Char → Bool) : trimRightBy p [] = [] := rfl

@[simp] theorem trimBy_nil (p : Char → Bool) : trimBy p [] = [] := rfl

/-- Collects the maximal runs of characters that are not blank; `run` is the run being read, in
reverse. -/
def wordsFrom (run : List Char) : List Char → List (List Char)
  | [] => if run.isEmpty then [] else [run.reverse]
  | c :: rest =>
    if isBlank c then
      if run.isEmpty then wordsFrom [] rest else run.reverse :: wordsFrom [] rest
    else wordsFrom (c :: run) rest

/-- The maximal runs of characters that are not blank, in order. -/
def words (cs : List Char) : List (List Char) := wordsFrom [] cs

end Patchbay.Text
