import Patchbay.Text.CaseTable

/-!
# Letter case

* `lower` — the lower-case form of a text, by which names are compared
* `upperAscii` — the upper-case form of a text, as far as it can be an ASCII word

A capital sigma becomes a final sigma at the end of a word, and the capital I with a dot becomes
two characters; every other character is replaced on its own.
-/

namespace Patchbay.Text

/-- Whether `n` lies in one of `ranges`. -/
def inRanges (ranges : List (Nat × Nat)) (n : Nat) : Bool :=
  ranges.any fun (first, last) => first ≤ n && n ≤ last

/-- The letters with case. -/
def isCased (c : Char) : Bool := inRanges casedRanges c.toNat

/-- The characters that are passed over in the search for a neighbouring letter. -/
def isCaseIgnorable (c : Char) : Bool := inRanges caseIgnorableRanges c.toNat

/-- The lower-case partner of a character, if it is one character. -/
def lowerChar (c : Char) : Char :=
  let n := c.toNat
  if n < 128 then
    if 65 ≤ n && n ≤ 90 then Char.ofNat (n + 32) else c
  else
    match lowerRuns.find? fun run => run.first ≤ n && n ≤ run.last && (n - run.first) % run.step == 0
    with
    | some run => Char.ofNat ((n : Int) + run.shift).toNat
    | none => c

/-- The first character that is not passed over is a letter with case. -/
def meetsCased (cs : List Char) : Bool :=
  match cs.dropWhile isCaseIgnorable with
  | [] => false
  | c :: _ => isCased c

/-- Lower-cases a text; `before` holds the characters already passed, the nearest first. -/
def lowerFrom (before : List Char) : List Char → List Char
  | [] => []
  | c :: rest =>
    let out :=
      if c == 'Σ' then
        if meetsCased before && !meetsCased rest then ['ς'] else ['σ']
      else if c == 'İ' then ['i', '\u0307']
      else [lowerChar c]
    out ++ lowerFrom (c :: before) rest

/-- The lower-case form of a text. -/
def lowerChars (cs : List Char) : List Char := lowerFrom [] cs

/-- The lower-case form of a text. -/
def lower (s : String) : String := String.ofList (lowerChars s.toList)

/-- The upper-case form of a character as far as it consists of ASCII letters; a character whose
upper-case form has others stays as it is, so that the result is no ASCII word either way. -/
def upperAsciiChar (c : Char) : List Char :=
  let n := c.toNat
  if 97 ≤ n && n ≤ 122 then [Char.ofNat (n - 32)]
  else if c == 'ß' then ['S', 'S']
  else if c == 'ı' then ['I']
  else if c == 'ſ' then ['S']
  else if c == 'ﬀ' then ['F', 'F']
  else if c == 'ﬁ' then ['F', 'I']
  else if c == 'ﬂ' then ['F', 'L']
  else if c == 'ﬃ' then ['F', 'F', 'I']
  else if c == 'ﬄ' then ['F', 'F', 'L']
  else if c == 'ﬅ' || c == 'ﬆ' then ['S', 'T']
  else [c]

/-- The upper-case form of a text, exact wherever it can be an ASCII word. -/
def upperAscii (cs : List Char) : List Char := cs.flatMap upperAsciiChar

end Patchbay.Text
