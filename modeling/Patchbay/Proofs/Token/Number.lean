import Patchbay.Token.Number
import Patchbay.Proofs.Double.Text
import Patchbay.Proofs.Text.Cutting

/-!
# Numbers in tokens read back

A payload joins numbers with separators that no number contains, so splitting it gives the numbers
back (`Text.splitOn_append`).  What is read for a number is the number itself, up to the sign of zero.

* **`writeNumber_spec`, `writeInteger_spec`** — one number is written and read back.
* **`writeTriple_spec`, `writePair_spec`** — groups of numbers, which again contain no separator of
  groups.
-/

namespace Patchbay

open Double

/-! ## Characters of numbers -/

namespace Double

theorem IsNumberChar.isBlank {c : Char} (h : IsNumberChar c) : Text.isBlank c = false := by
  rcases h with hdigit | hmark
  · simp only [Text.isAsciiDigit, Bool.and_eq_true, decide_eq_true_eq] at hdigit
    simp only [Text.isBlank]
    generalize c.toNat = n at hdigit
    simp
    omega
  · simp only [List.mem_cons, List.not_mem_nil, or_false] at hmark
    rcases hmark with rfl | rfl | rfl | rfl <;> decide

/-- A character that is no digit, point, sign or mark of an exponent stands in no number. -/
theorem notMem_of_isNumberChar {cs : List Char} (h : ∀ c ∈ cs, IsNumberChar c) {sep : Char}
    (hsep : Text.isAsciiDigit sep = false ∧ sep ∉ ['.', 'e', '+', '-']) : sep ∉ cs := by
  intro hmem
  rcases h sep hmem with hdigit | hmark
  · rw [hsep.1] at hdigit
    exact absurd hdigit (by simp)
  · exact hsep.2 hmark

end Double

namespace Token

/-! ## Single numbers -/

/-- **A finite double is written and read back**, with the characters of numbers only. -/
theorem writeNumber_spec {x : Float} (h : isFinite x) :
    ∃ s y, writeNumber x = .ok s ∧ (∀ c ∈ s.toList, IsNumberChar c)
      ∧ readNumber s.toList = .ok y ∧ SameNumber y x := by
  have hchars := isNumberChar_text (show inToken.places = none from rfl) h
  obtain ⟨n, hparse, hsame⟩ := parse?_text (show inToken.places = none from rfl) h
  have htrim : Text.trimChars (text inToken x).toList = (text inToken x).toList :=
    Text.trimBy_eq_self fun c hc => (hchars c hc).isBlank
  refine ⟨text inToken x, n.toFloat, by rw [writeNumber, if_pos h], hchars, ?_, hsame⟩
  rw [readNumber, htrim, hparse]

theorem dropUnderscores?_of_digits {before : Option Char} {cs : List Char} (h : '_' ∉ cs) :
    dropUnderscores? Text.isDigit before cs = some cs := by
  induction cs generalizing before with
  | nil => rfl
  | cons c rest ih =>
      have hc : c ≠ '_' := fun heq => h (by simp [heq])
      have hrest : '_' ∉ rest := fun hmem => h (by simp [hmem])
      rw [dropUnderscores?, ih hrest]
      · rfl
      · exact hc

/-- How an integer is read from a text without blanks at its ends and without underscores. -/
theorem readInt?_of_trimmed {cs digits : List Char} {negative : Bool} (htrimmed : Text.Trimmed cs) (h : '_' ∉ cs)
    (hsign : Numeral.sign cs = (negative, digits)) :
    readInt? cs =
      if digits.isEmpty || !digits.all Text.isDigit || integerDigitLimit < digits.length then none
      else some (if negative then -(Text.natOfDigits digits : Int) else Text.natOfDigits digits) := by
  have hkept : ∀ c, Text.isBlank c = false → Text.isNumberBlank c = false := fun c hc => by
    rw [Text.isNumberBlank, hc, Bool.false_and]
  have htrim : Text.trimBy Text.isNumberBlank cs = cs :=
    Text.trimBy_of_bare (fun c hc => hkept c (htrimmed.1 c hc)) fun c hc => hkept c (htrimmed.2 c hc)
  rw [readInt?, readIntUpTo?, htrim, dropUnderscores?_of_digits h]
  simp only [Option.bind_eq_bind, Option.bind_some]
  rw [hsign]
  rfl

theorem integerText_toList (i : Int) :
    (Text.integerText i).toList
      = if decide (i < 0) then '-' :: Text.digitsOfNat i.natAbs else Text.digitsOfNat i.natAbs := by
  cases i with
  | ofNat n => simp [Text.integerText]
  | negSucc n => simp [Text.integerText]

theorem isNumberChar_integerText (i : Int) :
    ∀ c ∈ (Text.integerText i).toList, IsNumberChar c := by
  intro c hc
  rw [integerText_toList] at hc
  split at hc
  · rcases List.mem_cons.mp hc with rfl | hc
    · exact Or.inr (by simp)
    · exact Or.inl (Text.isAsciiDigit_of_mem_digitsOfNat hc)
  · exact Or.inl (Text.isAsciiDigit_of_mem_digitsOfNat hc)

theorem sign_integerText (i : Int) :
    Numeral.sign (Text.integerText i).toList = (decide (i < 0), Text.digitsOfNat i.natAbs) := by
  obtain ⟨c, rest, hdigits⟩ := List.exists_cons_of_ne_nil (Text.digitsOfNat_ne_nil i.natAbs)
  have hc : Text.isAsciiDigit c :=
    Text.isAsciiDigit_of_mem_digitsOfNat (n := i.natAbs) (by rw [hdigits]; simp)
  rw [integerText_toList, hdigits]
  exact sign_signed hc rest _

theorem readInt?_integerText {i : Int} (h : Text.digitCount i.natAbs ≤ integerDigitLimit) :
    readInt? (Text.integerText i).toList = some i := by
  have hchars := isNumberChar_integerText i
  have htrimmed : Text.Trimmed (Text.integerText i).toList := Text.trimmed_of_notBlank fun c hc => (hchars c hc).isBlank
  have hunderscore : '_' ∉ (Text.integerText i).toList :=
    notMem_of_isNumberChar hchars (by decide)
  have hne : (Text.digitsOfNat i.natAbs).isEmpty = false := by
    simpa using Text.digitsOfNat_ne_nil i.natAbs
  have hdigits : (Text.digitsOfNat i.natAbs).all Text.isDigit = true :=
    List.all_eq_true.mpr fun c hc => Text.isDigit_of_mem_digitsOfNat hc
  have hlength : ¬ integerDigitLimit < (Text.digitsOfNat i.natAbs).length := Nat.not_lt.mpr h
  rw [readInt?_of_trimmed htrimmed hunderscore (sign_integerText i)]
  simp only [hne, hdigits, hlength, Text.natOfDigits_digitsOfNat, decide_false, Bool.not_true,
    Bool.or_self, Bool.false_eq_true, if_false, decide_eq_true_eq, Option.some.injEq]
  split <;> omega

/-- **An integer that is written is read back.**  Without the bound on its digits it is neither
written nor read. -/
theorem readInteger_integerText {i : Int} (h : Text.digitCount i.natAbs ≤ integerDigitLimit) :
    readInteger (Text.integerText i).toList = .ok i := by
  have htrim : Text.trimChars (Text.integerText i).toList = (Text.integerText i).toList :=
    Text.trimBy_eq_self fun c hc => (isNumberChar_integerText i c hc).isBlank
  have hne : (Text.digitsOfNat i.natAbs).isEmpty = false := by
    simpa using Text.digitsOfNat_ne_nil i.natAbs
  have hdigits : (Text.digitsOfNat i.natAbs).all Text.isDigit = true :=
    List.all_eq_true.mpr fun c hc => Text.isDigit_of_mem_digitsOfNat hc
  have hshape : isIntegerText (Text.integerText i).toList = true := by
    rw [isIntegerText, sign_integerText]
    dsimp only
    rw [hne, hdigits]
    rfl
  rw [readInteger, htrim, hshape, if_pos rfl, readInt?_integerText h]

theorem writeInteger_eq {i : Int} (h : Text.digitCount i.natAbs ≤ integerDigitLimit) :
    writeInteger i = .ok (Text.integerText i) := by
  rw [writeInteger, if_neg (Nat.not_lt.mpr h)]

/-! ## Groups of numbers -/

/-- Three numbers in one group are read back, and the group contains no other separator. -/
theorem writeTriple_spec {x y z : Float} (hx : isFinite x) (hy : isFinite y) (hz : isFinite z) :
    ∃ s x' y' z', writeTriple x y z = .ok s ∧ ';' ∉ s.toList
      ∧ readFields ',' s.toList = .ok [x', y', z']
      ∧ SameNumber x' x ∧ SameNumber y' y ∧ SameNumber z' z := by
  obtain ⟨sx, x', hwx, hcx, hrx, hsx⟩ := writeNumber_spec hx
  obtain ⟨sy, y', hwy, hcy, hry, hsy⟩ := writeNumber_spec hy
  obtain ⟨sz, z', hwz, hcz, hrz, hsz⟩ := writeNumber_spec hz
  have hlist : (sx ++ "," ++ sy ++ "," ++ sz).toList
      = sx.toList ++ ',' :: (sy.toList ++ ',' :: sz.toList) := by
    simp [String.toList_append]
  refine ⟨sx ++ "," ++ sy ++ "," ++ sz, x', y', z', ?_, ?_, ?_, hsx, hsy, hsz⟩
  · rw [writeTriple, hwx, hwy, hwz]
    rfl
  · have hsemi : ∀ s : String, (∀ c ∈ s.toList, IsNumberChar c) → ';' ∉ s.toList :=
      fun s hs => notMem_of_isNumberChar hs (by decide)
    rw [hlist]
    simp [hsemi sx hcx, hsemi sy hcy, hsemi sz hcz]
  · have hcomma : ∀ s : String, (∀ c ∈ s.toList, IsNumberChar c) → ',' ∉ s.toList :=
      fun s hs => notMem_of_isNumberChar hs (by decide)
    rw [readFields, hlist, Text.splitOn_append (hcomma sx hcx), Text.splitOn_append (hcomma sy hcy),
      Text.splitOn_of_notMem (hcomma sz hcz)]
    simp [hrx, hry, hrz]
    rfl

/-- Two numbers around a separator are read back. -/
theorem readPair_spec {x y : Float} (hx : isFinite x) (hy : isFinite y) {sep : Char}
    (hsep : Text.isAsciiDigit sep = false ∧ sep ∉ ['.', 'e', '+', '-']) :
    ∃ sx sy x' y', writeNumber x = .ok sx ∧ writeNumber y = .ok sy
      ∧ readPair sep (sx ++ String.singleton sep ++ sy).toList = .ok (x', y')
      ∧ SameNumber x' x ∧ SameNumber y' y := by
  obtain ⟨sx, x', hwx, hcx, hrx, hsx⟩ := writeNumber_spec hx
  obtain ⟨sy, y', hwy, hcy, hry, hsy⟩ := writeNumber_spec hy
  refine ⟨sx, sy, x', y', hwx, hwy, ?_, hsx, hsy⟩
  have hlist : (sx ++ String.singleton sep ++ sy).toList = sx.toList ++ sep :: sy.toList := by
    simp [String.toList_append]
  rw [readPair, readFields, hlist, Text.splitOn_append (notMem_of_isNumberChar hcx hsep),
    Text.splitOn_of_notMem (notMem_of_isNumberChar hcy hsep)]
  simp [hrx, hry]
  rfl

end Token

end Patchbay
