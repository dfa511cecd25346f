import Patchbay.Identifier.Dialect
import Mathlib.Algebra.Group.Nat.Defs

/-!
# Display names survive the way through identifiers

A display name becomes a variable (`Language.sanitize`), and the variable is
shown under a display name again (`Language.unsanitize`).  The two together
lose nothing, in every script language and for every name.

Three facts carry that, and they are proved here.

* **Digits of a fixed width are read back.**  `hexDigits` peels digits off at
  the right and the reader takes them from the left, so the induction needs the
  front digit of a run (`hexDigits_succ`).
* **One escape is read whatever follows it** (`unescapeFrom_escapeChar`).  The
  rest of the text is arbitrary, which is what makes the induction over a name
  go through.
* **The branches do not overlap.**  A variable that is a plain identifier never
  begins with what introduces an escaped form, so it is never decoded.
-/

namespace Patchbay.Identifier

/-! ## Hexadecimal digits -/

/-- A digit is read back as the number it was written for. -/
theorem hexValue?_hexDigit {n : Nat} (h : n < 16) : hexValue? (hexDigit n) = some n := by
  have hall : ∀ m < 16, hexValue? (hexDigit m) = some m := by decide
  exact hall n h

/-- No digit is one of the two marks that announce a wider escape. -/
theorem hexDigit_ne_mark {n : Nat} (h : n < 16) : hexDigit n ≠ 'u' ∧ hexDigit n ≠ 'U' := by
  have hall : ∀ m < 16, hexDigit m ≠ 'u' ∧ hexDigit m ≠ 'U' := by decide
  exact hall n h

/-- The front digit of a run. -/
theorem hexDigits_succ (width n : Nat) :
    hexDigits (width + 1) n = hexDigit (n / 16 ^ width % 16) :: hexDigits width n := by
  induction width generalizing n with
  | zero => simp [hexDigits]
  | succ width ih =>
      rw [hexDigits, ih (n / 16), Nat.div_div_eq_div_mul, ← Nat.pow_succ', List.cons_append]
      rfl

/-- A run of digits adds the number it writes to what was read before it. -/
theorem unescapeFrom_hexDigits (left : Nat) :
    ∀ (value n : Nat) {c : Char} (rest : List Char),
      charOf (16 ^ (left + 1) * value + n % 16 ^ (left + 1)) = .ok c →
        unescapeFrom (.digits left value) (hexDigits (left + 1) n ++ rest) =
          (unescapeFrom .plain rest).map (c :: ·) := by
  induction left with
  | zero =>
      intro value n c rest hc
      have hdigit : n / 16 ^ 0 % 16 < 16 := Nat.mod_lt _ (by decide)
      have hvalue : 16 * value + n / 16 ^ 0 % 16 = 16 ^ (0 + 1) * value + n % 16 ^ (0 + 1) := by
        simp
      rw [hexDigits_succ, List.cons_append, unescapeFrom, hexValue?_hexDigit hdigit]
      simp only [hvalue, hc]
      rfl
  | succ left ih =>
      intro value n c rest hc
      have hdigit : n / 16 ^ (left + 1) % 16 < 16 := Nat.mod_lt _ (by decide)
      have hvalue :
          16 ^ (left + 1) * (16 * value + n / 16 ^ (left + 1) % 16) + n % 16 ^ (left + 1) =
            16 ^ (left + 1 + 1) * value + n % 16 ^ (left + 1 + 1) := by
        rw [Nat.pow_succ 16 (left + 1), Nat.mod_mul, Nat.mul_add, Nat.mul_assoc]
        omega
      rw [hexDigits_succ, List.cons_append, unescapeFrom, hexValue?_hexDigit hdigit]
      simp only
      exact ih _ n rest (by rw [hvalue, hc])

/-! ## Escapes -/

theorem charOf_toNat (c : Char) : charOf c.toNat = .ok c := by
  have hvalid : c.toNat.isValidChar := c.valid
  simp [charOf, hvalid]

/-- The number of a character that an escape of a given width holds is read back
in full. -/
theorem charOf_run {c : Char} {width : Nat} (h : c.toNat < 16 ^ width) :
    charOf (16 ^ width * 0 + c.toNat % 16 ^ width) = .ok c := by
  rw [Nat.mul_zero, Nat.zero_add, Nat.mod_eq_of_lt h, charOf_toNat]

theorem ne_underscore_of_isAlphanumeric {c : Char} (h : isAlphanumeric c = true) : c ≠ '_' := by
  rintro rfl
  exact absurd h (by decide)

/-- **One escape is read back**, whatever follows it. -/
theorem unescapeFrom_escapeChar (c : Char) (rest : List Char) :
    unescapeFrom .plain (escapeChar c ++ rest) = (unescapeFrom .plain rest).map (c :: ·) := by
  unfold escapeChar
  by_cases halnum : isAlphanumeric c = true
  · simp [halnum, unescapeFrom, ne_underscore_of_isAlphanumeric halnum]
  · have hpow : (16 : Nat) ^ 2 = 0x100 ∧ (16 : Nat) ^ 4 = 0x10000 ∧
        (16 : Nat) ^ 8 = 0x100000000 := by decide
    have hlt : c.toNat < 0x110000 := by
      rcases c.valid with h | h
      · exact Nat.lt_trans h (by decide)
      · exact h.2
    simp only [halnum, Bool.false_eq_true, if_false]
    split
    · -- The first digit of the short escape is read together with its mark.
      next hshort =>
        have hfront : c.toNat / 16 % 16 < 16 := Nat.mod_lt _ (by decide)
        obtain ⟨hu, hU⟩ := hexDigit_ne_mark hfront
        have hmark : unescapeFrom .plain ('_' :: hexDigits 2 c.toNat ++ rest) =
            unescapeFrom (.digits 0 (c.toNat / 16 % 16)) (hexDigits 1 c.toNat ++ rest) := by
          rw [hexDigits_succ, Nat.pow_one]
          simp [unescapeFrom, hu, hU, hexValue?_hexDigit hfront]
        rw [hmark]
        refine unescapeFrom_hexDigits 0 _ _ rest ?_
        have hvalue : 16 ^ (0 + 1) * (c.toNat / 16 % 16) + c.toNat % 16 ^ (0 + 1) = c.toNat := by
          omega
        rw [hvalue, charOf_toNat]
    · split
      · next hlong =>
          have hmark : unescapeFrom .plain ('_' :: 'u' :: hexDigits 4 c.toNat ++ rest) =
              unescapeFrom (.digits 3 0) (hexDigits 4 c.toNat ++ rest) := by
            simp [unescapeFrom]
          rw [hmark]
          exact unescapeFrom_hexDigits 3 _ _ rest (charOf_run (by omega))
      · have hmark : unescapeFrom .plain ('_' :: 'U' :: hexDigits 8 c.toNat ++ rest) =
            unescapeFrom (.digits 7 0) (hexDigits 8 c.toNat ++ rest) := by
          simp [unescapeFrom]
        rw [hmark]
        exact unescapeFrom_hexDigits 7 _ _ rest (charOf_run (by omega))

/-- **An escaped name is read back.** -/
theorem unescape_escape (name : List Char) : unescape (escape name) = .ok name := by
  unfold unescape
  induction name with
  | nil => rfl
  | cons c name ih =>
      rw [escape_cons, unescapeFrom_escapeChar, ih]
      rfl

/-! ## The two kinds of variables -/

theorem isStart_ne_at {c : Char} (h : isStart c = true) : c ≠ '@' := by
  rintro rfl
  exact absurd h (by decide)

/-- A plain identifier does not begin with the verbatim mark. -/
theorem stripVerbatim_of_isIdentifier {name : List Char} (h : isIdentifier name = true) :
    stripVerbatim name = name := by
  cases name with
  | nil => rfl
  | cons c rest =>
      rw [isIdentifier, Bool.and_eq_true] at h
      unfold stripVerbatim
      split
      · next heq =>
          rw [List.cons.injEq] at heq
          exact absurd heq.1 (isStart_ne_at h.1)
      · rfl

theorem afterText?_csharpEscape_of_isIdentifier {name : List Char}
    (h : isIdentifier name = true) : Text.afterText? csharpEscape name = none := by
  cases hafter : Text.afterText? csharpEscape name with
  | none => rfl
  | some body =>
      have hname : name = '@' :: ('_' :: '_' :: body) := Text.afterText?_eq_some hafter
      rw [hname] at h
      simp [isIdentifier, isStart] at h

/-- A word that consists of letters. -/
def Lettered (word : String) : Prop :=
  ∃ letters : List Char, word = String.ofList letters ∧ letters.all Char.isAlpha = true

/-- A name with another character is in no list of words that consist of letters. -/
theorem notMem_of_lettered {words : List String} (hwords : ∀ word ∈ words, Lettered word) {name : List Char}
    {c : Char} (hc : c ∈ name) (hother : c.isAlpha = false) : String.ofList name ∉ words := by
  intro hmem
  obtain ⟨letters, hname, hletters⟩ := hwords _ hmem
  rw [String.ofList_inj] at hname
  rw [← hname, List.all_eq_true] at hletters
  exact absurd (hletters c hc) (Bool.eq_false_iff.mp hother)

theorem lettered_csharpReserved : ∀ word ∈ csharpReserved, Lettered word := by
  -- word by word, since evaluating all of them would decode their bytes
  unfold csharpReserved
  repeat refine List.forall_mem_cons.mpr ⟨⟨_, rfl, rfl⟩, ?_⟩
  exact List.forall_mem_nil _

/-- No reserved word begins as an escaped form does after its verbatim mark. -/
theorem afterText?_csharpEscape_of_reserved {name : List Char}
    (h : csharpReserved.contains (String.ofList name) = true) :
    Text.afterText? csharpEscape ('@' :: name) = none := by
  cases hafter : Text.afterText? csharpEscape ('@' :: name) with
  | none => rfl
  | some body =>
      have hname : '@' :: name = '@' :: ('_' :: '_' :: body) := Text.afterText?_eq_some hafter
      have hunderscore : '_' ∈ name := by
        rw [(List.cons.inj hname).2]
        exact List.mem_cons_self
      exact absurd (List.contains_iff_mem.mp h) (notMem_of_lettered lettered_csharpReserved hunderscore (by decide))

theorem afterText?_pythonEscape_of_not_prefix {name : List Char}
    (h : pythonEscape.isPrefixOf name = false) : Text.afterText? pythonEscape name = none := by
  cases hafter : Text.afterText? pythonEscape name with
  | none => rfl
  | some body =>
      have hprefix : pythonEscape.isPrefixOf name = true := by
        rw [Text.afterText?_eq_some hafter]
        simp
      rw [h] at hprefix
      exact absurd hprefix (by decide)

theorem unsanitizeChars_csharp_escape (name : List Char) :
    unsanitizeChars .csharp (csharpEscape ++ escape name) = .ok name := by
  simp [unsanitizeChars, Text.afterText?_append, unescape_escape]

theorem unsanitizeChars_python_escape (name : List Char) :
    unsanitizeChars .python (pythonEscape ++ escape name) = .ok name := by
  simp [unsanitizeChars, Text.afterText?_append, unescape_escape]

theorem unsanitizeChars_sanitizeChars_csharp (name : List Char) :
    unsanitizeChars .csharp (sanitizeChars .csharp name) = .ok name := by
  unfold sanitizeChars
  by_cases hid : isIdentifier name = true
  · by_cases hreserved : csharpReserved.contains (String.ofList name) = true
    · simp only [hid, hreserved, if_true, unsanitizeChars,
        afterText?_csharpEscape_of_reserved hreserved]
      rfl
    · simp only [hid, hreserved, if_true, Bool.false_eq_true, if_false, unsanitizeChars,
        afterText?_csharpEscape_of_isIdentifier hid, stripVerbatim_of_isIdentifier hid]
  · simp only [hid, Bool.false_eq_true, if_false]
    exact unsanitizeChars_csharp_escape name

theorem unsanitizeChars_sanitizeChars_python (name : List Char) :
    unsanitizeChars .python (sanitizeChars .python name) = .ok name := by
  unfold sanitizeChars
  simp only
  split
  · next hplain =>
      rw [Bool.and_eq_true, Bool.and_eq_true, Bool.not_eq_true', Bool.not_eq_true'] at hplain
      simp only [unsanitizeChars, afterText?_pythonEscape_of_not_prefix hplain.2]
  · exact unsanitizeChars_python_escape name

end Patchbay.Identifier

namespace Patchbay.Language

/-- **Display names survive identifier mapping**: in every script language, the
variable for a name is shown under that name again. -/
theorem unsanitize_sanitize (language : Language) (name : String) :
    language.unsanitize (language.sanitize name) = .ok name := by
  have hchars : Identifier.unsanitizeChars language
      (Identifier.sanitizeChars language name.toList) = .ok name.toList := by
    cases language with
    | csharp => exact Identifier.unsanitizeChars_sanitizeChars_csharp name.toList
    | python => exact Identifier.unsanitizeChars_sanitizeChars_python name.toList
    | vb => rfl
  rw [unsanitize, sanitize, String.toList_ofList, hchars]
  exact congrArg Except.ok String.ofList_toList

end Patchbay.Language

