import Patchbay.Proofs.Identifier.Distinct

/-!
# Variables that a script can use

A variable is a word of ASCII letters, digits and underscores.  In C# a reserved word is one behind the
verbatim mark, in Python a keyword is none.

* `Identifier.IsWord` — what a variable looks like, said without the test that `sanitize` makes
* **`Identifier.isIdentifier_iff`** — that test passes words, and words with a line feed after them.
  So a name that ends its line (`Identifier.EndsLine`) counts as an identifier and is no word.
* **`Language.sanitize_usable`** — the result: these names are the only ones that have no word for a
  variable, for they stand as they are.  Marks and keywords are right for all names.
-/

namespace Patchbay.Identifier

/-! ## Words -/

/-- A letter or an underscore, and letters, digits and underscores after it, all of ASCII. -/
def IsWord : List Char → Prop
  | [] => False
  | c :: rest => (c.isAlpha = true ∨ c = '_') ∧ ∀ d ∈ rest, d.isAlphanum = true ∨ d = '_'

instance : DecidablePred IsWord
  | [] => inferInstanceAs (Decidable False)
  | _ :: rest => @instDecidableAnd _ _ _ (List.decidableBAll _ rest)

/-- A word with a line feed after it. -/
def EndsLine (name : List Char) : Prop := ∃ word, IsWord word ∧ name = word ++ ['\n']

theorem isAlpha_iff_toNat {c : Char} :
    c.isAlpha = true ↔ (65 ≤ c.toNat ∧ c.toNat ≤ 90) ∨ (97 ≤ c.toNat ∧ c.toNat ≤ 122) := by
  have hlower : c.isLower = true ↔ 97 ≤ c.toNat ∧ c.toNat ≤ 122 :=
    Bool.and_eq_true_iff.trans (and_congr decide_eq_true_iff decide_eq_true_iff)
  exact Bool.or_eq_true_iff.trans (or_congr decide_eq_true_iff hlower)

theorem isStart_iff {c : Char} : isStart c = true ↔ c.isAlpha = true ∨ c = '_' := by
  have hunderscore : c = '_' ↔ c.toNat = 95 := by
    rw [← Char.toNat_inj]
    rfl
  simp only [isStart, isAlpha_iff_toNat, Bool.or_eq_true, Bool.and_eq_true, decide_eq_true_eq, beq_iff_eq,
    hunderscore]

theorem isAlphanumeric_iff {c : Char} : isAlphanumeric c = true ↔ c.isAlphanum = true := by
  have halphanum : c.isAlphanum = true ↔ c.isAlpha = true ∨ c.isDigit = true := Bool.or_eq_true_iff
  rw [halphanum, isAlpha_iff_toNat, Char.isDigit_iff_toNat]
  simp only [isAlphanumeric, Bool.or_eq_true, Bool.and_eq_true, decide_eq_true_eq]
  rw [or_assoc, or_comm]
  exact Iff.rfl

theorem isPart_iff {c : Char} : isPart c = true ↔ c.isAlphanum = true ∨ c = '_' := by
  rw [isPart, Bool.or_eq_true, isAlphanumeric_iff, beq_iff_eq]

theorem isWord_cons {c : Char} {rest : List Char} :
    IsWord (c :: rest) ↔ isStart c = true ∧ ∀ d ∈ rest, isPart d = true := by
  simp only [IsWord, isStart_iff, isPart_iff]

/-- A line feed is no part of a word. -/
theorem not_isWord_concat_feed (word : List Char) : ¬ IsWord (word ++ ['\n']) := by
  intro h
  cases word with
  | nil => exact absurd h (by decide)
  | cons c rest => exact absurd ((isWord_cons.mp h).2 '\n' (by simp)) (by decide)

theorem EndsLine.not_isWord {name : List Char} (h : EndsLine name) : ¬ IsWord name := by
  obtain ⟨word, -, rfl⟩ := h
  exact not_isWord_concat_feed word

/-! ## What passes as an identifier -/

theorem endsIdentifier_iff {cs : List Char} :
    endsIdentifier cs = true ↔
      (∀ c ∈ cs, isPart c = true) ∨ ∃ parts, (∀ c ∈ parts, isPart c = true) ∧ cs = parts ++ ['\n'] := by
  fun_induction endsIdentifier cs with
  | case1 => simp
  | case2 => exact iff_of_true rfl (.inr ⟨[], List.forall_mem_nil _, rfl⟩)
  | case3 c rest hfeed ih =>
      rw [Bool.and_eq_true, ih]
      constructor
      · rintro ⟨hc, hrest | ⟨parts, hparts, rfl⟩⟩
        · exact .inl (List.forall_mem_cons.mpr ⟨hc, hrest⟩)
        · exact .inr ⟨c :: parts, List.forall_mem_cons.mpr ⟨hc, hparts⟩, rfl⟩
      · rintro (hall | ⟨parts, hparts, heq⟩)
        · rw [List.forall_mem_cons] at hall
          exact ⟨hall.1, .inl hall.2⟩
        · cases parts with
          | nil =>
              obtain ⟨rfl, rfl⟩ := List.cons.inj heq
              exact absurd rfl (hfeed rfl)
          | cons p parts =>
              obtain ⟨rfl, rfl⟩ := List.cons.inj heq
              rw [List.forall_mem_cons] at hparts
              exact ⟨hparts.1, .inr ⟨parts, hparts.2, rfl⟩⟩

/-- **What passes as an identifier**: a word, or a word with a line feed after it. -/
theorem isIdentifier_iff {cs : List Char} : isIdentifier cs = true ↔ IsWord cs ∨ EndsLine cs := by
  cases cs with
  | nil => simp [isIdentifier, IsWord, EndsLine]
  | cons c rest =>
      rw [isIdentifier, Bool.and_eq_true, endsIdentifier_iff, and_or_left, isWord_cons]
      refine or_congr_right ⟨?_, ?_⟩
      · rintro ⟨hc, parts, hparts, rfl⟩
        exact ⟨c :: parts, isWord_cons.mpr ⟨hc, hparts⟩, rfl⟩
      · rintro ⟨word, hword, heq⟩
        cases word with
        | nil => exact hword.elim
        | cons w parts =>
            obtain ⟨rfl, rfl⟩ := List.cons.inj heq
            exact ⟨(isWord_cons.mp hword).1, parts, (isWord_cons.mp hword).2, rfl⟩

/-- An identifier is a word unless it ends its line. -/
theorem isWord_iff_of_isIdentifier {cs : List Char} (h : isIdentifier cs = true) :
    IsWord cs ↔ ¬ EndsLine cs :=
  ⟨fun hword hends => hends.not_isWord hword, (isIdentifier_iff.mp h).resolve_right⟩

/-! ## The two kinds of variables -/

/-- An escaped form is a word behind a start of its own. -/
theorem isWord_escaped {c : Char} {front : List Char} (hfront : IsWord (c :: front)) (name : List Char) :
    IsWord (c :: front ++ escape name) := by
  rw [List.cons_append, isWord_cons]
  rw [isWord_cons] at hfront
  refine ⟨hfront.1, fun d hd => ?_⟩
  rcases List.mem_append.mp hd with hd | hd
  · exact hfront.2 d hd
  · exact isPart_escape name d hd

theorem lettered_pythonKeywords : ∀ word ∈ pythonKeywords, Lettered word := by
  unfold pythonKeywords
  repeat refine List.forall_mem_cons.mpr ⟨⟨_, rfl, rfl⟩, ?_⟩
  exact List.forall_mem_nil _

/-- A name that ends its line is in no list of words that consist of letters. -/
theorem EndsLine.contains_eq_false {name : List Char} (h : EndsLine name) {words : List String}
    (hwords : ∀ word ∈ words, Lettered word) :
    words.contains (String.ofList name) = false := by
  obtain ⟨word, -, rfl⟩ := h
  rw [← Bool.not_eq_true, List.contains_iff_mem]
  exact notMem_of_lettered hwords (List.mem_append_right _ List.mem_cons_self) (by decide)

theorem isWord_sanitizeChars_csharp_iff (name : List Char) :
    IsWord (stripVerbatim (sanitizeChars .csharp name)) ↔ ¬ EndsLine name := by
  rw [stripVerbatim_sanitizeChars]
  split
  · next hid => exact isWord_iff_of_isIdentifier hid
  · next hid =>
    exact iff_of_true (isWord_escaped (by decide : IsWord ['_', '_']) name)
      fun hends => hid (isIdentifier_iff.mpr (.inr hends))

/-- A reserved word is behind the mark. -/
theorem sanitizeChars_csharp_of_reserved {name : List Char}
    (h : String.ofList (stripVerbatim (sanitizeChars .csharp name)) ∈ csharpReserved) :
    sanitizeChars .csharp name = '@' :: stripVerbatim (sanitizeChars .csharp name) := by
  rw [stripVerbatim_sanitizeChars] at h ⊢
  split at h
  · next hid =>
    rw [if_pos hid, sanitizeChars, if_pos hid, if_pos (List.contains_iff_mem.mpr h)]
  · exact absurd h (notMem_of_lettered lettered_csharpReserved (List.mem_cons_self : '_' ∈ _) (by decide))

theorem sanitizeChars_csharp_of_endsLine {name : List Char} (h : EndsLine name) :
    sanitizeChars .csharp name = name := by
  rw [sanitizeChars, if_pos (isIdentifier_iff.mpr (.inr h)), h.contains_eq_false lettered_csharpReserved]
  rfl

/-- A name that ends its line is its own variable in Python unless it looks escaped. -/
theorem sanitizeChars_python_of_endsLine {name : List Char} (h : EndsLine name) :
    sanitizeChars .python name =
      if pythonEscape.isPrefixOf name then pythonEscape ++ escape name else name := by
  have hid : isIdentifier name = true := isIdentifier_iff.mpr (.inr h)
  unfold sanitizeChars
  dsimp only
  rw [hid, h.contains_eq_false lettered_pythonKeywords]
  cases pythonEscape.isPrefixOf name <;> rfl

theorem isWord_sanitizeChars_python_iff (name : List Char) :
    IsWord (sanitizeChars .python name) ↔ ¬ (EndsLine name ∧ pythonEscape.isPrefixOf name = false) := by
  have hescaped : IsWord (pythonEscape ++ escape name) :=
    isWord_escaped (by decide : IsWord ('_' :: "_gh_".toList)) name
  by_cases hends : EndsLine name
  · rw [sanitizeChars_python_of_endsLine hends]
    split
    · next hmarked => simpa [hmarked] using hescaped
    · next hmarked => simpa [hmarked, hends] using hends.not_isWord
  · refine iff_of_true ?_ fun h => hends h.1
    unfold sanitizeChars
    dsimp only
    split
    · next hplain =>
      rw [Bool.and_eq_true, Bool.and_eq_true] at hplain
      exact (isWord_iff_of_isIdentifier hplain.1.1).mpr hends
    · exact hescaped

theorem sanitizeChars_python_notMem (name : List Char) :
    String.ofList (sanitizeChars .python name) ∉ pythonKeywords := by
  unfold sanitizeChars
  dsimp only
  split
  · next hplain =>
    rw [Bool.and_eq_true, Bool.and_eq_true, Bool.not_eq_true', ← Bool.not_eq_true,
      List.contains_iff_mem] at hplain
    exact hplain.1.2
  · exact notMem_of_lettered lettered_pythonKeywords (List.mem_cons_self : '_' ∈ _) (by decide)

end Patchbay.Identifier

namespace Patchbay.Language

open Identifier

/-- **The variable for a display name is one that a script can use**, unless the name is a word with a
line feed after it, which stands as it is (in Python, where it does not begin as an escaped form).  In
C# a variable that is a reserved word has the verbatim mark, and in Python none is a keyword. -/
theorem sanitize_usable (name : String) :
    (IsWord (stripVerbatim (csharp.sanitize name).toList) ↔ ¬ EndsLine name.toList) ∧
      (String.ofList (stripVerbatim (csharp.sanitize name).toList) ∈ csharpReserved →
        (csharp.sanitize name).toList = '@' :: stripVerbatim (csharp.sanitize name).toList) ∧
      (IsWord (python.sanitize name).toList ↔
        ¬ (EndsLine name.toList ∧ pythonEscape.isPrefixOf name.toList = false)) ∧
      python.sanitize name ∉ pythonKeywords ∧
      (EndsLine name.toList → csharp.sanitize name = name ∧
        (pythonEscape.isPrefixOf name.toList = false → python.sanitize name = name)) := by
  unfold sanitize
  simp only [String.toList_ofList]
  refine ⟨isWord_sanitizeChars_csharp_iff _, sanitizeChars_csharp_of_reserved,
    isWord_sanitizeChars_python_iff _, sanitizeChars_python_notMem _, fun hends => ⟨?_, fun hplain => ?_⟩⟩
  · rw [sanitizeChars_csharp_of_endsLine hends, String.ofList_toList]
  · rw [sanitizeChars_python_of_endsLine hends, hplain]
    exact String.ofList_toList

/-- A letter with a line feed after it is left as it is, in C# and in Python. -/
theorem sanitize_letterLine : ¬ IsWord (stripVerbatim (csharp.sanitize "a\n").toList) ∧
    ¬ IsWord (python.sanitize "a\n").toList := by
  decide +kernel

end Patchbay.Language
