import Patchbay.DataTree
import Patchbay.Proofs.Text.Cutting
import Patchbay.Proofs.Token.Number

/-!
# Paths in any texts

A path is read from whatever text a document has for it.  The elements that write integers count, and others are to
be passed over.  **Two grammars decide on an element**: one tells whether it looks like an integer, another reads it,
and they do not agree on all texts.

* `Unindexed` — a text without the indices in it, and `Elements` — what the elements of a text are
* `Denotes` — the integers: decimal digits of any script, with a minus sign or without
* **`Deceives`** — what looks like an integer and is none
* `readElement_cases` — an element is read, refused or passed over, and which of them.
* `Picks` — the integers among the elements, in their order
* **`readPath_picks`** — the result, for all texts: the path of the integers, or a fault if an element deceives
-/

namespace Patchbay.DataTree

/-! ## The elements of a text -/

/-- A text without the indices in it: an opening parenthesis, decimal digits, and a closing one. -/
inductive Unindexed : List Char → List Char → Prop
  | nil : Unindexed [] []
  | index {digits rest bare : List Char} (hne : digits ≠ []) (hdigits : ∀ c ∈ digits, Text.isDigit c = true)
      (hrest : Unindexed rest bare) : Unindexed ('(' :: (digits ++ ')' :: rest)) bare
  /-- A character with which no index begins. -/
  | keep {c : Char} {rest bare : List Char}
      (hkeep : ∀ digits after, digits ≠ [] → (∀ c ∈ digits, Text.isDigit c = true) →
        c :: rest ≠ '(' :: (digits ++ ')' :: after))
      (hrest : Unindexed rest bare) : Unindexed (c :: rest) (c :: bare)

/-- The elements of a text: without its indices, the blanks around it, and then the braces around it, it is cut at
its semicolons; and what is cut off loses the blanks around it. -/
def Elements (text : List Char) (es : List (List Char)) : Prop :=
  ∃ bare inner body pieces, Unindexed text bare ∧ Text.IsCore Text.isBlank bare inner ∧
    Text.IsCore isBrace inner body ∧
    (List.intercalate [';'] pieces = body ∧ pieces ≠ [] ∧ ∀ piece ∈ pieces, ';' ∉ piece) ∧
    List.Forall₂ (Text.IsCore Text.isBlank) pieces es

variable {cs bare digits after : List Char} {c : Char}

theorem span_digits (h : ∀ c ∈ digits, Text.isDigit c = true) (after : List Char) :
    (digits ++ ')' :: after).span Text.isDigit = (digits, ')' :: after) := by
  have hclose : Text.isDigit ')' = false := by decide
  rw [List.span_eq_takeWhile_dropWhile, List.takeWhile_append_of_pos h, List.dropWhile_append_of_pos h]
  simp [hclose]

theorem afterIndex?_eq_some_iff : afterIndex? cs = some after ↔
    ∃ digits, digits ≠ [] ∧ (∀ c ∈ digits, Text.isDigit c = true) ∧ cs = '(' :: (digits ++ ')' :: after) := by
  constructor
  · intro h
    unfold afterIndex? at h
    split at h
    · next rest =>
      rw [List.span_eq_takeWhile_dropWhile] at h
      dsimp only at h
      split at h
      · next after' hdrop =>
        split at h
        · cases h
        · next hne =>
          cases h
          refine ⟨rest.takeWhile Text.isDigit, by simpa using hne, fun c hc => List.mem_takeWhile_imp hc, ?_⟩
          rw [← hdrop, List.takeWhile_append_dropWhile]
      · cases h
    · cases h
  · rintro ⟨digits, hne, hdigits, rfl⟩
    rw [afterIndex?, span_digits hdigits]
    simp [hne]

/-- What stands after an index at the beginning is the rest of the text, from some place on. -/
theorem drop_of_afterIndex? {rest : List Char} (h : afterIndex? (c :: rest) = some after) :
    rest.drop (rest.length - after.length) = after := by
  obtain ⟨digits, -, -, hsplit⟩ := afterIndex?_eq_some_iff.mp h
  cases hsplit
  have hlength : (digits ++ ')' :: after).length - after.length = (digits ++ [')']).length := by
    simp only [List.length_append, List.length_cons, List.length_nil]
    omega
  have hsplit : digits ++ ')' :: after = (digits ++ [')']) ++ after := by simp
  rw [hlength, hsplit, List.drop_left]

theorem unindexed_dropIndices (skip : ℕ) (cs : List Char) : Unindexed (cs.drop skip) (dropIndices skip cs) := by
  induction cs generalizing skip with
  | nil =>
      rw [List.drop_nil, dropIndices]
      exact .nil
  | cons c rest ih =>
      cases skip with
      | succ skip =>
          rw [List.drop_succ_cons, dropIndices]
          exact ih skip
      | zero =>
          rw [List.drop_zero, dropIndices]
          split
          · next after hafter =>
            have hrest := ih (rest.length - after.length)
            rw [drop_of_afterIndex? hafter] at hrest
            obtain ⟨digits, hne, hdigits, hsplit⟩ := afterIndex?_eq_some_iff.mp hafter
            cases hsplit
            exact .index hne hdigits hrest
          · next hnone =>
            refine .keep (fun digits after hne hdigits hsplit => ?_) (ih 0)
            rw [afterIndex?_eq_some_iff.mpr ⟨digits, hne, hdigits, hsplit⟩] at hnone
            cases hnone

theorem dropIndices_eq_drop (skip : ℕ) (cs : List Char) : dropIndices skip cs = dropIndices 0 (cs.drop skip) := by
  induction cs generalizing skip with
  | nil => cases skip <;> rfl
  | cons c rest ih =>
      cases skip with
      | zero => rfl
      | succ skip => rw [dropIndices, ih, List.drop_succ_cons]

/-- **There is one way to take the indices away.** -/
theorem unindexed_iff : Unindexed cs bare ↔ bare = dropIndices 0 cs := by
  constructor
  · intro h
    induction h with
    | nil => rfl
    | @index digits rest bare hne hdigits _ ih =>
        have hafter : afterIndex? ('(' :: (digits ++ ')' :: rest)) = some rest :=
          afterIndex?_eq_some_iff.mpr ⟨digits, hne, hdigits, rfl⟩
        rw [dropIndices, hafter]
        dsimp only
        rw [dropIndices_eq_drop, drop_of_afterIndex? hafter, ih]
    | @keep c rest bare hkeep _ ih =>
        have hnone : afterIndex? (c :: rest) = none := by
          by_contra hsome
          obtain ⟨after, hafter⟩ := Option.ne_none_iff_exists'.mp hsome
          obtain ⟨digits, hne, hdigits, hsplit⟩ := afterIndex?_eq_some_iff.mp hafter
          exact hkeep digits after hne hdigits hsplit
        rw [dropIndices, hnone, ih]
  · rintro rfl
    exact unindexed_dropIndices 0 cs

theorem elements_iff (key : String) (es : List (List Char)) :
    Elements key.toList es ↔ es = (elements key).map Text.trimChars := by
  constructor
  · rintro ⟨bare, inner, body, pieces, hbare, hinner, hbody, hcut, hes⟩
    rw [Text.forall₂_isCore_iff.mp hes, ← Text.splitOn_eq_iff.mpr hcut, hbody.eq_trimBy, hinner.eq_trimBy,
      unindexed_iff.mp hbare]
    rfl
  · rintro rfl
    exact ⟨_, _, _, _, unindexed_iff.mpr rfl, Text.isCore_trimBy _ _, Text.isCore_trimBy _ _,
      Text.splitOn_eq_iff.mp rfl, Text.forall₂_isCore_iff.mpr rfl⟩

/-! ## Single elements -/

/-- Integers in decimal digits. -/
inductive Denotes : List Char → ℤ → Prop
  | natural {digits : List Char} (hne : digits ≠ []) (hdigits : ∀ c ∈ digits, Text.isDigit c = true) :
      Denotes digits (Text.natOfDigits digits)
  | negative {digits : List Char} (hne : digits ≠ []) (hdigits : ∀ c ∈ digits, Text.isDigit c = true) :
      Denotes ('-' :: digits) (-(Text.natOfDigits digits))

/-- A text of `n` minus signs and, after them, signs of digits. -/
structure Resembles (n : ℕ) (digits cs : List Char) : Prop where
  eq : cs = List.replicate n '-' ++ digits
  ne : digits ≠ []
  digitLike : ∀ c ∈ digits, Text.isDigitLike c = true

/-- What is wrong with signs of digits after minus signs: there is more than one minus sign, or a sign of a digit
that is no decimal digit, or more digits than an integer may have. -/
def Flawed (n : ℕ) (digits : List Char) : Prop :=
  1 < n ∨ (∃ c ∈ digits, Text.isDigit c = false) ∨ integerDigitLimit < digits.length

/-- What looks like an integer and is none. -/
def Deceives (cs : List Char) : Prop := ∃ n digits, Resembles n digits cs ∧ Flawed n digits

theorem not_flawed_iff {n : ℕ} : ¬ Flawed n digits ↔
    n ≤ 1 ∧ (∀ c ∈ digits, Text.isDigit c = true) ∧ digits.length ≤ integerDigitLimit := by
  simp [Flawed, not_or]

theorem Resembles.dropWhile {n : ℕ} (h : Resembles n digits cs) : cs.dropWhile (· == '-') = digits := by
  obtain ⟨rfl, hne, hdigits⟩ := h
  obtain ⟨first, rest, rfl⟩ := List.exists_cons_of_ne_nil hne
  have hfirst : first ≠ '-' := by
    rintro rfl
    exact absurd (hdigits '-' List.mem_cons_self) (by decide)
  rw [List.dropWhile_append_of_pos fun c hc => by simp [List.eq_of_mem_replicate hc],
    List.dropWhile_cons_of_neg (by simpa using hfirst)]

theorem looksNumeric_iff : Mapping.looksNumeric cs = true ↔ ∃ n digits, Resembles n digits cs := by
  constructor
  · intro h
    simp only [Mapping.looksNumeric, Bool.and_eq_true, Bool.not_eq_true', List.isEmpty_eq_false_iff,
      List.all_eq_true] at h
    refine ⟨(cs.takeWhile (· == '-')).length, _, ?_, h.1, h.2⟩
    have hsigns : cs.takeWhile (· == '-') = List.replicate (cs.takeWhile (· == '-')).length '-' :=
      List.eq_replicate_iff.mpr ⟨rfl, fun c hc => by simpa using List.mem_takeWhile_imp hc⟩
    rw [← hsigns, List.takeWhile_append_dropWhile]
  · rintro ⟨n, digits, h⟩
    rw [Mapping.looksNumeric, h.dropWhile]
    simpa using ⟨h.ne, h.digitLike⟩

theorem Resembles.unique {n m : ℕ} {digits' : List Char} (h : Resembles n digits cs) (h' : Resembles m digits' cs) :
    n = m ∧ digits = digits' := by
  obtain rfl : digits = digits' := h.dropWhile.symm.trans h'.dropWhile
  have hlength := congrArg List.length (h.eq.symm.trans h'.eq)
  simp only [List.length_append, List.length_replicate] at hlength
  exact ⟨by omega, rfl⟩

/-- One minus sign is read, or none. -/
theorem Resembles.sign {n : ℕ} (h : Resembles n digits cs) :
    Numeral.sign cs = (decide (0 < n), List.replicate (n - 1) '-' ++ digits) := by
  obtain ⟨rfl, hne, hdigits⟩ := h
  cases n with
  | succ n => rfl
  | zero =>
      obtain ⟨first, rest, rfl⟩ := List.exists_cons_of_ne_nil hne
      have hfirst := hdigits first List.mem_cons_self
      change Numeral.sign (first :: rest) = (false, first :: rest)
      unfold Numeral.sign
      split
      · next heq =>
        cases heq
        exact absurd hfirst (by decide)
      · next heq =>
        cases heq
        exact absurd hfirst (by decide)
      · rfl

theorem Resembles.notMem_underscore {n : ℕ} (h : Resembles n digits cs) : '_' ∉ cs := by
  rw [h.eq, List.mem_append, not_or]
  exact ⟨fun hmem => absurd (List.eq_of_mem_replicate hmem) (by decide),
    fun hmem => absurd (h.digitLike '_' hmem) (by decide)⟩

theorem Resembles.readInt?_of_flawed {n : ℕ} (h : Resembles n digits cs) (htrimmed : Text.Trimmed cs)
    (hflawed : Flawed n digits) : readInt? cs = none := by
  rw [Token.readInt?_of_trimmed htrimmed h.notMem_underscore h.sign]
  refine if_pos ?_
  rw [Bool.or_eq_true, Bool.or_eq_true, Bool.not_eq_true', List.all_eq_false, decide_eq_true_eq,
    List.length_append]
  rcases hflawed with hn | ⟨c, hc, hother⟩ | hlength
  · -- a second minus sign stands among the digits
    exact .inl (.inr ⟨'-', List.mem_append_left _ (List.mem_replicate.mpr ⟨by omega, rfl⟩), by decide⟩)
  · exact .inl (.inr ⟨c, List.mem_append_right _ hc, Bool.eq_false_iff.mp hother⟩)
  · exact .inr (by omega)

theorem Resembles.readInt?_of_not_flawed {n : ℕ} (h : Resembles n digits cs) (htrimmed : Text.Trimmed cs)
    (hsound : ¬ Flawed n digits) :
    readInt? cs = some (if 0 < n then -(Text.natOfDigits digits : ℤ) else Text.natOfDigits digits) := by
  obtain ⟨hn, hdigits, hlength⟩ := not_flawed_iff.mp hsound
  have hbody : List.replicate (n - 1) '-' ++ digits = digits := by simp [Nat.sub_eq_zero_of_le hn]
  rw [Token.readInt?_of_trimmed htrimmed h.notMem_underscore h.sign, hbody, List.all_eq_true.mpr hdigits]
  simp [h.ne, Nat.not_lt.mpr hlength]

theorem Denotes.resembles {i : ℤ} (h : Denotes cs i) : ∃ n digits, Resembles n digits cs := by
  cases h with
  | natural hne hdigits => exact ⟨0, _, rfl, hne, fun c hc => Text.isDigitLike_of_isDigit (hdigits c hc)⟩
  | negative hne hdigits => exact ⟨1, _, rfl, hne, fun c hc => Text.isDigitLike_of_isDigit (hdigits c hc)⟩

theorem Resembles.denotes {n : ℕ} (h : Resembles n digits cs) (hsound : ¬ Flawed n digits) :
    Denotes cs (if 0 < n then -(Text.natOfDigits digits : ℤ) else Text.natOfDigits digits) := by
  obtain ⟨hn, hdigits, -⟩ := not_flawed_iff.mp hsound
  rcases Nat.le_one_iff_eq_zero_or_eq_one.mp hn with rfl | rfl
  · exact h.eq ▸ .natural h.ne hdigits
  · exact h.eq ▸ .negative h.ne hdigits

/-- An element is refused if it deceives, is read if it is an integer, and is passed over if it is neither. -/
theorem readElement_cases {piece e : List Char} (h : Text.IsCore Text.isBlank piece e) :
    Deceives e ∧ readElement piece = .error .unreadable ∨
      ¬ Deceives e ∧ (∃ i, Denotes e i ∧ readElement piece = .ok (some i)) ∨
      ¬ Deceives e ∧ (∀ i, ¬ Denotes e i) ∧ readElement piece = .ok none := by
  have htrim : Text.trimChars piece = e := h.eq_trimBy.symm
  rw [readElement, htrim]
  cases hlooks : Mapping.looksNumeric e with
  | false =>
      have hother : ¬ ∃ n digits, Resembles n digits e := by
        rw [← looksNumeric_iff, hlooks]
        exact Bool.false_ne_true
      refine .inr (.inr ⟨?_, fun i hi => hother hi.resembles, rfl⟩)
      rintro ⟨n, digits, hres, -⟩
      exact hother ⟨n, digits, hres⟩
  | true =>
      obtain ⟨n, digits, hres⟩ := looksNumeric_iff.mp hlooks
      rw [if_pos rfl]
      by_cases hflawed : Flawed n digits
      · rw [hres.readInt?_of_flawed ⟨h.first, h.last⟩ hflawed]
        exact .inl ⟨⟨n, digits, hres, hflawed⟩, rfl⟩
      · rw [hres.readInt?_of_not_flawed ⟨h.first, h.last⟩ hflawed]
        refine .inr (.inl ⟨?_, ?_⟩)
        · rintro ⟨n', digits', hres', hflawed'⟩
          obtain ⟨rfl, rfl⟩ := hres.unique hres'
          exact hflawed hflawed'
        · exact ⟨_, hres.denotes hflawed, rfl⟩

/-! ## Paths -/

/-- The integers among the elements of a path, in their order. -/
inductive Picks : List (List Char) → Path → Prop
  | nil : Picks [] []
  | take {e : List Char} {i : ℤ} {es : List (List Char)} {path : Path} (he : Denotes e i) (hes : Picks es path) :
      Picks (e :: es) (i :: path)
  | skip {e : List Char} {es : List (List Char)} {path : Path} (he : ∀ i, ¬ Denotes e i) (hes : Picks es path) :
      Picks (e :: es) path

theorem readElements_picks {pieces es : List (List Char)} (h : List.Forall₂ (Text.IsCore Text.isBlank) pieces es) :
    (∃ e ∈ es, Deceives e) ∧ readElements pieces = .error .unreadable ∨
      (∀ e ∈ es, ¬ Deceives e) ∧ ∃ path, Picks es path ∧ readElements pieces = .ok path := by
  induction h with
  | nil => exact .inr ⟨by simp, [], .nil, rfl⟩
  | @cons piece e pieces es hpiece _ ih =>
      rw [readElements, List.exists_mem_cons_iff, List.forall_mem_cons]
      rcases readElement_cases hpiece with ⟨hdeceives, hread⟩ | ⟨hhonest, i, hdenotes, hread⟩ | ⟨hhonest, hnone, hread⟩
      · rw [hread]
        exact .inl ⟨.inl hdeceives, rfl⟩
      · rcases ih with ⟨hdeceives, hrest⟩ | ⟨hhonests, path, hpicks, hrest⟩
        · rw [hread]
          exact .inl ⟨.inr hdeceives, by rw [hrest]; rfl⟩
        · rw [hread]
          exact .inr ⟨⟨hhonest, hhonests⟩, i :: path, .take hdenotes hpicks, by rw [hrest]; rfl⟩
      · rcases ih with ⟨hdeceives, hrest⟩ | ⟨hhonests, path, hpicks, hrest⟩
        · rw [hread]
          exact .inl ⟨.inr hdeceives, hrest⟩
        · rw [hread]
          exact .inr ⟨⟨hhonest, hhonests⟩, path, .skip hnone hpicks, hrest⟩

/-- **A path is that of the integers among the elements of its text**, whatever the text is, unless one of the
elements deceives: then the text is refused. -/
theorem readPath_picks (key : String) :
    ∃ es, (∀ es', Elements key.toList es' ↔ es' = es) ∧
      ((∃ e ∈ es, Deceives e) ∧ readPath key = .error .unreadable ∨
        (∀ e ∈ es, ¬ Deceives e) ∧ ∃ path, Picks es path ∧ readPath key = .ok path) := by
  exact ⟨(elements key).map Text.trimChars, elements_iff key,
    readElements_picks (Text.forall₂_isCore_iff.mpr rfl)⟩

/-- Two elements that are to be passed over and are not. -/
theorem readPath_deceived :
    readPath "\x7b--1;2\x7d" = .error .unreadable ∧ readPath "\x7b²;2\x7d" = .error .unreadable := by
  decide +kernel

end Patchbay.DataTree
