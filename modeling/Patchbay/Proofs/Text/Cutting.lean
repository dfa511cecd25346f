import Mathlib.Data.List.DropRight
import Mathlib.Data.List.Forall2
import Mathlib.Data.List.TakeWhile
import Patchbay.Text.Blank
import Patchbay.Text.Split

/-!
# Cutting texts where they were joined

A text that was joined with separators that its pieces do not contain is cut into these pieces again,
whichever way it is cut.

* **`splitOn_append`**, `cut_append` — a piece without the separator is cut off whole.
* `splitOn_intercalate` — so are all the pieces that were joined; and there is one way to cut a text
  (**`splitOn_eq_iff`**).
* `cutsFromRight_append` — a text with one separator is cut in one way.
* `lines_append` — a line without a break is a line.
* `trimBy_eq_self` — a text without blanks has none to lose.
* `IsCore` — what stands between the characters of a kind at the ends of a text; there is one
  (**`isCore_trimBy`**, `IsCore.eq_trimBy`), however many of them stand around it (`trimBy_around`).
* `Trimmed`, `trimChars_enclosed`, `trimChars_append` — a text without blanks at its ends comes out of all blanks
  around it.
* `words_append` — blanks part the words of a text.
-/

namespace Patchbay.Text

variable {sep : Char} {cs before after : List Char}

/-! ## At a separator -/

theorem splitOn_of_notMem (h : sep ∉ cs) : splitOn sep cs = [cs] := by
  induction cs with
  | nil => rfl
  | cons c rest ih =>
      have hc : c ≠ sep := fun heq => h (by simp [heq])
      have hrest : sep ∉ rest := fun hmem => h (by simp [hmem])
      rw [splitOn, if_neg hc, ih hrest]

theorem splitOn_append {piece : List Char} (h : sep ∉ piece) (rest : List Char) :
    splitOn sep (piece ++ sep :: rest) = piece :: splitOn sep rest := by
  induction piece with
  | nil => simp [splitOn]
  | cons c piece ih =>
      have hc : c ≠ sep := fun heq => h (by simp [heq])
      have hpiece : sep ∉ piece := fun hmem => h (by simp [hmem])
      rw [List.cons_append, splitOn, if_neg hc, ih hpiece]

/-- Pieces that were joined are all there is between the separators. -/
theorem mem_intercalate {pieces : List (List Char)} {c : Char}
    (h : c ∈ List.intercalate [sep] pieces) : c = sep ∨ ∃ piece ∈ pieces, c ∈ piece := by
  induction pieces with
  | nil => cases h
  | cons piece rest ih =>
      cases rest with
      | nil => exact Or.inr ⟨piece, by simp, by simpa using h⟩
      | cons next rest =>
          rw [List.intercalate_cons_cons, List.append_assoc, List.mem_append] at h
          rcases h with h | h
          · exact Or.inr ⟨piece, by simp, h⟩
          · rcases List.mem_cons.mp h with h | h
            · exact Or.inl h
            · refine (ih h).imp_right fun ⟨piece', hpiece', hc⟩ => ?_
              exact ⟨piece', List.mem_cons_of_mem piece hpiece', hc⟩

theorem splitOn_intercalate {pieces : List (List Char)} (h : ∀ piece ∈ pieces, sep ∉ piece)
    (hne : pieces ≠ []) : splitOn sep (List.intercalate [sep] pieces) = pieces := by
  induction pieces with
  | nil => exact absurd rfl hne
  | cons piece rest ih =>
      cases rest with
      | nil => simpa using splitOn_of_notMem (h piece (by simp))
      | cons next rest =>
          rw [List.intercalate_cons_cons, List.append_assoc, List.singleton_append,
            splitOn_append (h piece (by simp)),
            ih (fun piece' hmem => h piece' (List.mem_cons_of_mem piece hmem)) (by simp)]

theorem intercalate_splitOn (sep : Char) (cs : List Char) : List.intercalate [sep] (splitOn sep cs) = cs := by
  fun_induction splitOn sep cs with
  | case1 => simp
  | case2 rest ih =>
      obtain ⟨piece, pieces, hpieces⟩ := List.exists_cons_of_ne_nil (splitOn_ne_nil sep rest)
      rw [hpieces, List.intercalate_cons_cons, ← hpieces, ih]
      rfl
  | case3 c rest _ hnil => exact absurd hnil (splitOn_ne_nil sep rest)
  | case4 c rest _ piece pieces hpieces ih =>
      rw [hpieces] at ih
      rw [← ih]
      cases pieces <;> simp [List.intercalate_cons_cons]

theorem notMem_of_mem_splitOn {piece : List Char} (h : piece ∈ splitOn sep cs) : sep ∉ piece := by
  fun_induction splitOn sep cs generalizing piece with
  | case1 => simp_all
  | case2 rest ih =>
      rcases List.mem_cons.mp h with rfl | h
      · exact List.not_mem_nil
      · exact ih h
  | case3 c rest _ hnil => exact absurd hnil (splitOn_ne_nil sep rest)
  | case4 c rest hc first pieces hpieces ih =>
      rw [hpieces] at ih
      rcases List.mem_cons.mp h with rfl | h
      · exact List.not_mem_cons_of_ne_of_not_mem (Ne.symm hc) (ih List.mem_cons_self)
      · exact ih (List.mem_cons_of_mem first h)

/-- **There is one way to cut a text at all of its separators.** -/
theorem splitOn_eq_iff {pieces : List (List Char)} : splitOn sep cs = pieces ↔
    List.intercalate [sep] pieces = cs ∧ pieces ≠ [] ∧ ∀ piece ∈ pieces, sep ∉ piece := by
  constructor
  · rintro rfl
    exact ⟨intercalate_splitOn sep cs, splitOn_ne_nil sep cs, fun _ => notMem_of_mem_splitOn⟩
  · rintro ⟨rfl, hne, h⟩
    exact splitOn_intercalate h hne

theorem cut_of_notMem (h : sep ∉ cs) : cut sep cs = (cs, none) := by
  induction cs with
  | nil => rfl
  | cons c rest ih =>
      rw [List.mem_cons, not_or] at h
      rw [cut, if_neg (Ne.symm h.1), ih h.2]

theorem cut_append (h : sep ∉ before) (after : List Char) :
    cut sep (before ++ sep :: after) = (before, some after) := by
  induction before with
  | nil => simp [cut]
  | cons c before ih =>
      rw [List.mem_cons, not_or] at h
      rw [List.cons_append, cut, if_neg (Ne.symm h.1), ih h.2]

/-- A text is cut at the first separator, or not at all. -/
theorem cut_spec (sep : Char) (cs : List Char) :
    sep ∉ (cut sep cs).1 ∧ cs = (cut sep cs).1 ++ ((cut sep cs).2.map (sep :: ·)).getD [] := by
  induction cs with
  | nil => exact ⟨List.not_mem_nil, rfl⟩
  | cons c rest ih =>
      rw [cut]
      split
      · next hc => exact ⟨List.not_mem_nil, by simp [hc]⟩
      · next hc =>
        refine ⟨?_, congrArg (c :: ·) ih.2⟩
        rw [List.mem_cons, not_or]
        exact ⟨Ne.symm hc, ih.1⟩

theorem cutsFromRight_of_notMem (h : sep ∉ cs) : cutsFromRight sep cs = [] := by
  induction cs with
  | nil => rfl
  | cons c rest ih =>
      rw [List.mem_cons, not_or] at h
      rw [cutsFromRight, ih h.2, if_neg (Ne.symm h.1)]
      rfl

/-- A text is cut in one way at the only place where it can be cut. -/
theorem cutsFromRight_append (hbefore : sep ∉ before) (hafter : sep ∉ after) :
    cutsFromRight sep (before ++ sep :: after) = [(before, after)] := by
  induction before with
  | nil =>
      rw [List.nil_append, cutsFromRight, cutsFromRight_of_notMem hafter, if_pos rfl]
      rfl
  | cons c rest ih =>
      rw [List.mem_cons, not_or] at hbefore
      rw [List.cons_append, cutsFromRight, ih hbefore.2, if_neg (Ne.symm hbefore.1)]
      rfl

/-! ## At line breaks -/

theorem isLineBreak_of_isBlank {c : Char} (h : isBlank c = false) : isLineBreak c = false := by
  unfold isBlank at h
  unfold isLineBreak
  generalize c.toNat = n at h ⊢
  simp at h ⊢
  omega

theorem linesFrom_append {line : List Char} (h : ∀ c ∈ cs, isLineBreak c = false)
    (rest : List Char) :
    linesFrom line false (cs ++ '\n' :: rest) = (line.reverse ++ cs) :: linesFrom [] false rest := by
  induction cs generalizing line with
  | nil =>
      rw [List.nil_append, List.append_nil]
      rfl
  | cons c cs ih =>
      have hc : isLineBreak c = false := h c (by simp)
      rw [List.cons_append, linesFrom, Bool.false_and, if_neg (by decide), hc, if_neg (by decide),
        ih fun c' hc' => h c' (by simp [hc'])]
      simp

theorem lines_append (h : ∀ c ∈ cs, isLineBreak c = false) (rest : List Char) :
    lines (cs ++ '\n' :: rest) = cs :: lines rest := linesFrom_append h rest

theorem lines_of_noBreak (h : ∀ c ∈ cs, isLineBreak c = false) (hne : cs ≠ []) : lines cs = [cs] := by
  have hlines : ∀ line, line ++ cs ≠ [] → linesFrom line false cs = [line.reverse ++ cs] := by
    clear hne
    induction cs with
    | nil =>
        intro line hline
        rw [linesFrom, if_neg (by simpa using hline), List.append_nil]
    | cons c cs ih =>
        intro line _
        have hc : isLineBreak c = false := h c (by simp)
        rw [linesFrom, Bool.false_and, if_neg (by decide), hc, if_neg (by decide),
          ih (fun c' hc' => h c' (by simp [hc'])) _ (by simp)]
        simp
  exact hlines [] hne

/-! ## At the ends -/

section Ends

variable {p : Char → Bool}

theorem dropWhile_of_bare (h : ∀ c ∈ cs.head?, p c = false) : cs.dropWhile p = cs := by
  cases cs with
  | nil => rfl
  | cons c rest => exact List.dropWhile_cons_of_neg (by rw [h c rfl]; decide)

theorem dropWhile_eq_self (h : ∀ c ∈ cs, p c = false) : cs.dropWhile p = cs :=
  dropWhile_of_bare fun c hc => h c (List.mem_of_mem_head? hc)

theorem head?_dropWhile (p : Char → Bool) (cs : List Char) : ∀ c ∈ (cs.dropWhile p).head?, p c = false := by
  intro c hc
  have h := List.head?_dropWhile_not p cs
  rw [Option.mem_def.mp hc] at h
  simpa using h

theorem trimRightBy_isPrefix (p : Char → Bool) (cs : List Char) : trimRightBy p cs <+: cs := by
  have h := (List.dropWhile_suffix p (l := cs.reverse)).reverse
  rwa [List.reverse_reverse] at h

/-- Only the ends of a text are looked at. -/
theorem trimBy_of_bare (hfirst : ∀ c ∈ cs.head?, p c = false)
    (hlast : ∀ c ∈ cs.getLast?, p c = false) : trimBy p cs = cs := by
  rw [trimBy, dropWhile_of_bare hfirst, trimRightBy, dropWhile_of_bare (by simpa using hlast), List.reverse_reverse]

theorem trimBy_eq_self (h : ∀ c ∈ cs, p c = false) : trimBy p cs = cs :=
  trimBy_of_bare (fun c hc => h c (List.mem_of_mem_head? hc)) fun c hc => h c (List.mem_of_mem_getLast? hc)

theorem trimBy_of_ends {first last : Char} (hfirst : p first = false)
    (hlast : p last = false) (cs : List Char) :
    trimBy p (first :: (cs ++ [last])) = first :: (cs ++ [last]) := by
  refine trimBy_of_bare ?_ ?_
  · rintro c ⟨⟩
    exact hfirst
  · rw [← List.cons_append, List.getLast?_concat]
    rintro c ⟨⟩
    exact hlast

/-- **Characters in `p` around a text are lost, and no more.** -/
theorem trimBy_around {a b : List Char} (ha : ∀ c ∈ a, p c = true) (hb : ∀ c ∈ b, p c = true)
    (cs : List Char) : trimBy p (a ++ cs ++ b) = trimBy p cs := by
  have hright : trimBy p (cs ++ b) = trimBy p cs := by
    rw [trimBy, trimBy, List.dropWhile_append]
    split
    · next hnil =>
      -- nothing but characters in `p`
      rw [List.isEmpty_iff.mp hnil, List.dropWhile_eq_nil_iff.2 fun c hc => hb c hc]
    · rw [trimRightBy, trimRightBy, List.reverse_append,
        List.dropWhile_append_of_pos fun c hc => hb c (List.mem_reverse.mp hc)]
  rw [← hright, trimBy, trimBy, List.append_assoc, List.dropWhile_append_of_pos ha]

theorem trimBy_cons {c : Char} (h : p c = true) (cs : List Char) :
    trimBy p (c :: cs) = trimBy p cs := by
  rw [trimBy, trimBy, List.dropWhile_cons_of_pos h]

theorem trimBy_enclosed {first last : Char} (hfirst : p first = true)
    (hlast : p last = true) (h : ∀ c ∈ cs, p c = false) : trimBy p (first :: (cs ++ [last])) = cs := by
  have htrim := trimBy_around (a := [first]) (b := [last]) (by simpa using hfirst) (by simpa using hlast) cs
  rwa [trimBy_eq_self h] at htrim

/-- What is left between the characters in `p` at the ends of a text. -/
structure IsCore (p : Char → Bool) (cs core : List Char) : Prop where
  around : ∃ a b, cs = a ++ core ++ b ∧ (∀ c ∈ a, p c = true) ∧ ∀ c ∈ b, p c = true
  first : ∀ c ∈ core.head?, p c = false
  last : ∀ c ∈ core.getLast?, p c = false

theorem isCore_trimBy (p : Char → Bool) (cs : List Char) : IsCore p cs (trimBy p cs) := by
  constructor
  case around =>
    refine ⟨cs.takeWhile p, ((cs.dropWhile p).reverse.takeWhile p).reverse, ?_,
      fun c hc => List.mem_takeWhile_imp hc, fun c hc => List.mem_takeWhile_imp (List.mem_reverse.mp hc)⟩
    rw [List.append_assoc, trimBy, trimRightBy, ← List.reverse_append, List.takeWhile_append_dropWhile,
      List.reverse_reverse, List.takeWhile_append_dropWhile]
  case first =>
    intro c hc
    obtain ⟨rest, hrest⟩ := trimRightBy_isPrefix p (cs.dropWhile p)
    refine head?_dropWhile p cs c ?_
    rw [← hrest, List.head?_append]
    change c ∈ (trimBy p cs).head?.or _
    rw [Option.mem_def.mp hc]
    rfl
  case last =>
    intro c hc
    rw [trimBy, trimRightBy, List.getLast?_reverse] at hc
    exact head?_dropWhile p _ c hc

/-- **There is one core**, and it is what trimming leaves. -/
theorem IsCore.eq_trimBy {core : List Char} (h : IsCore p cs core) : core = trimBy p cs := by
  obtain ⟨a, b, rfl, ha, hb⟩ := h.around
  rw [trimBy_around ha hb, trimBy_of_bare h.first h.last]

theorem forall₂_isCore_iff {texts cores : List (List Char)} :
    List.Forall₂ (IsCore p) texts cores ↔ cores = texts.map (trimBy p) := by
  constructor
  · intro h
    induction h with
    | nil => rfl
    | cons hcore _ ih => rw [List.map_cons, ← hcore.eq_trimBy, ← ih]
  · rintro rfl
    exact List.forall₂_map_right_iff.mpr (List.forall₂_same.mpr fun cs _ => isCore_trimBy p cs)

/-- Nothing is left of a text that has no other characters. -/
theorem trimBy_eq_nil_iff : trimBy p cs = [] ↔ ∀ c ∈ cs, p c = true := by
  constructor
  · intro h
    obtain ⟨a, b, hcs, ha, hb⟩ := (isCore_trimBy p cs).around
    rw [h, List.append_nil] at hcs
    rw [hcs]
    exact List.forall_mem_append.mpr ⟨ha, hb⟩
  · intro h
    simpa using trimBy_around h (b := []) (by simp) []

end Ends

/-! ## Blanks -/

@[simp] theorem isBlank_space : isBlank ' ' = true := rfl

/-- A text without blanks at its ends. -/
def Trimmed (cs : List Char) : Prop :=
  (∀ c ∈ cs.head?, isBlank c = false) ∧ ∀ c ∈ cs.getLast?, isBlank c = false

instance (cs : List Char) : Decidable (Trimmed cs) :=
  decidable_of_iff ((cs.head?.all fun c => !isBlank c) = true ∧ (cs.getLast?.all fun c => !isBlank c) = true)
    (by simp [Trimmed, Option.all_eq_true])

theorem trimChars_eq_self (h : Trimmed cs) : trimChars cs = cs := trimBy_of_bare h.1 h.2

/-- A text is what trimming leaves of it, between blanks. -/
theorem exists_blanks_around (cs : List Char) : ∃ a b, cs = a ++ trimChars cs ++ b ∧
    (∀ c ∈ a, isBlank c = true) ∧ ∀ c ∈ b, isBlank c = true := (isCore_trimBy isBlank cs).around

theorem trimChars_isInfix (cs : List Char) : trimChars cs <:+: cs := by
  obtain ⟨a, b, hcs, -⟩ := exists_blanks_around cs
  exact ⟨a, b, hcs.symm⟩

theorem trimmed_trimChars (cs : List Char) : Trimmed (trimChars cs) :=
  ⟨(isCore_trimBy isBlank cs).first, (isCore_trimBy isBlank cs).last⟩

/-- What stands between two texts without blanks at the ends does not matter. -/
theorem Trimmed.append {a b : List Char} (ha : Trimmed a) (hb : Trimmed b) (hane : a ≠ []) (hbne : b ≠ [])
    (middle : List Char) : Trimmed (a ++ middle ++ b) := by
  obtain ⟨first, a, rfl⟩ := List.exists_cons_of_ne_nil hane
  constructor
  · exact fun c hc => ha.1 c hc
  · rw [List.getLast?_append, List.getLast?_eq_some_getLast hbne, Option.some_or,
      ← List.getLast?_eq_some_getLast hbne]
    exact hb.2

theorem trimmed_of_notBlank (h : ∀ c ∈ cs, isBlank c = false) : Trimmed cs :=
  ⟨fun c hc => h c (List.mem_of_mem_head? hc), fun c hc => h c (List.mem_of_mem_getLast? hc)⟩

/-- Blanks around a text are lost. -/
theorem trimChars_enclosed {a b : List Char} (ha : ∀ c ∈ a, isBlank c = true) (hb : ∀ c ∈ b, isBlank c = true)
    (cs : List Char) : trimChars (a ++ cs ++ b) = trimChars cs := trimBy_around ha hb cs

theorem trimChars_dropWhile (cs : List Char) : trimChars (cs.dropWhile isBlank) = trimChars cs := by
  rw [trimChars, trimBy, trimChars, trimBy, List.dropWhile_idempotent]

/-- Of a text that ends without blanks, blanks are lost at the front. -/
theorem trimChars_append {b : List Char} (hb : ∀ c ∈ b, isBlank c = false) (hne : b ≠ []) (a : List Char) :
    trimChars (a ++ b) = a.dropWhile isBlank ++ b := by
  obtain ⟨last, rest, hlast⟩ := List.exists_cons_of_ne_nil (mt List.reverse_eq_nil_iff.mp hne)
  have hend : isBlank last = false := hb last (List.mem_reverse.mp (hlast ▸ List.mem_cons_self))
  have hright : ∀ l : List Char, trimRightBy isBlank (l ++ b) = l ++ b := by
    intro l
    rw [trimRightBy, List.reverse_append, hlast, List.cons_append,
      List.dropWhile_cons_of_neg (by rw [hend]; decide), ← List.cons_append, ← hlast, ← List.reverse_append,
      List.reverse_reverse]
  have hdrop : (a ++ b).dropWhile isBlank = a.dropWhile isBlank ++ b := by
    rw [List.dropWhile_append, dropWhile_eq_self hb]
    split
    · next hnil => rw [List.isEmpty_iff.mp hnil, List.nil_append]
    · rfl
  rw [trimChars, trimBy, hdrop, hright]

/-- Blanks around a text do not matter where it is cut. -/
theorem trimChars_cut_enclosed {a b : List Char} (ha : ∀ c ∈ a, isBlank c = true) (hb : ∀ c ∈ b, isBlank c = true)
    (hsep : isBlank sep = false) (cs : List Char) :
    trimChars (cut sep (a ++ cs ++ b)).1 = trimChars (cut sep cs).1 ∧
      trimChars ((cut sep (a ++ cs ++ b)).2.getD []) = trimChars ((cut sep cs).2.getD []) := by
  have hnotMem : ∀ blanks : List Char, (∀ c ∈ blanks, isBlank c = true) → sep ∉ blanks := by
    intro blanks hblanks hmem
    rw [hblanks sep hmem] at hsep
    cases hsep
  obtain ⟨hbefore, hcs⟩ := cut_spec sep cs
  generalize cut sep cs = pieces at hbefore hcs
  obtain ⟨head, after⟩ := pieces
  dsimp only at hbefore hcs
  cases after with
  | none =>
      obtain rfl : cs = head := hcs.trans (List.append_nil head)
      have hnone : sep ∉ a ++ cs ++ b := by simpa using ⟨hnotMem a ha, hbefore, hnotMem b hb⟩
      rw [cut_of_notMem hnone]
      exact ⟨trimChars_enclosed ha hb cs, rfl⟩
  | some after =>
      have hfront : sep ∉ a ++ head := by simpa using ⟨hnotMem a ha, hbefore⟩
      have hwhole : a ++ cs ++ b = (a ++ head) ++ sep :: (after ++ b) := by simp [hcs]
      have hleft := trimChars_enclosed ha (b := []) (fun c hc => absurd hc List.not_mem_nil) head
      have hright := trimChars_enclosed (a := []) (fun c hc => absurd hc List.not_mem_nil) hb after
      rw [List.append_nil] at hleft
      rw [hwhole, cut_append hfront]
      exact ⟨hleft, hright⟩

theorem wordsFrom_append {run : List Char} (before : List Char) {blank : Char} (hblank : isBlank blank = true)
    (rest : List Char) : wordsFrom run (before ++ blank :: rest) = wordsFrom run before ++ words rest := by
  induction before generalizing run with
  | nil =>
      rw [List.nil_append, wordsFrom.eq_2, if_pos hblank, wordsFrom.eq_1]
      split <;> rfl
  | cons c before ih =>
      rw [List.cons_append, wordsFrom, wordsFrom]
      split
      · split
        · exact ih
        · rw [ih, List.cons_append]
      · exact ih

/-- A blank parts the words before it from those after it. -/
theorem words_append (before : List Char) {blank : Char} (hblank : isBlank blank = true) (rest : List Char) :
    words (before ++ blank :: rest) = words before ++ words rest := wordsFrom_append before hblank rest

theorem words_of_notBlank (h : ∀ c ∈ cs, isBlank c = false) (hne : cs ≠ []) : words cs = [cs] := by
  have hwords : ∀ run, run ++ cs ≠ [] → wordsFrom run cs = [run.reverse ++ cs] := by
    clear hne
    induction cs with
    | nil =>
        intro run hrun
        rw [wordsFrom, if_neg (by simpa using hrun), List.append_nil]
    | cons c cs ih =>
        intro run _
        rw [wordsFrom, h c (by simp), if_neg (by decide), ih (fun c' hc' => h c' (by simp [hc'])) _ (by simp)]
        simp
  exact hwords [] hne

/-- The words of a text are runs of its characters, without blanks, and none is empty. -/
theorem mem_words {word : List Char} (h : word ∈ words cs) :
    word ≠ [] ∧ ∀ c ∈ word, isBlank c = false ∧ c ∈ cs := by
  have hwords : ∀ run, (∀ c ∈ run, isBlank c = false) → ∀ word ∈ wordsFrom run cs,
      word ≠ [] ∧ ∀ c ∈ word, isBlank c = false ∧ (c ∈ run ∨ c ∈ cs) := by
    clear h
    intro run hrun word hword
    fun_induction wordsFrom run cs with
    | case1 => cases hword
    | case2 run hne =>
        rw [List.mem_singleton.mp hword]
        exact ⟨by simpa using hne, fun c hc => ⟨hrun c (by simpa using hc), .inl (by simpa using hc)⟩⟩
    | case3 run c rest _ _ ih =>
        obtain ⟨hne, hchars⟩ := ih (fun _ h => nomatch h) hword
        exact ⟨hne, fun d hd => ⟨(hchars d hd).1, .inr (List.mem_cons_of_mem c ((hchars d hd).2.resolve_left List.not_mem_nil))⟩⟩
    | case4 run c rest _ hne ih =>
        rcases List.mem_cons.mp hword with rfl | hword
        · exact ⟨by simpa using hne, fun d hd => ⟨hrun d (by simpa using hd), .inl (by simpa using hd)⟩⟩
        · obtain ⟨hne, hchars⟩ := ih (fun _ h => nomatch h) hword
          exact ⟨hne, fun d hd => ⟨(hchars d hd).1, .inr (List.mem_cons_of_mem c ((hchars d hd).2.resolve_left List.not_mem_nil))⟩⟩
    | case5 run c rest hc ih =>
        obtain ⟨hne, hchars⟩ := ih (List.forall_mem_cons.mpr ⟨by simpa using hc, hrun⟩) hword
        refine ⟨hne, fun d hd => ⟨(hchars d hd).1, ?_⟩⟩
        rcases (hchars d hd).2 with hd | hd
        · rcases List.mem_cons.mp hd with rfl | hd
          · exact .inr List.mem_cons_self
          · exact .inl hd
        · exact .inr (List.mem_cons_of_mem c hd)
  obtain ⟨hne, hchars⟩ := hwords [] (fun _ h => nomatch h) word h
  exact ⟨hne, fun c hc => ⟨(hchars c hc).1, (hchars c hc).2.resolve_left List.not_mem_nil⟩⟩

/-- A text without blanks at its end ends with its last word. -/
theorem getLast?_words (htrimmed : Trimmed cs) {word : List Char} (h : (words cs).getLast? = some word) :
    ∃ front, front ++ word = cs := by
  have hsplit := List.rdropWhile_append_rtakeWhile (p := fun c => !isBlank c) (l := cs)
  have hvisible : ∀ c ∈ cs.rtakeWhile fun c => !isBlank c, isBlank c = false := fun c hc => by
    simpa using List.mem_rtakeWhile_imp hc
  have hne : (cs.rtakeWhile fun c => !isBlank c) ≠ [] := by
    intro hnil
    have hcs : cs ≠ [] := by
      rintro rfl
      cases h
    have hlast := htrimmed.2 _ (List.getLast?_eq_some_getLast hcs)
    exact List.rtakeWhile_eq_nil_iff.mp hnil hcs (by simp [hlast])
  have hword := words_of_notBlank hvisible hne
  by_cases hnil : (cs.rdropWhile fun c => !isBlank c) = []
  · rw [hnil, List.nil_append] at hsplit
    rw [hsplit] at hword
    rw [hword] at h
    cases h
    exact ⟨[], rfl⟩
  · -- what stands before the last run of visible characters ends with a blank
    have hblank : isBlank ((cs.rdropWhile fun c => !isBlank c).getLast hnil) = true := by
      simpa using List.rdropWhile_last_not (fun c => !isBlank c) cs hnil
    have hwords : words cs = words (cs.rdropWhile fun c => !isBlank c).dropLast ++ [cs.rtakeWhile fun c => !isBlank c] := by
      conv_lhs => rw [← hsplit, ← List.dropLast_concat_getLast hnil]
      rw [List.append_assoc, List.singleton_append, words_append _ hblank, hword]
    rw [hwords, List.getLast?_concat] at h
    cases h
    exact ⟨_, hsplit⟩

end Patchbay.Text
