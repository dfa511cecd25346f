import Mathlib.Data.List.TakeDrop
import Patchbay.Signature.EntryPoint
import Patchbay.Proofs.Text.Cutting

/-!
# Other parameters in the same entry point

The entry point of a C# script is the first place that looks like one, and its list ends at the first
bracket that may end it.  Both are found by looking at the text, so a list that is put in the place of
another is found there again only if nothing in it looks like its end: `hasEnd` says what does.

* `hasEnd_append`, `hasEnd_concat` — where a text that was put together has an end of a list
* `findClosing_eq_some_iff` — the list ends where it may, and nowhere before
* `beforeList?_cases` — what comes before the list is read up to the first bracket and no further
* **`entryPoint?_replaced`** — the entry point with another list in it

The search never looks behind the bracket that opens a list, so a place before the entry point that was
none before is none after.
-/

namespace Patchbay.Signature

/-! ## Ends of lists -/

/-- What stands behind a bracket makes it the end of a list: a line feed or an opening brace after
nothing but blanks. -/
def endsList : List Char → Bool
  | [] => false
  | c :: rest => c == '\n' || c == '\x7b' || (Text.isBlank c && endsList rest)

/-- A text has a bracket in it that ends a list. -/
def hasEnd : List Char → Bool
  | [] => false
  | c :: rest => (c == ')' && endsList rest) || hasEnd rest

variable {a b cs : List Char} {c : Char}

theorem endsList_append_left (h : endsList a = true) (b : List Char) : endsList (a ++ b) = true := by
  induction a with
  | nil => cases h
  | cons c rest ih =>
      rw [List.cons_append, endsList]
      rw [endsList] at h
      grind

theorem hasEnd_append_left (h : hasEnd a = true) (b : List Char) : hasEnd (a ++ b) = true := by
  induction a with
  | nil => cases h
  | cons c rest ih =>
      rw [hasEnd, Bool.or_eq_true, Bool.and_eq_true] at h
      rw [List.cons_append, hasEnd, Bool.or_eq_true, Bool.and_eq_true]
      exact h.imp (fun ⟨hc, hends⟩ => ⟨hc, endsList_append_left hends b⟩) ih

theorem hasEnd_append_right (a : List Char) (h : hasEnd b = true) : hasEnd (a ++ b) = true := by
  induction a with
  | nil => exact h
  | cons c rest ih => rw [List.cons_append, hasEnd, ih, Bool.or_true]

/-- A part of a text without ends has none. -/
theorem hasEnd_of_isInfix (hpart : a <:+: b) (h : hasEnd b = false) : hasEnd a = false := by
  obtain ⟨before, after, rfl⟩ := hpart
  cases ha : hasEnd a with
  | false => rfl
  | true =>
      rw [hasEnd_append_left (hasEnd_append_right before ha) after] at h
      cases h

theorem hasEnd_append_of_notMem (h : ')' ∉ a) (b : List Char) : hasEnd (a ++ b) = hasEnd b := by
  induction a with
  | nil => rfl
  | cons c rest ih =>
      rw [List.mem_cons, not_or] at h
      rw [List.cons_append, hasEnd, beq_false_of_ne (Ne.symm h.1), ih h.2]
      rfl

theorem endsList_append (hblank : Text.isBlank c = false) (hbrace : c ≠ '\x7b') (a b : List Char) :
    endsList (a ++ c :: b) = endsList a := by
  have hline : c ≠ '\n' := by
    rintro rfl
    cases hblank
  induction a with
  | nil => simp [endsList, hblank, hbrace, hline]
  | cons d rest ih => rw [List.cons_append, endsList, endsList, ih]

/-- There is no end of a list between two texts if the second begins with neither a blank nor a brace. -/
theorem hasEnd_append (hblank : Text.isBlank c = false) (hbrace : c ≠ '\x7b') (a b : List Char) :
    hasEnd (a ++ c :: b) = (hasEnd a || hasEnd (c :: b)) := by
  induction a with
  | nil => rfl
  | cons d rest ih =>
      rw [List.cons_append, hasEnd, endsList_append hblank hbrace, ih, hasEnd.eq_def (d :: rest), Bool.or_assoc]

theorem endsList_concat (hline : c ≠ '\n') (hbrace : c ≠ '\x7b') (cs : List Char) :
    endsList (cs ++ [c]) = endsList cs := by
  induction cs with
  | nil => simp [endsList, hbrace, hline]
  | cons d rest ih => rw [List.cons_append, endsList, endsList, ih]

/-- A character behind a text ends no list if it is neither a line feed nor a brace. -/
theorem hasEnd_concat (hline : c ≠ '\n') (hbrace : c ≠ '\x7b') (cs : List Char) :
    hasEnd (cs ++ [c]) = hasEnd cs := by
  induction cs with
  | nil => simp [hasEnd, endsList]
  | cons d rest ih => rw [List.cons_append, hasEnd, endsList_concat hline hbrace, ih, hasEnd.eq_def (d :: rest)]

/-! ## The end of the list -/

theorem endsList_eq (cs : List Char) :
    endsList cs = ((cs.takeWhile Text.isBlank).contains '\n' ||
      (cs.dropWhile Text.isBlank).head? == some '\x7b') := by
  induction cs with
  | nil => rfl
  | cons c rest ih =>
      cases hblank : Text.isBlank c with
      | true =>
          have hbrace : c ≠ '\x7b' := by
            rintro rfl
            cases hblank
          rw [endsList, ih, hblank, List.takeWhile_cons_of_pos hblank, List.dropWhile_cons_of_pos hblank]
          rw [List.contains_cons, beq_false_of_ne hbrace, Bool.or_false, Bool.true_and, Bool.or_assoc,
            BEq.comm]
      | false =>
          have hline : c ≠ '\n' := by
            rintro rfl
            cases hblank
          rw [endsList, hblank, List.takeWhile_cons_of_neg (by simp [hblank]),
            List.dropWhile_cons_of_neg (by simp [hblank])]
          simp [hline]

theorem afterList?_cons_of_ne (hc : c ≠ ')') (rest : List Char) : afterList? .csharp (c :: rest) = none := by
  have hchar : afterChar? ')' (c :: rest) = none := if_neg (Ne.symm hc)
  simp only [afterList?, hchar]
  rfl

/-- A bracket ends the list if what stands behind it makes it the end, or nothing does but blanks. -/
theorem isSome_afterList?_cons (rest : List Char) :
    (afterList? .csharp (')' :: rest)).isSome =
      (endsList rest || (rest.dropWhile Text.isBlank).isEmpty) := by
  have hchar : afterChar? ')' (')' :: rest) = some rest := rfl
  simp only [afterList?, hchar, Option.bind_eq_bind, Option.bind_some, List.span_eq_takeWhile_dropWhile]
  rw [endsList_eq]
  cases rest.dropWhile Text.isBlank with
  | nil => simp
  | cons c after =>
      dsimp only
      split
      · next hbrace => simp [hbrace]
      · next hbrace =>
        split
        · next hline => simp_all
        · next hline => simp_all

/-- **The list is the shortest text before an end.** -/
theorem findClosing_eq_some_iff {language : Language} {inside after closing : List Char} :
    findClosing language cs = some (inside, after, closing) ↔
      cs = inside ++ after ∧ afterList? language after = some closing ∧
        ∀ early, early <:+ inside → early ≠ [] → afterList? language (early ++ after) = none := by
  induction cs generalizing inside with
  | nil =>
      rw [findClosing, Option.map_eq_some_iff]
      constructor
      · rintro ⟨closing, hclosing, heq⟩
        cases heq
        exact ⟨rfl, hclosing, fun early hearly hne => absurd (List.suffix_nil.mp hearly) hne⟩
      · rintro ⟨hcs, hclosing, -⟩
        obtain ⟨rfl, rfl⟩ := List.append_eq_nil_iff.mp hcs.symm
        exact ⟨closing, hclosing, rfl⟩
  | cons c rest ih =>
      rw [findClosing]
      split
      · next closing' hhere =>
        constructor
        · intro h
          cases h
          exact ⟨rfl, hhere, fun early hearly hne => absurd (List.suffix_nil.mp hearly) hne⟩
        · rintro ⟨hcs, hclosing, hearly⟩
          cases inside with
          | nil =>
              rw [List.nil_append] at hcs
              rw [hcs, hclosing] at hhere
              cases hhere
              rw [hcs]
          | cons d inside =>
              have hnone := hearly (d :: inside) List.suffix_rfl (by simp)
              rw [← hcs, hhere] at hnone
              cases hnone
      · next hhere =>
        rw [Option.map_eq_some_iff]
        constructor
        · rintro ⟨⟨inside', after', closing'⟩, hfound, heq⟩
          cases heq
          obtain ⟨rfl, hclosing, hearly⟩ := ih.mp hfound
          refine ⟨rfl, hclosing, fun early hsuffix hne => ?_⟩
          rcases List.suffix_cons_iff.mp hsuffix with rfl | hsuffix
          · exact hhere
          · exact hearly early hsuffix hne
        · rintro ⟨hcs, hclosing, hearly⟩
          cases inside with
          | nil =>
              rw [List.nil_append] at hcs
              rw [hcs, hclosing] at hhere
              cases hhere
          | cons d inside =>
              cases hcs
              exact ⟨(inside, after, closing), ih.mpr ⟨rfl, hclosing, fun early hsuffix hne =>
                hearly early (hsuffix.trans (List.suffix_cons _ _)) hne⟩, rfl⟩

/-- What stands behind a list begins with its bracket. -/
theorem exists_of_afterList? {after closing : List Char} (h : afterList? .csharp after = some closing) :
    ∃ rest, after = ')' :: rest := by
  cases after with
  | nil => cases h
  | cons c rest =>
      by_cases hc : c = ')'
      · exact ⟨rest, hc ▸ rfl⟩
      · rw [afterList?_cons_of_ne hc] at h
        cases h

theorem isBlank_bracket : Text.isBlank ')' = false := by decide

/-- A list has no end in it. -/
theorem hasEnd_of_findClosing {inside after closing : List Char}
    (h : findClosing .csharp cs = some (inside, after, closing)) : hasEnd inside = false := by
  obtain ⟨rest, rfl⟩ := exists_of_afterList? (findClosing_eq_some_iff.mp h).2.1
  have hearly := (findClosing_eq_some_iff.mp h).2.2
  clear h
  induction inside with
  | nil => rfl
  | cons c inside ih =>
      rw [hasEnd, ih fun early hsuffix => hearly early (hsuffix.trans (List.suffix_cons _ _)), Bool.or_false]
      by_cases hc : c = ')'
      · subst hc
        have hnone := hearly (')' :: inside) List.suffix_rfl (by simp)
        have hsome := isSome_afterList?_cons (inside ++ ')' :: rest)
        rw [← List.cons_append, hnone, endsList_append isBlank_bracket (by decide)] at hsome
        cases hends : endsList inside with
        | false => rfl
        | true => simp [hends] at hsome
      · rw [beq_false_of_ne hc, Bool.false_and]

/-- **Another list without an end in it ends at the same place.** -/
theorem findClosing_replaced {inside after closing : List Char}
    (hafter : afterList? .csharp after = some closing) (hinside : hasEnd inside = false) :
    findClosing .csharp (inside ++ after) = some (inside, after, closing) := by
  obtain ⟨rest, rfl⟩ := exists_of_afterList? hafter
  refine findClosing_eq_some_iff.mpr ⟨rfl, hafter, fun early hsuffix hne => ?_⟩
  obtain ⟨c, early, rfl⟩ := List.exists_cons_of_ne_nil hne
  have hearly := hasEnd_of_isInfix hsuffix.isInfix hinside
  by_cases hc : c = ')'
  · subst hc
    rw [hasEnd, beq_self_eq_true, Bool.true_and, Bool.or_eq_false_iff] at hearly
    have hsome := isSome_afterList?_cons (early ++ ')' :: rest)
    have hdrop : ((early ++ ')' :: rest).dropWhile Text.isBlank).isEmpty = false := by
      refine List.isEmpty_eq_false_iff.mpr fun hnil => ?_
      have hblank := List.dropWhile_eq_nil_iff.1 hnil ')' (by simp)
      cases hblank
    rw [endsList_append isBlank_bracket (by decide), hearly.1, hdrop] at hsome
    exact Option.isNone_iff_eq_none.mp (by simpa using hsome)
  · exact afterList?_cons_of_ne hc _

/-- A place where a list may end ends a list from anywhere before it. -/
theorem exists_findClosing {after closing : List Char} (h : afterList? .csharp after = some closing)
    (before : List Char) : ∃ found, findClosing .csharp (before ++ after) = some found := by
  induction before with
  | nil =>
      refine ⟨([], after, closing), findClosing_eq_some_iff.mpr ⟨rfl, h, fun early hsuffix hne => ?_⟩⟩
      exact absurd (List.suffix_nil.mp hsuffix) hne
  | cons c before ih =>
      obtain ⟨found, hfound⟩ := ih
      rw [List.cons_append, findClosing, hfound]
      split
      · exact ⟨_, rfl⟩
      · exact ⟨_, rfl⟩

/-! ## What comes before the list -/

/-- The text from a bracket on, or nothing. -/
def Stops (cs : List Char) : Prop := ∀ c ∈ cs.head?, c = '('

/-- A step of the search that does the same whatever stands behind the first bracket, and stays
before it. -/
def Local (f : List Char → Option (List Char)) : Prop :=
  ∀ u, '(' ∉ u → (∀ t, Stops t → f (u ++ t) = none) ∨
    ∃ u', '(' ∉ u' ∧ ∀ t, Stops t → f (u ++ t) = some (u' ++ t)

theorem Local.bind {f g : List Char → Option (List Char)} (hf : Local f) (hg : Local g) :
    Local fun cs => (f cs).bind g := by
  intro u hu
  rcases hf u hu with hnone | ⟨u', hu', hsome⟩
  · exact .inl fun t ht => by simp only [hnone t ht, Option.bind_none]
  · rcases hg u' hu' with hnone | ⟨u'', hu'', hsome'⟩
    · exact .inl fun t ht => by simp only [hsome t ht, Option.bind_some, hnone t ht]
    · exact .inr ⟨u'', hu'', fun t ht => by simp only [hsome t ht, Option.bind_some, hsome' t ht]⟩

theorem local_afterText? {word : List Char} (hword : '(' ∉ word) : Local (Text.afterText? word) := by
  intro u hu
  induction word generalizing u with
  | nil => exact .inr ⟨u, hu, fun t _ => rfl⟩
  | cons w word ih =>
      rw [List.mem_cons, not_or] at hword
      cases u with
      | nil =>
          refine .inl fun t ht => ?_
          cases t with
          | nil => rfl
          | cons c t => exact if_neg fun heq => hword.1 (heq.trans (ht c rfl)).symm
      | cons c u =>
          rw [List.mem_cons, not_or] at hu
          by_cases hc : w = c
          · have hstep : ∀ t, Text.afterText? (w :: word) (c :: u ++ t) = Text.afterText? word (u ++ t) :=
              fun t => if_pos hc
            simpa only [hstep] using ih hword.2 u hu.2
          · exact .inl fun t _ => if_neg hc

theorem dropWhile_isBlank_append {t : List Char} (ht : Stops t) (u : List Char) :
    (u ++ t).dropWhile Text.isBlank = u.dropWhile Text.isBlank ++ t := by
  have hstop : t.dropWhile Text.isBlank = t := by
    cases t with
    | nil => rfl
    | cons c t =>
        have hc : c = '(' := ht c rfl
        subst hc
        rfl
  rw [List.dropWhile_append]
  split
  · next hnil => rw [List.isEmpty_iff.mp hnil, hstop, List.nil_append]
  · rfl

theorem notMem_dropWhile_isBlank {u : List Char} (hu : '(' ∉ u) : '(' ∉ u.dropWhile Text.isBlank :=
  fun hmem => hu (List.dropWhile_suffix Text.isBlank |>.subset hmem)

theorem local_afterSomeBlanks : Local fun cs => some (afterSomeBlanks cs) := fun u hu =>
  .inr ⟨_, notMem_dropWhile_isBlank hu, fun _ ht => congrArg some (dropWhile_isBlank_append ht u)⟩

theorem local_afterBlanks? : Local afterBlanks? := by
  intro u hu
  cases u with
  | nil =>
      refine .inl fun t ht => ?_
      cases t with
      | nil => rfl
      | cons c t =>
          have hc : c = '(' := ht c rfl
          subst hc
          rfl
  | cons c u =>
      rw [List.mem_cons, not_or] at hu
      cases hblank : Text.isBlank c with
      | true =>
          refine .inr ⟨_, notMem_dropWhile_isBlank hu.2, fun t ht => ?_⟩
          rw [List.cons_append, afterBlanks?, if_pos hblank, dropWhile_isBlank_append ht]
      | false => exact .inl fun t _ => if_neg (by simp [hblank])

/-- The search up to the opening bracket. -/
def beforeBracket? (cs : List Char) : Option (List Char) :=
  (((((Text.afterText? "private".toList cs).bind afterBlanks?).bind (Text.afterText? "void".toList)).bind
    afterBlanks?).bind (Text.afterText? "RunScript".toList)).bind fun cs => some (afterSomeBlanks cs)

theorem beforeList?_eq (cs : List Char) :
    beforeList? .csharp cs = (beforeBracket? cs).bind (afterChar? '(') := by
  simp only [beforeList?, beforeBracket?, Option.bind_eq_bind, Option.bind_assoc, Option.bind_some]

theorem local_beforeBracket? : Local beforeBracket? :=
  (((((local_afterText? (by decide)).bind local_afterBlanks?).bind (local_afterText? (by decide))).bind
    local_afterBlanks?).bind (local_afterText? (by decide))).bind local_afterSomeBlanks

/-- **The search for a list decides at the first bracket.** -/
theorem beforeList?_cases {u : List Char} (hu : '(' ∉ u) :
    (∀ t, Stops t → beforeList? .csharp (u ++ t) = none) ∨
      ∀ t, Stops t → beforeList? .csharp (u ++ t) = afterChar? '(' t := by
  rcases local_beforeBracket? u hu with hnone | ⟨u', hu', hsome⟩
  · exact .inl fun t ht => by rw [beforeList?_eq, hnone t ht, Option.bind_none]
  · cases u' with
    | nil => exact .inr fun t ht => by rw [beforeList?_eq, hsome t ht, List.nil_append, Option.bind_some]
    | cons c u' =>
        refine .inl fun t ht => ?_
        rw [beforeList?_eq, hsome t ht, Option.bind_some]
        exact if_neg fun heq : '(' = c => hu' (heq ▸ List.mem_cons_self)

theorem stops_bracket (cs : List Char) : Stops ('(' :: cs) := by
  rintro c hc
  exact (Option.some.inj hc).symm

theorem exists_stop (cs : List Char) : ∃ u t, cs = u ++ t ∧ '(' ∉ u ∧ Stops t := by
  refine ⟨cs.takeWhile (· != '('), cs.dropWhile (· != '('), List.takeWhile_append_dropWhile.symm, ?_, ?_⟩
  · intro hmem
    simpa using List.mem_takeWhile_imp hmem
  · intro c hc
    have hnot := List.head?_dropWhile_not (· != '(') cs
    rw [Option.mem_def.mp hc] at hnot
    simpa using hnot

/-- Where a list is found, it stands behind the first bracket, and any other list would be found there. -/
theorem exists_of_beforeList? {list : List Char} (h : beforeList? .csharp cs = some list) :
    ∃ u, '(' ∉ u ∧ cs = u ++ '(' :: list ∧ ∀ list', beforeList? .csharp (u ++ '(' :: list') = some list' := by
  obtain ⟨u, t, rfl, hu, ht⟩ := exists_stop cs
  rcases beforeList?_cases hu with hnone | hsome
  · rw [hnone t ht] at h
    cases h
  · rw [hsome t ht] at h
    cases t with
    | nil => cases h
    | cons c t =>
        have hc : c = '(' := ht c rfl
        subst hc
        cases h
        exact ⟨u, hu, rfl, fun list' => hsome _ (stops_bracket list')⟩

/-! ## The entry point -/

variable {passed : List Char}

theorem entryPointAt?_of_beforeList? (passed : List Char) {u list inside after closing : List Char}
    (hbefore : beforeList? .csharp (u ++ '(' :: list) = some list)
    (hclosing : findClosing .csharp list = some (inside, after, closing)) :
    ∃ whole, entryPointAt? .csharp passed (u ++ '(' :: list) =
      some ⟨passed.reverse ++ (u ++ ['(']), inside, after, whole⟩ := by
  have hopening : (u ++ '(' :: list).take ((u ++ '(' :: list).length - list.length) = u ++ ['('] := by
    rw [← List.singleton_append, ← List.append_assoc, List.length_append, Nat.add_sub_cancel,
      List.take_left]
  refine ⟨u ++ ['('] ++ inside ++ closing, ?_⟩
  simp only [entryPointAt?, hbefore, hclosing, hopening, Option.bind_eq_bind, Option.bind_some]
  rfl

theorem exists_of_entryPointAt? {entry : EntryPoint} (h : entryPointAt? .csharp passed cs = some entry) :
    ∃ u closing, cs = u ++ '(' :: (entry.inside ++ entry.after) ∧
      entry.before = passed.reverse ++ (u ++ ['(']) ∧
      findClosing .csharp (entry.inside ++ entry.after) = some (entry.inside, entry.after, closing) ∧
      ∀ list, beforeList? .csharp (u ++ '(' :: list) = some list := by
  cases hbefore : beforeList? .csharp cs with
  | none =>
      simp only [entryPointAt?, hbefore] at h
      cases h
  | some list =>
      obtain ⟨u, -, rfl, hall⟩ := exists_of_beforeList? hbefore
      cases hclosing : findClosing .csharp list with
      | none =>
          simp only [entryPointAt?, hbefore, hclosing, Option.bind_eq_bind, Option.bind_some] at h
          cases h
      | some found =>
          obtain ⟨inside, after, closing⟩ := found
          obtain ⟨whole, hentry⟩ := entryPointAt?_of_beforeList? passed hbefore hclosing
          rw [hentry] at h
          cases h
          obtain ⟨rfl, -⟩ := findClosing_eq_some_iff.mp hclosing
          exact ⟨u, closing, rfl, rfl, hclosing, hall⟩

/-- A place before an entry point stays none, whatever stands in the list. -/
theorem entryPointAt?_replaced_eq_none {w inside after closing : List Char}
    (hafter : afterList? .csharp after = some closing)
    (h : entryPointAt? .csharp passed (w ++ '(' :: (inside ++ after)) = none) (inside' : List Char) :
    entryPointAt? .csharp passed (w ++ '(' :: (inside' ++ after)) = none := by
  obtain ⟨u, t, hw, hu, ht⟩ := exists_stop (w ++ ['('])
  obtain ⟨z, rfl⟩ : ∃ z, t = '(' :: z := by
    cases t with
    | nil =>
        rw [List.append_nil] at hw
        exact absurd (hw ▸ List.mem_append_right w List.mem_cons_self) hu
    | cons c z => exact ⟨z, by rw [show c = '(' from ht c rfl]⟩
  have hplace : ∀ rest, w ++ '(' :: rest = u ++ '(' :: (z ++ rest) := by
    intro rest
    have happend := congrArg (· ++ rest) hw
    simpa using happend
  rw [hplace] at h ⊢
  rcases beforeList?_cases hu with hnone | hsome
  · simp only [entryPointAt?, hnone _ (stops_bracket _)]
    rfl
  · obtain ⟨found, hfound⟩ := exists_findClosing hafter (z ++ inside)
    rw [List.append_assoc] at hfound
    obtain ⟨whole, hentry⟩ := entryPointAt?_of_beforeList? passed (hsome _ (stops_bracket _)) hfound
    rw [hentry] at h
    cases h

theorem entryPointFrom?_of_at {language : Language} {entry : EntryPoint}
    (h : entryPointAt? language passed cs = some entry) : entryPointFrom? language passed cs = some entry := by
  cases cs with
  | nil => exact h
  | cons c rest => rw [entryPointFrom?, h]

/-- What an entry point is of its script, and of all scripts with other lists in it. -/
structure EntryPoint.Within (entry : EntryPoint) (passed cs : List Char) : Prop where
  unended : hasEnd entry.inside = false
  place : ∃ w, cs = w ++ '(' :: (entry.inside ++ entry.after) ∧ entry.before = passed.reverse ++ (w ++ ['(']) ∧
    ∀ list, hasEnd list = false → ∃ whole,
      entryPointFrom? .csharp passed (w ++ '(' :: (list ++ entry.after)) =
        some ⟨entry.before, list, entry.after, whole⟩

theorem within_of_entryPointFrom? {entry : EntryPoint} (h : entryPointFrom? .csharp passed cs = some entry) :
    entry.Within passed cs ∧ ∃ closing, afterList? .csharp entry.after = some closing := by
  induction cs generalizing passed with
  | nil =>
      obtain ⟨u, _, hcs, -⟩ := exists_of_entryPointAt? h
      simp at hcs
  | cons c rest ih =>
      rw [entryPointFrom?] at h
      split at h
      · next found hat =>
        cases h
        obtain ⟨u, closing, hcs, hbefore, hclosing, hall⟩ := exists_of_entryPointAt? hat
        have hafter := (findClosing_eq_some_iff.mp hclosing).2.1
        refine ⟨⟨hasEnd_of_findClosing hclosing, u, hcs, hbefore, fun list hlist => ?_⟩, closing, hafter⟩
        obtain ⟨whole, hentry⟩ := entryPointAt?_of_beforeList? passed (hall _)
          (findClosing_replaced hafter hlist)
        exact ⟨whole, hbefore ▸ entryPointFrom?_of_at hentry⟩
      · next hat =>
        obtain ⟨⟨hunended, w, rfl, hbefore, hall⟩, closing, hafter⟩ := ih h
        refine ⟨⟨hunended, c :: w, rfl, by simpa using hbefore, fun list hlist => ?_⟩, closing, hafter⟩
        have hnone := entryPointAt?_replaced_eq_none (w := c :: w) hafter hat list
        rw [List.cons_append] at hnone
        rw [List.cons_append, entryPointFrom?, hnone]
        exact hall list hlist

/-- **Another list in the entry point is found there again.** -/
theorem entryPoint?_replaced {script : String} {entry : EntryPoint} (h : entryPoint? .csharp script = some entry)
    {list : List Char} (hlist : hasEnd list = false) : ∃ whole,
      entryPoint? .csharp (String.ofList (entry.before ++ list ++ entry.after)) =
        some ⟨entry.before, list, entry.after, whole⟩ := by
  obtain ⟨w, -, hbefore, hall⟩ := (within_of_entryPointFrom? h).1.place
  obtain ⟨whole, hentry⟩ := hall list hlist
  refine ⟨whole, ?_⟩
  rw [entryPoint?, String.toList_ofList, ← hentry, hbefore]
  simp

theorem hasEnd_of_entryPoint? {script : String} {entry : EntryPoint}
    (h : entryPoint? .csharp script = some entry) : hasEnd entry.inside = false :=
  (within_of_entryPointFrom? h).1.unended

end Patchbay.Signature
