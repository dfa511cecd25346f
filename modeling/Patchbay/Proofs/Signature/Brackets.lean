import Patchbay.Signature.Parameter
import Patchbay.Proofs.Text.Cutting
import Patchbay.Proofs.Result

/-!
# Declarations between commas

A parameter list is cut at the commas outside brackets.  What matters of a text is then which brackets it
leaves open, and `Closed` says: none, and none of its commas stands outside them.

* `openAfter?` — the open brackets after a character; `splitFrom_append` walks over whole texts at once.
* `Closed.append`, `closed_of_unmarked`, `Closed.trimChars` — texts that are closed.
* **`isDeclaration_of_splitParameters`** — the pieces of a list are closed texts without blanks at the ends.
* **`splitParameters_joined`** — and closed texts come out of a list as they were joined, without the blanks at the
  ends.
-/

namespace Patchbay.Signature

/-- Whether a character counts when a parameter list is cut. -/
def isMark (c : Char) : Bool := (closing? c).isSome || (opening? c).isSome || c == ','

/-- The open brackets after a character, the innermost first.  There are none to tell after a closing
bracket that does not match, and after a comma that ends the declaration. -/
def openAfter? (stack : List Char) (c : Char) : Option (List Char) :=
  if (closing? c).isSome then some (c :: stack)
  else
    match opening? c with
    | some opening =>
      match stack with
      | top :: stack => if top = opening then some stack else none
      | [] => none
    | none => if c = ',' && stack.isEmpty then none else some stack

/-- The brackets of a text match, and no comma stands outside them. -/
def Closed (cs : List Char) : Prop := cs.foldlM openAfter? [] = some []

instance (cs : List Char) : Decidable (Closed cs) := inferInstanceAs (Decidable (_ = _))

variable {stack stack' run cs : List Char} {c : Char}

/-! ## Walking over a text -/

theorem openAfter?_of_unmarked (h : isMark c = false) (stack : List Char) : openAfter? stack c = some stack := by
  unfold isMark at h
  simp only [Bool.or_eq_false_iff, beq_eq_false_iff_ne] at h
  obtain ⟨⟨hopen, hclose⟩, hcomma⟩ := h
  rw [openAfter?, hopen, if_neg (by decide)]
  cases hopening : opening? c with
  | some opening => simp [hopening] at hclose
  | none => simp [hcomma]

theorem foldlM_openAfter?_of_unmarked (h : ∀ c ∈ cs, isMark c = false) (stack : List Char) :
    cs.foldlM openAfter? stack = some stack := by
  induction cs with
  | nil => rfl
  | cons c rest ih =>
      rw [List.foldlM_cons, openAfter?_of_unmarked (h c (by simp))]
      exact ih fun c hc => h c (by simp [hc])

/-- A character that leaves brackets to tell goes to the current piece. -/
theorem splitFrom_cons (h : openAfter? stack c = some stack') (run rest : List Char) :
    splitFrom stack run (c :: rest) = splitFrom stack' (c :: run) rest := by
  unfold openAfter? at h
  rw [splitFrom]
  split
  · next hopen =>
    rw [if_pos hopen] at h
    cases h
    rfl
  · next hopen =>
    rw [if_neg hopen] at h
    split
    · next opening hclose =>
      rw [hclose] at h
      cases stack with
      | nil => cases h
      | cons top stack =>
          dsimp only at h
          by_cases htop : top = opening
          · rw [if_pos htop] at h
            cases h
            exact if_pos htop
          · rw [if_neg htop] at h
            cases h
    · next hclose =>
      rw [hclose] at h
      dsimp only at h
      by_cases hcomma : (decide (c = ',') && stack.isEmpty) = true
      · rw [if_pos hcomma] at h
        cases h
      · rw [if_neg hcomma] at h ⊢
        cases h
        rfl

/-- And so does a whole text. -/
theorem splitFrom_append (h : cs.foldlM openAfter? stack = some stack') (run rest : List Char) :
    splitFrom stack run (cs ++ rest) = splitFrom stack' (cs.reverse ++ run) rest := by
  induction cs generalizing stack run with
  | nil =>
      cases h
      rfl
  | cons c cs ih =>
      rw [List.foldlM_cons] at h
      cases hc : openAfter? stack c with
      | none =>
          rw [hc] at h
          cases h
      | some next =>
          rw [hc] at h
          rw [List.cons_append, splitFrom_cons hc, ih h]
          simp

/-! ## Closed texts -/

theorem Closed.foldlM_append (h : Closed cs) (rest : List Char) :
    (cs ++ rest).foldlM openAfter? [] = rest.foldlM openAfter? [] := by
  rw [List.foldlM_append, show cs.foldlM openAfter? [] = some [] from h]
  rfl

theorem Closed.append {a b : List Char} (ha : Closed a) (hb : Closed b) : Closed (a ++ b) :=
  (ha.foldlM_append b).trans hb

theorem closed_of_unmarked (h : ∀ c ∈ cs, isMark c = false) : Closed cs := foldlM_openAfter?_of_unmarked h []

theorem isMark_of_isBlank (h : Text.isBlank c = true) : isMark c = false := by
  have hopen : closing? c = none := by
    unfold closing?
    split
    all_goals first | cases h | rfl
  have hclose : opening? c = none := by
    unfold opening?
    split
    all_goals first | cases h | rfl
  have hcomma : c ≠ ',' := by
    rintro rfl
    cases h
  rw [isMark, hopen, hclose, beq_false_of_ne hcomma]
  rfl

/-- Blanks around a text open and close nothing. -/
theorem Closed.trimChars (h : Closed cs) : Closed (Text.trimChars cs) := by
  obtain ⟨a, b, hcs, ha, hb⟩ := Text.exists_blanks_around cs
  have hblank : ∀ blanks : List Char, (∀ c ∈ blanks, Text.isBlank c = true) → ∀ stack,
      blanks.foldlM openAfter? stack = some stack :=
    fun blanks hblanks => foldlM_openAfter?_of_unmarked fun c hc => isMark_of_isBlank (hblanks c hc)
  unfold Closed at h
  rw [hcs, List.append_assoc, List.foldlM_append, hblank a ha] at h
  change (Text.trimChars cs ++ b).foldlM openAfter? [] = some [] at h
  rw [List.foldlM_append] at h
  cases hinner : (Text.trimChars cs).foldlM openAfter? [] with
  | none =>
      rw [hinner] at h
      cases h
  | some stack =>
      rw [hinner] at h
      change b.foldlM openAfter? stack = some [] at h
      rw [hblank b hb] at h
      rw [Closed, hinner, h]

/-! ## Cutting a list -/

/-- The walk stops at a comma outside brackets, or fails. -/
theorem splitFrom_of_stop {pieces : List (List Char)} {rest : List Char} (hstop : openAfter? stack c = none)
    (h : splitFrom stack run (c :: rest) = .ok pieces) :
    c = ',' ∧ stack = [] ∧ ∃ others, splitFrom [] [] rest = .ok others ∧ pieces = run.reverse :: others := by
  unfold openAfter? at hstop
  rw [splitFrom] at h
  split at h
  · next hopen =>
    rw [if_pos hopen] at hstop
    cases hstop
  · next hopen =>
    rw [if_neg hopen] at hstop
    split at h
    · next opening hclose =>
      rw [hclose] at hstop
      cases stack with
      | nil => cases h
      | cons top stack =>
          dsimp only at h
          split at h
          · next htop => simp [htop] at hstop
          · cases h
    · next hclose =>
      rw [hclose] at hstop
      split at h
      · next hcomma =>
        simp only [Bool.and_eq_true, decide_eq_true_eq, List.isEmpty_iff] at hcomma
        obtain ⟨others, hothers, hpieces⟩ := exists_of_map_eq_ok h
        exact ⟨hcomma.1, hcomma.2, others, hothers, hpieces.symm⟩
      · next hcomma =>
        dsimp only at hstop
        rw [if_neg hcomma] at hstop
        cases hstop

/-- The first piece closes what is open, and the others are closed. -/
theorem exists_of_splitFrom {pieces : List (List Char)} (h : splitFrom stack run cs = .ok pieces) :
    ∃ first others, pieces = (run.reverse ++ first) :: others ∧ first.foldlM openAfter? stack = some [] ∧
      first <+: cs ∧ ∀ piece ∈ others, Closed piece ∧ piece <:+: cs := by
  induction cs generalizing stack run pieces with
  | nil =>
      rw [splitFrom] at h
      split at h
      · next hstack =>
        cases h
        exact ⟨[], [], by simp, by simp [List.isEmpty_iff.mp hstack], List.prefix_rfl, by simp⟩
      · cases h
  | cons c rest ih =>
      cases hc : openAfter? stack c with
      | some stack' =>
          rw [splitFrom_cons hc] at h
          obtain ⟨first, others, hpieces, hfirst, hfront, hothers⟩ := ih h
          refine ⟨c :: first, others, by simpa using hpieces, ?_, List.cons_prefix_cons.mpr ⟨rfl, hfront⟩, fun piece hpiece => ?_⟩
          · rw [List.foldlM_cons, hc]
            exact hfirst
          · exact ⟨(hothers piece hpiece).1, List.infix_cons (hothers piece hpiece).2⟩
      | none =>
          obtain ⟨-, rfl, others, hrest, rfl⟩ := splitFrom_of_stop hc h
          obtain ⟨first, later, rfl, hfirst, hfront, hlater⟩ := ih hrest
          refine ⟨[], first :: later, by simp, rfl, List.nil_prefix,
            List.forall_mem_cons.mpr ⟨⟨hfirst, ?_⟩, fun piece hpiece => ?_⟩⟩
          · exact List.infix_cons hfront.isInfix
          · exact ⟨(hlater piece hpiece).1, List.infix_cons (hlater piece hpiece).2⟩

/-- A text that stands as one declaration in a parameter list. -/
structure IsDeclaration (cs : List Char) : Prop where
  ne : cs ≠ []
  trimmed : Text.Trimmed cs
  closed : Closed cs

/-- **A parameter list is cut into declarations.** -/
theorem isDeclaration_of_splitParameters {text : List Char} {pieces : List (List Char)}
    (h : splitParameters text = .ok pieces) {piece : List Char} (hpiece : piece ∈ pieces) :
    IsDeclaration piece ∧ piece <:+: text := by
  obtain ⟨raw, hraw, rfl⟩ := exists_of_map_eq_ok h
  obtain ⟨hmem, hne⟩ := List.mem_filter.mp hpiece
  obtain ⟨whole, hwhole, rfl⟩ := List.mem_map.mp hmem
  have hclosed : Closed whole ∧ whole <:+: text := by
    obtain ⟨first, others, rfl, hfirst, hfront, hothers⟩ := exists_of_splitFrom hraw
    rcases List.mem_cons.mp hwhole with rfl | hwhole
    · exact ⟨hfirst, hfront.isInfix⟩
    · exact hothers whole hwhole
  exact ⟨⟨by simpa using hne, Text.trimmed_trimChars whole, hclosed.1.trimChars⟩,
    (Text.trimChars_isInfix whole).trans hclosed.2⟩

/-- Closed texts are cut apart at the commas between them. -/
theorem splitFrom_intercalate {first : List Char} {others : List (List Char)} (hfirst : Closed first)
    (hothers : ∀ piece ∈ others, Closed piece) (run : List Char) :
    splitFrom [] run (List.intercalate [','] (first :: others)) = .ok ((run.reverse ++ first) :: others) := by
  induction others generalizing first run with
  | nil =>
      rw [List.intercalate_singleton, ← List.append_nil first, splitFrom_append hfirst]
      simp [splitFrom]
  | cons next others ih =>
      obtain ⟨hnext, hothers⟩ := List.forall_mem_cons.mp hothers
      have hcomma : ∀ run rest, splitFrom [] run (',' :: rest) = (splitFrom [] [] rest).map (run.reverse :: ·) :=
        fun _ _ => rfl
      rw [List.intercalate_cons_cons, List.append_assoc, splitFrom_append hfirst, List.singleton_append, hcomma,
        ih hnext hothers]
      simp [Except.map]

/-- A blank after each comma belongs to the text that follows. -/
theorem intercalate_comma_blank (first : List Char) (others : List (List Char)) :
    List.intercalate [',', ' '] (first :: others) = List.intercalate [','] (first :: others.map (' ' :: ·)) := by
  induction others generalizing first with
  | nil => simp
  | cons next others ih =>
      rw [List.intercalate_cons_cons, ih, List.map_cons, List.intercalate_cons_cons]
      cases others <;> simp [List.intercalate_cons_cons]

/-- **Closed texts that were joined are what the list is cut into**, without the blanks around them. -/
theorem splitParameters_joined {pieces : List (List Char)}
    (h : ∀ piece ∈ pieces, Closed piece ∧ Text.trimChars piece ≠ []) :
    splitParameters (List.intercalate [',', ' '] pieces) = .ok (pieces.map Text.trimChars) := by
  have hfilter : (pieces.map Text.trimChars).filter (fun piece => !piece.isEmpty) = pieces.map Text.trimChars := by
    refine List.filter_eq_self.mpr fun piece hpiece => ?_
    obtain ⟨whole, hwhole, rfl⟩ := List.mem_map.mp hpiece
    simpa using (h whole hwhole).2
  cases pieces with
  | nil => rfl
  | cons first others =>
      obtain ⟨hfirst, hothers⟩ := List.forall_mem_cons.mp h
      have hmap : others.map (Text.trimChars ∘ (' ' :: ·)) = others.map Text.trimChars :=
        List.map_congr_left fun piece _ => Text.trimBy_cons (by decide) piece
      have hclosed : ∀ piece ∈ others.map (' ' :: ·), Closed piece := by
        intro piece hpiece
        obtain ⟨whole, hwhole, rfl⟩ := List.mem_map.mp hpiece
        exact Closed.append (show Closed [' '] by decide) (hothers whole hwhole).1
      rw [splitParameters, intercalate_comma_blank, splitFrom_intercalate hfirst.1 hclosed]
      rw [List.map_cons] at hfilter
      simp only [Except.map, List.reverse_nil, List.nil_append, List.map_cons, List.map_map, hmap, hfilter]

end Patchbay.Signature
