import Patchbay.Proofs.Signature.Brackets

/-!
# Brackets and commas of parameter lists

A parameter list is cut by one walk over its characters with a stack of open brackets.  What the walk comes to is
said here without a stack.

* `brackets`, `Nested` — the brackets that belong together, and as a grammar the texts in which they are properly
  nested
* `Closes` — the texts that end the brackets of a stack and are nested besides.  This is what the induction over
  the walk needs: **`exists_splitFrom_iff`** says it for every stack, and so for the empty one.
* `Undivided`, **`closed_iff`** — a comma is outside brackets if what stands before it is nested.
* `Parts` — the pieces of a text between its commas outside brackets.  There is one way to divide a text, and the
  walk finds it (**`splitFrom_eq_ok_iff`**).
* **`splitParameters_inverts`** — the result: cutting undoes joining, and what it does to all other texts
-/

namespace Patchbay.Signature

/-- The brackets that belong together. -/
def brackets : List (Char × Char) := [('<', '>'), ('(', ')'), ('[', ']'), ('\x7b', '\x7d')]

/-- Texts whose brackets are properly nested. -/
inductive Nested : List Char → Prop
  | nil : Nested []
  /-- A character that is no bracket. -/
  | plain {c : Char} {rest : List Char} (hplain : ∀ pair ∈ brackets, c ≠ pair.1 ∧ c ≠ pair.2)
      (hrest : Nested rest) : Nested (c :: rest)
  /-- A bracket, what it encloses, and the bracket that ends it. -/
  | enclosed {first last : Char} {inner rest : List Char} (hends : (first, last) ∈ brackets)
      (hinner : Nested inner) (hrest : Nested rest) : Nested (first :: (inner ++ last :: rest))

/-- No comma stands outside brackets: before each of them a bracket is open. -/
def Undivided (cs : List Char) : Prop := ∀ before after, cs = before ++ ',' :: after → ¬ Nested before

/-- Texts that end the open brackets of a stack, the innermost first, and are nested besides. -/
def Closes : (stack : List Char) → List Char → Prop
  | [], cs => Nested cs
  | first :: stack, cs => ∃ last inner rest, cs = inner ++ last :: rest ∧ (first, last) ∈ brackets ∧
      Nested inner ∧ Closes stack rest

/-- A declaration as it is written between commas. -/
structure IsFragment (cs : List Char) : Prop where
  ne : cs ≠ []
  trimmed : Text.Trimmed cs
  nested : Nested cs
  undivided : Undivided cs

/-- The pieces of a text between its commas outside brackets. -/
structure Parts (text : List Char) (pieces : List (List Char)) : Prop where
  ne : pieces ≠ []
  joined : List.intercalate [','] pieces = text
  nested : ∀ piece ∈ pieces, Nested piece
  undivided : ∀ piece ∈ pieces, Undivided piece

variable {stack run cs rest text : List Char} {c : Char} {pieces : List (List Char)}

/-! ## Brackets -/

theorem closing?_eq_some_iff {first last : Char} : closing? first = some last ↔ (first, last) ∈ brackets := by
  constructor
  · intro h
    unfold closing? at h
    split at h <;> cases h <;> decide
  · simp only [brackets, List.mem_cons, List.not_mem_nil, or_false, Prod.mk.injEq]
    rintro (⟨rfl, rfl⟩ | ⟨rfl, rfl⟩ | ⟨rfl, rfl⟩ | ⟨rfl, rfl⟩) <;> rfl

theorem opening?_eq_some_iff {first last : Char} : opening? last = some first ↔ (first, last) ∈ brackets := by
  constructor
  · intro h
    unfold opening? at h
    split at h <;> cases h <;> decide
  · simp only [brackets, List.mem_cons, List.not_mem_nil, or_false, Prod.mk.injEq]
    rintro (⟨rfl, rfl⟩ | ⟨rfl, rfl⟩ | ⟨rfl, rfl⟩ | ⟨rfl, rfl⟩) <;> rfl

theorem plain_of_eq_none (hopen : closing? c = none) (hclose : opening? c = none) :
    ∀ pair ∈ brackets, c ≠ pair.1 ∧ c ≠ pair.2 := by
  rintro ⟨first, last⟩ hpair
  constructor
  · rintro rfl
    rw [closing?_eq_some_iff.mpr hpair] at hopen
    cases hopen
  · rintro rfl
    rw [opening?_eq_some_iff.mpr hpair] at hclose
    cases hclose

/-- A bracket that ends another begins none. -/
theorem fst_ne_snd : ∀ pair ∈ brackets, ∀ pair' ∈ brackets, pair.1 ≠ pair'.2 := by decide

/-! ## Nested texts -/

theorem nested_cons_iff_of_plain (hplain : ∀ pair ∈ brackets, c ≠ pair.1 ∧ c ≠ pair.2) :
    Nested (c :: rest) ↔ Nested rest := by
  refine ⟨fun h => ?_, .plain hplain⟩
  cases h with
  | plain _ hrest => exact hrest
  | enclosed hends => exact absurd rfl (hplain _ hends).1

theorem not_nested_cons {first last : Char} (hends : (first, last) ∈ brackets) : ¬ Nested (last :: rest) := by
  intro hnested
  cases hnested with
  | plain hplain => exact (hplain _ hends).2 rfl
  | enclosed hends' => exact fst_ne_snd _ hends' _ hends rfl

/-- What follows a bracket ends it. -/
theorem nested_cons_iff {first last : Char} (hends : (first, last) ∈ brackets) :
    Nested (first :: rest) ↔ Closes [first] rest := by
  constructor
  · intro hnested
    cases hnested with
    | plain hplain => exact absurd rfl (hplain _ hends).1
    | enclosed hends hinner hrest => exact ⟨_, _, _, rfl, hends, hinner, hrest⟩
  · rintro ⟨last, inner, rest, rfl, hends, hinner, hrest⟩
    exact .enclosed hends hinner hrest

/-! ## Ending the brackets of a stack -/

theorem closes_cons_iff_of_plain (hplain : ∀ pair ∈ brackets, c ≠ pair.1 ∧ c ≠ pair.2) :
    Closes stack (c :: rest) ↔ Closes stack rest := by
  cases stack with
  | nil => exact nested_cons_iff_of_plain hplain
  | cons first stack =>
      constructor
      · rintro ⟨last, inner, after, hsplit, hends, hinner, hafter⟩
        rcases List.cons_eq_append_iff.mp hsplit with ⟨-, hlast⟩ | ⟨inner, rfl, rfl⟩
        · cases hlast
          exact absurd rfl (hplain _ hends).2
        · exact ⟨last, inner, after, rfl, hends, (nested_cons_iff_of_plain hplain).mp hinner, hafter⟩
      · rintro ⟨last, inner, after, rfl, hends, hinner, hafter⟩
        exact ⟨last, c :: inner, after, rfl, hends, .plain hplain hinner, hafter⟩

/-- A bracket goes on the stack. -/
theorem closes_cons_iff {first last : Char} (hpair : (first, last) ∈ brackets) :
    Closes stack (first :: rest) ↔ Closes (first :: stack) rest := by
  cases stack with
  | nil => exact nested_cons_iff hpair
  | cons below stack =>
      constructor
      · rintro ⟨last, inner, after, hsplit, hends, hinner, hafter⟩
        rcases List.cons_eq_append_iff.mp hsplit with ⟨-, hlast⟩ | ⟨inner, rfl, rfl⟩
        · cases hlast
          exact absurd rfl (fst_ne_snd _ hpair _ hends)
        · obtain ⟨last', inner', between, rfl, hends', hinner', hbetween⟩ := (nested_cons_iff hpair).mp hinner
          exact ⟨last', inner', between ++ last :: after, by simp, hends', hinner',
            last, between, after, rfl, hends, hbetween, hafter⟩
      · rintro ⟨last', inner', _, rfl, hends', hinner', last, between, after, rfl, hends, hbetween, hafter⟩
        exact ⟨last, first :: (inner' ++ last' :: between), after, by simp, hends,
          .enclosed hends' hinner' hbetween, hafter⟩

/-- A bracket that ends another ends the innermost of the stack. -/
theorem closes_cons_iff_of_ends {first last : Char} (hpair : (first, last) ∈ brackets) :
    Closes stack (last :: rest) ↔ ∃ below, stack = first :: below ∧ Closes below rest := by
  cases stack with
  | nil => exact iff_of_false (not_nested_cons hpair) (by simp)
  | cons top stack =>
      constructor
      · rintro ⟨last', inner, after, hsplit, hends, hinner, hafter⟩
        rcases List.cons_eq_append_iff.mp hsplit with ⟨-, hlast⟩ | ⟨inner, rfl, -⟩
        · cases hlast
          have htop : some top = some first :=
            (opening?_eq_some_iff.mpr hends).symm.trans (opening?_eq_some_iff.mpr hpair)
          cases htop
          exact ⟨stack, rfl, hafter⟩
        · exact absurd hinner (not_nested_cons hpair)
      · rintro ⟨below, hstack, hbelow⟩
        cases hstack
        exact ⟨last, [], rest, rfl, hpair, .nil, hbelow⟩

theorem not_closes_nil (top : Char) (stack : List Char) : ¬ Closes (top :: stack) [] := by
  rintro ⟨last, inner, rest, hsplit, -⟩
  simp at hsplit

/-- **The walk ends well exactly on the texts that end the brackets of its stack.** -/
theorem exists_splitFrom_iff (stack run cs : List Char) :
    (∃ pieces, splitFrom stack run cs = .ok pieces) ↔ Closes stack cs := by
  fun_induction splitFrom stack run cs with
  | case1 stack run hstack =>
      rw [List.isEmpty_iff.mp hstack]
      exact iff_of_true ⟨_, rfl⟩ .nil
  | case2 stack run hstack =>
      obtain ⟨top, below, rfl⟩ := List.exists_cons_of_ne_nil (mt List.isEmpty_iff.mpr hstack)
      exact iff_of_false nofun (not_closes_nil top below)
  | case3 stack run c rest hopen ih =>
      obtain ⟨last, hlast⟩ := Option.isSome_iff_exists.mp hopen
      rw [ih, closes_cons_iff (closing?_eq_some_iff.mp hlast)]
  | case4 run c rest _ top stack hclose ih =>
      rw [ih, closes_cons_iff_of_ends (opening?_eq_some_iff.mp hclose)]
      simp
  | case5 run c rest _ opening hclose top stack hne =>
      rw [closes_cons_iff_of_ends (opening?_eq_some_iff.mp hclose)]
      simp [hne]
  | case6 run c rest _ opening hclose =>
      rw [closes_cons_iff_of_ends (opening?_eq_some_iff.mp hclose)]
      simp
  | case7 stack run c rest hopen hclose hcomma ih =>
      -- a comma outside brackets: the walk begins anew, on the same stack
      simp only [Bool.and_eq_true, List.isEmpty_iff] at hcomma
      rw [hcomma.2, closes_cons_iff_of_plain (plain_of_eq_none (by simpa using hopen) hclose), ← ih]
      cases splitFrom [] [] rest <;> simp [Except.map]
  | case8 stack run c rest hopen hclose _ ih =>
      rw [ih, closes_cons_iff_of_plain (plain_of_eq_none (by simpa using hopen) hclose)]

/-! ## Dividing a text -/

/-- No character is lost between the pieces but the commas. -/
theorem intercalate_of_splitFrom (h : splitFrom stack run cs = .ok pieces) :
    List.intercalate [','] pieces = run.reverse ++ cs := by
  fun_induction splitFrom stack run cs generalizing pieces with
  | case1 =>
      cases h
      simp
  | case2 => cases h
  | case3 _ _ _ _ _ ih => simpa using ih h
  | case4 _ _ _ _ _ _ _ ih => simpa using ih h
  | case5 => cases h
  | case6 => cases h
  | case7 stack run c rest _ _ hcomma ih =>
      simp only [Bool.and_eq_true, decide_eq_true_eq] at hcomma
      obtain ⟨others, hothers, rfl⟩ := exists_of_map_eq_ok h
      obtain ⟨first, later, rfl, -⟩ := exists_of_splitFrom hothers
      rw [List.intercalate_cons_cons, ih hothers, hcomma.1]
      simp
  | case8 _ _ _ _ _ _ _ ih => simpa using ih h

/-- Nested texts are divided into closed ones. -/
theorem Nested.exists_closed (h : Nested cs) :
    ∃ pieces, splitFrom [] [] cs = .ok pieces ∧ List.intercalate [','] pieces = cs ∧ pieces ≠ [] ∧
      ∀ piece ∈ pieces, Closed piece := by
  obtain ⟨pieces, hpieces⟩ := (exists_splitFrom_iff [] [] cs).mpr h
  obtain ⟨first, others, rfl, hfirst, -, hothers⟩ := exists_of_splitFrom hpieces
  exact ⟨_, hpieces, intercalate_of_splitFrom hpieces, List.cons_ne_nil _ _,
    List.forall_mem_cons.mpr ⟨hfirst, fun piece hpiece => (hothers piece hpiece).1⟩⟩

theorem Closed.nested (h : Closed cs) : Nested cs := by
  have hnone : ∀ piece ∈ ([] : List (List Char)), Closed piece := by simp
  refine (exists_splitFrom_iff [] [] cs).mp ⟨[cs], ?_⟩
  simpa using splitFrom_intercalate h hnone []

/-- The closed text at the beginning of a nested one ends at its end, or at a comma. -/
theorem Nested.exists_front (h : Nested cs) :
    ∃ front, Closed front ∧ (front = cs ∨ ∃ rest, cs = front ++ ',' :: rest) := by
  obtain ⟨pieces, -, rfl, hne, hclosed⟩ := h.exists_closed
  match pieces, hne with
  | [front], _ => exact ⟨front, hclosed front (by simp), .inl (by simp)⟩
  | front :: next :: others, _ =>
      exact ⟨front, hclosed front (by simp), .inr ⟨List.intercalate [','] (next :: others), by
        rw [List.intercalate_cons_cons]; simp⟩⟩

/-- **What the walk keeps on its stack tells the same as the grammar.** -/
theorem closed_iff (cs : List Char) : Closed cs ↔ Nested cs ∧ Undivided cs := by
  constructor
  · refine fun h => ⟨h.nested, fun before after hsplit hbefore => ?_⟩
    -- the walk comes to a comma with an empty stack
    have hcomma : ∀ front rest, Closed front → cs ≠ front ++ ',' :: rest := by
      rintro front rest hfront rfl
      have hwalk := hfront.foldlM_append (',' :: rest)
      rw [show (front ++ ',' :: rest).foldlM openAfter? [] = some [] from h] at hwalk
      cases hwalk
    obtain ⟨front, hfront, rfl | ⟨rest, rfl⟩⟩ := hbefore.exists_front
    · exact hcomma front after hfront hsplit
    · exact hcomma front (rest ++ ',' :: after) hfront (by simpa using hsplit)
  · rintro ⟨hnested, hundivided⟩
    obtain ⟨front, hfront, rfl | ⟨rest, rfl⟩⟩ := hnested.exists_front
    · exact hfront
    · exact absurd hfront.nested (hundivided front rest rfl)

theorem isFragment_iff (cs : List Char) : IsFragment cs ↔ IsDeclaration cs := by
  constructor
  · exact fun h => ⟨h.ne, h.trimmed, (closed_iff cs).mpr ⟨h.nested, h.undivided⟩⟩
  · exact fun h => ⟨h.ne, h.trimmed, ((closed_iff cs).mp h.closed).1, ((closed_iff cs).mp h.closed).2⟩

/-- **The walk divides a text in the one way there is.** -/
theorem splitFrom_eq_ok_iff : splitFrom [] [] text = .ok pieces ↔ Parts text pieces := by
  constructor
  · intro h
    obtain ⟨pieces', hpieces', hjoined, hne, hclosed⟩ :=
      Nested.exists_closed ((exists_splitFrom_iff [] [] text).mp ⟨pieces, h⟩)
    rw [h] at hpieces'
    cases hpieces'
    exact ⟨hne, hjoined, fun piece hpiece => ((closed_iff piece).mp (hclosed piece hpiece)).1,
      fun piece hpiece => ((closed_iff piece).mp (hclosed piece hpiece)).2⟩
  · intro h
    have hclosed : ∀ piece ∈ pieces, Closed piece :=
      fun piece hpiece => (closed_iff piece).mpr ⟨h.nested piece hpiece, h.undivided piece hpiece⟩
    obtain ⟨first, others, rfl⟩ := List.exists_cons_of_ne_nil h.ne
    rw [← h.joined]
    exact splitFrom_intercalate (hclosed first (by simp)) (fun piece hpiece => hclosed piece (by simp [hpiece])) []

/-! ## Fragments -/

/-- What is left of the pieces of a text: their cores, without those that are blank. -/
theorem forall₂_isCore (pieces : List (List Char)) :
    List.Forall₂ (Text.IsCore Text.isBlank) (pieces.filter fun piece => !piece.all Text.isBlank)
      ((pieces.map Text.trimChars).filter fun piece => !piece.isEmpty) := by
  have hblank : ∀ piece, (Text.trimChars piece).isEmpty = piece.all Text.isBlank := fun piece => by
    rw [Bool.eq_iff_iff, List.isEmpty_iff, Text.trimChars, Text.trimBy_eq_nil_iff, List.all_eq_true]
  rw [Text.forall₂_isCore_iff, List.filter_map]
  exact congrArg _ (List.filter_congr fun piece _ => congrArg not (hblank piece))

/-- **Cutting a parameter list undoes joining one, and is exact on all texts.**  Fragments that were joined come
out as they were.  A text is refused if and only if its brackets are not properly nested; if they are, what comes
out are fragments, and these are what the pieces between the commas outside brackets have between the blanks at
their ends, without the pieces that are blank.  There is one way to divide a text into such pieces. -/
theorem splitParameters_inverts :
    (∀ fragments : List (List Char), (∀ f ∈ fragments, IsFragment f) →
        splitParameters (List.intercalate [',', ' '] fragments) = .ok fragments) ∧
      ∀ text : List Char,
        ((∃ fault, splitParameters text = .error fault) ↔ ¬ Nested text) ∧
        ∀ fragments, splitParameters text = .ok fragments →
          (∀ f ∈ fragments, IsFragment f) ∧
          ∃ pieces, (∀ pieces', Parts text pieces' ↔ pieces' = pieces) ∧
            List.Forall₂ (Text.IsCore Text.isBlank) (pieces.filter fun piece => !piece.all Text.isBlank)
              fragments := by
  refine ⟨fun fragments hfragments => ?_, fun text => ⟨?_, fun fragments h => ⟨fun f hf => ?_, ?_⟩⟩⟩
  · have hdeclared : ∀ f ∈ fragments, IsDeclaration f := fun f hf => (isFragment_iff f).mp (hfragments f hf)
    have htrim : ∀ f ∈ fragments, Text.trimChars f = f := fun f hf => Text.trimChars_eq_self (hdeclared f hf).trimmed
    rw [splitParameters_joined fun f hf => ⟨(hdeclared f hf).closed, by rw [htrim f hf]; exact (hdeclared f hf).ne⟩,
      List.map_congr_left htrim, List.map_id']
  · change _ ↔ ¬ Closes [] text
    rw [← exists_splitFrom_iff [] [] text, splitParameters]
    cases splitFrom [] [] text <;> simp [Except.map]
  · exact (isFragment_iff f).mpr (isDeclaration_of_splitParameters h hf).1
  · obtain ⟨pieces, hpieces, rfl⟩ := exists_of_map_eq_ok h
    refine ⟨pieces, fun pieces' => ?_, forall₂_isCore pieces⟩
    rw [← splitFrom_eq_ok_iff, hpieces, Except.ok.injEq, eq_comm]

/-- The list of a map and a number, in which a comma stands inside brackets. -/
theorem splitParameters_inverts_generics :
    let fragments := ["Dictionary<string, int> map".toList, "double t".toList]
    let text := "Dictionary<string, int> map, double t".toList
    (∀ f ∈ fragments, IsFragment f) ∧ List.intercalate [',', ' '] fragments = text ∧
      splitParameters text = .ok fragments ∧
      ∃ pieces, Parts text pieces ∧ List.Forall₂ (Text.IsCore Text.isBlank)
        (pieces.filter fun piece => !piece.all Text.isBlank) fragments := by
  intro fragments text
  have hfragments : ∀ f ∈ fragments, IsFragment f := by
    refine List.forall_mem_cons.mpr ⟨?_, List.forall_mem_singleton.mpr ?_⟩
    · exact (isFragment_iff _).mpr ⟨by decide, by decide, by decide⟩
    · exact (isFragment_iff _).mpr ⟨by decide, by decide, by decide⟩
  have hjoined : List.intercalate [',', ' '] fragments = text := by decide
  have hsplit : splitParameters text = .ok fragments := hjoined ▸ splitParameters_inverts.1 fragments hfragments
  obtain ⟨-, pieces, hparts, hcores⟩ := (splitParameters_inverts.2 text).2 fragments hsplit
  exact ⟨hfragments, hjoined, hsplit, pieces, (hparts pieces).mpr rfl, hcores⟩

end Patchbay.Signature
