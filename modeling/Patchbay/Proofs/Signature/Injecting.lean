import Patchbay.Proofs.Signature.Retyping

/-!
# Hints in a signature

Hints are free text that is spliced into the source of a script.  Where each of them makes a declaration of its own,
the signature keeps its shape; where they are types, every parameter gets the type that is meant for it and keeps all
else.

* **`inject_keeps_shape`** — the same number of parameters, with the same names and qualifiers; `inject_reshapes`
  has hints that do otherwise.
* `foldlM_marks`, **`marks_of_parse`** — of a declaration only brackets and commas matter for where it ends, and these
  are those of its type, its name and its default.
* `Balanced`, **`Parameter.Written.isPlain`** — so a parameter whose type has matching brackets has a closed default.
* `typesOf`, **`typesOf_typed`** — the types by direction and place
* **`inject_types`** — the parameters of a script with types injected; they are what is extracted, and injecting them
  again changes nothing.  `IsBareType` says what the types are.
-/

namespace Patchbay.Signature

variable {p : Parameter} {hint script : String} {entry : EntryPoint} {inputs outputs : List (Option String)}
  {ps : List Parameter}

/-! ## Injecting -/

theorem truthy_of_entryPoint? (h : entryPoint? .csharp script = some entry) : (Value.str script).truthy = true := by
  rw [Value.truthy, Bool.not_eq_true', String.isEmpty_eq_false_iff]
  rintro rfl
  cases h

/-- What can be retyped is injected, and nothing is reported. -/
theorem inject_of_retyped {script' : String} (hentry : entryPoint? .csharp script = some entry)
    (h : retyped script inputs outputs = .ok script') :
    inject .csharp (.str script) inputs outputs = pure (.str script') := by
  simp only [inject, truthy_of_entryPoint? hentry, h, Bool.not_true, Bool.false_eq_true, if_false]
  rfl

theorem Parameter.reread_name (p : Parameter) (hint : Option String) :
    (p.reread hint).name = p.name ∧ (p.reread hint).qualifier = p.qualifier := by
  unfold reread
  split <;> exact ⟨rfl, rfl⟩

/-- What hints leave as it is in each parameter, they leave in all. -/
theorem map_assigned {β : Type} {f : Parameter → β} {g : Parameter → Option String → Parameter}
    (hf : ∀ p hint, f (g p hint) = f p) :
    ((assignHints inputs outputs ps).map fun a => g a.1 a.2).map f = ps.map f := by
  conv_rhs => rw [← map_fst_assignHints inputs outputs ps]
  rw [List.map_map, List.map_map]
  exact List.map_congr_left fun a _ => hf a.1 a.2

/-- **Hints that can be written to the parameters that they are for leave the signature its shape.** -/
theorem inject_keeps_shape (hentry : entryPoint? .csharp script = some entry)
    (hps : parseParameters entry.inside = .ok ps) (hadmitted : Admitted inputs outputs ps) :
    ∃ script' entry' ps', inject .csharp (.str script) inputs outputs = pure (.str script') ∧
      entryPoint? .csharp script' = some entry' ∧ parseParameters entry'.inside = .ok ps' ∧
      (ps'.map fun p => (p.name, p.qualifier)) = ps.map fun p => (p.name, p.qualifier) := by
  obtain ⟨script', entry', hscript', hentry', hps'⟩ := exists_retyped hentry hps hadmitted
  refine ⟨script', entry', _, inject_of_retyped hentry hscript', hentry', hps', map_assigned fun p hint => ?_⟩
  obtain ⟨hname, hqualifier⟩ := p.reread_name hint
  rw [hname, hqualifier]

/-- An entry point with two inputs, the second with a default, and an output. -/
def arrayScript : String := "private void RunScript(T[] x, int @in = 0, ref T a)\n"

def arrayEntry : EntryPoint where
  before := "private void RunScript(".toList
  inside := "T[] x, int @in = 0, ref T a".toList
  after := ")\n".toList
  whole := "private void RunScript(T[] x, int @in = 0, ref T a)\n".toList

def arrayParameters : List Parameter :=
  [⟨"x", "T[]", "", "", "T[] x"⟩, ⟨"@in", "int", "", "0", "int @in = 0"⟩, ⟨"a", "T", "ref", "", "ref T a"⟩]

theorem entryPoint?_arrayScript : entryPoint? .csharp arrayScript = some arrayEntry := by decide

theorem parseParameters_arrayEntry : parseParameters arrayEntry.inside = .ok arrayParameters := by decide

/-- A hint with blanks around it, an array, and a hint that repeats the qualifier. -/
theorem inject_keeps_shape_arrayScript :
    Admitted [some " T\n", some "int[,]"] [some "ref int"] arrayParameters ∧
      ∃ script' entry' ps', inject .csharp (.str arrayScript) [some " T\n", some "int[,]"] [some "ref int"] =
          pure (.str script') ∧
        entryPoint? .csharp script' = some entry' ∧ parseParameters entry'.inside = .ok ps' ∧
        (ps'.map fun p => (p.name, p.qualifier)) = [("x", ""), ("@in", ""), ("a", "ref")] := by
  have hadmitted : Admitted [some " T\n", some "int[,]"] [some "ref int"] arrayParameters := by decide +kernel
  exact ⟨hadmitted, inject_keeps_shape entryPoint?_arrayScript parseParameters_arrayEntry hadmitted⟩

/-- The names and qualifiers of a script's parameters. -/
def shapeOf (script : Value) : Except Fault (List (String × String)) :=
  match script with
  | .str script => (parameters .csharp script).map (List.map fun p => (p.name, p.qualifier))
  | _ => .error .wrongKind

/-- **A hint can reshape a signature.**  One with a comma declares a parameter, and one with an equals sign another
name; with half a bracket nothing is left that can be read, and with a closing one the list ends; a qualifier turns an
input into an output. -/
theorem inject_reshapes :
    shapeOf (.str arrayScript) = .ok [("x", ""), ("@in", ""), ("a", "ref")] ∧
      ∀ hint ∈ ["T n, T", "T n = 0", "List<T", "T n) \x7b \x7d void Draw(T", "ref T"],
        shapeOf (inject .csharp (.str arrayScript) [some hint] []).value ≠
          .ok [("x", ""), ("@in", ""), ("a", "ref")] := by
  decide +kernel

/-! ## Marks -/

variable {stack stack' cs : List Char}

/-- Only brackets and commas matter for which brackets are open. -/
theorem foldlM_marks (stack cs : List Char) :
    (cs.filter isMark).foldlM openAfter? stack = cs.foldlM openAfter? stack := by
  induction cs generalizing stack with
  | nil => rfl
  | cons c rest ih =>
      cases hc : isMark c with
      | true =>
          rw [List.filter_cons_of_pos hc, List.foldlM_cons, List.foldlM_cons]
          exact congrArg _ (funext ih)
      | false =>
          rw [List.filter_cons_of_neg (by simp [hc]), List.foldlM_cons, openAfter?_of_unmarked hc, ih]
          rfl

theorem marks_eq_nil (h : ∀ c ∈ cs, isMark c = false) : cs.filter isMark = [] :=
  List.filter_eq_nil_iff.mpr fun c hc => by simp [h c hc]

theorem marks_trimChars (cs : List Char) : (Text.trimChars cs).filter isMark = cs.filter isMark := by
  obtain ⟨a, b, hcs, ha, hb⟩ := Text.exists_blanks_around cs
  conv_rhs => rw [hcs]
  rw [List.filter_append, List.filter_append, marks_eq_nil fun c hc => isMark_of_isBlank (ha c hc),
    marks_eq_nil fun c hc => isMark_of_isBlank (hb c hc), List.nil_append, List.append_nil]

theorem marks_splitQualifier (cs : List Char) :
    (Parameter.splitQualifier cs).2.filter isMark = cs.filter isMark := by
  have hwhole : cs.takeWhile Text.isBlank ++ ((cs.dropWhile Text.isBlank).takeWhile (fun c => !Text.isBlank c) ++
      (cs.dropWhile Text.isBlank).dropWhile fun c => !Text.isBlank c) = cs := by
    rw [List.takeWhile_append_dropWhile, List.takeWhile_append_dropWhile]
  unfold Parameter.splitQualifier
  simp only [List.span_eq_takeWhile_dropWhile]
  split
  · next hword =>
    have hunmarked := unmarked_of_mem (List.contains_iff_mem.mp hword)
    rw [String.toList_ofList] at hunmarked
    conv_rhs => rw [← hwhole]
    rw [marks_trimChars, List.filter_append, List.filter_append, marks_eq_nil hunmarked,
      marks_eq_nil fun c hc => isMark_of_isBlank (List.mem_takeWhile_imp hc), List.nil_append, List.nil_append]
  · rfl

/-- **The brackets and commas of a declaration are those of its type, its name and its default.** -/
theorem marks_of_parse {fragment : List Char} (h : Parameter.parse fragment = .ok p) :
    fragment.filter isMark =
      p.typeText.toList.filter isMark ++ (p.name.toList.filter isMark ++ p.default.toList.filter isMark) := by
  obtain ⟨-, hcut⟩ := Text.cut_spec '=' fragment
  unfold Parameter.parse at h
  generalize Text.cut '=' fragment = pieces at h hcut
  obtain ⟨head, after⟩ := pieces
  dsimp only at h hcut
  split at h
  · cases h
  · next name hlast =>
    obtain ⟨front, hfront⟩ := Text.getLast?_words (Text.trimmed_trimChars head) hlast
    cases h
    have htake : (Text.trimChars head).take ((Text.trimChars head).length - name.length) = front := by
      rw [← hfront, List.length_append, Nat.add_sub_cancel, List.take_left]
    have hhead : head.filter isMark = front.filter isMark ++ name.filter isMark := by
      rw [← marks_trimChars, ← hfront, List.filter_append]
    have hafter : ((after.map ('=' :: ·)).getD []).filter isMark = (after.getD []).filter isMark := by
      cases after with
      | none => rfl
      | some after => exact List.filter_cons_of_neg (by decide)
    dsimp only
    rw [htake, String.toList_ofList, String.toList_ofList, String.toList_ofList, marks_splitQualifier, marks_trimChars,
      marks_trimChars, ← hafter, ← List.append_assoc, ← hhead, ← List.filter_append, ← hcut]

/-! ## Balanced types -/

/-- The brackets of a text match, wherever its commas stand. -/
def Balanced (cs : List Char) : Prop := Closed (cs.filter (· ≠ ','))

instance (cs : List Char) : Decidable (Balanced cs) := inferInstanceAs (Decidable (Closed _))

/-- Commas that are no end of a declaration may be left out. -/
theorem foldlM_filter_comma (h : cs.foldlM openAfter? stack = some stack') :
    (cs.filter (· ≠ ',')).foldlM openAfter? stack = some stack' := by
  induction cs generalizing stack with
  | nil => exact h
  | cons c rest ih =>
      rw [List.foldlM_cons] at h
      cases hnext : openAfter? stack c with
      | none =>
          rw [hnext] at h
          cases h
      | some next =>
          rw [hnext] at h
          by_cases hc : c = ','
          · subst hc
            have hsame : next = stack := by
              unfold openAfter? at hnext
              simp only [show closing? ',' = none from rfl, show opening? ',' = none from rfl, Option.isSome_none,
                Bool.false_eq_true, if_false, Option.ite_none_left_eq_some, Option.some.injEq] at hnext
              exact hnext.2.symm
            rw [List.filter_cons_of_neg (by simp), ← hsame]
            exact ih h
          · rw [List.filter_cons_of_pos (by simpa using hc), List.foldlM_cons, hnext]
            exact ih h

/-- **A parameter with a balanced type and a plain name is plain**: what its type leaves closed, its default does. -/
theorem Parameter.Written.isPlain (hp : p.Written) (hname : ∀ c ∈ p.name.toList, isMark c = false)
    (htype : Balanced p.typeText.toList) : p.IsPlain := by
  refine ⟨hname, ?_⟩
  have hsource : Closed p.source.toList := hp.declaration.closed
  rw [Closed, ← foldlM_marks, marks_of_parse hp.parsed, marks_eq_nil hname, List.nil_append, List.foldlM_append,
    foldlM_marks] at hsource
  cases hopen : p.typeText.toList.foldlM openAfter? [] with
  | none =>
      rw [hopen] at hsource
      cases hsource
  | some stack =>
      obtain rfl : stack = [] := Option.some.inj ((foldlM_filter_comma hopen).symm.trans htype)
      rw [hopen] at hsource
      exact (foldlM_marks [] _).symm.trans hsource

/-! ## Types by direction and place -/

/-- The types of the outputs, or of the other parameters, in order. -/
def typesOf (output : Bool) (ps : List Parameter) : List String :=
  (ps.filter fun p => p.isOutput == output).map (·.typeText)

/-- A hint that is given, or else the type that was there. -/
def givenType (hint : Option String) (type : String) : String :=
  match hint with
  | some hint => if hint.isEmpty then type else hint
  | none => type

theorem Parameter.withType_fields (p : Parameter) (hint : Option String) :
    (p.withType hint).name = p.name ∧ (p.withType hint).qualifier = p.qualifier ∧
      (p.withType hint).default = p.default := by
  unfold withType
  split <;> exact ⟨rfl, rfl, rfl⟩

theorem Parameter.isOutput_withType (p : Parameter) (hint : Option String) :
    (p.withType hint).isOutput = p.isOutput := by
  rw [isOutput, (p.withType_fields hint).2.1, isOutput]

theorem typeText_withType_eq (p : Parameter) (hint : Option String) :
    (p.withType hint).typeText = givenType hint p.typeText := by
  cases hint with
  | none => rfl
  | some hint =>
      by_cases hne : hint = ""
      · subst hne
        rfl
      · rw [typeText_withType hne]
        exact (if_neg (by simpa using hne)).symm

theorem typesOf_cons (output : Bool) (p : Parameter) (rest : List Parameter) :
    typesOf output (p :: rest) =
      if p.isOutput = output then p.typeText :: typesOf output rest else typesOf output rest := by
  unfold typesOf
  by_cases hp : p.isOutput = output
  · rw [List.filter_cons_of_pos (by simpa using hp), if_pos hp, List.map_cons]
  · rw [List.filter_cons_of_neg (by simpa using hp), if_neg hp]

theorem typed_cons (inputs outputs : List (Option String)) (p : Parameter) (rest : List Parameter) :
    typed inputs outputs (p :: rest) = p.withType (if p.isOutput then outputs else inputs).head?.join ::
      if p.isOutput then typed inputs outputs.tail rest else typed inputs.tail outputs rest := by
  unfold typed
  rw [assignHints]
  split <;> rfl

/-- **The hints of a direction are given to its parameters in order.** -/
theorem typesOf_typed (output : Bool) (inputs outputs : List (Option String)) (ps : List Parameter) :
    typesOf output (typed inputs outputs ps) = (typesOf output ps).mapIdx fun i type =>
      givenType (if output then outputs else inputs)[i]?.join type := by
  induction ps generalizing inputs outputs with
  | nil => rfl
  | cons p rest ih =>
      rw [typed_cons, typesOf_cons, typesOf_cons, p.isOutput_withType, typeText_withType_eq]
      cases p.isOutput with
      | true =>
          cases output with
          | true => simp [ih, List.mapIdx_cons, List.head?_eq_getElem?]
          | false => simp [ih]
      | false =>
          cases output with
          | true => simp [ih]
          | false => simp [ih, List.mapIdx_cons, List.head?_eq_getElem?]

/-! ## Types injected -/

/-- A type with matching brackets, none of them round: it has no blanks at its ends, no equals sign and no comma
outside brackets, and does not begin with a qualifier. -/
structure IsBareType (hint : String) : Prop where
  trimmed : Text.Trimmed hint.toList
  unassigned : '=' ∉ hint.toList
  unopened : '(' ∉ hint.toList
  unended : ')' ∉ hint.toList
  closed : Closed hint.toList
  unqualified : (Parameter.splitQualifier hint.toList).1 = ""

instance (hint : String) : Decidable (IsBareType hint) :=
  decidable_of_iff (Text.Trimmed hint.toList ∧ '=' ∉ hint.toList ∧ '(' ∉ hint.toList ∧ ')' ∉ hint.toList ∧
      Closed hint.toList ∧ (Parameter.splitQualifier hint.toList).1 = "")
    ⟨fun ⟨h₁, h₂, h₃, h₄, h₅, h₆⟩ => ⟨h₁, h₂, h₃, h₄, h₅, h₆⟩, fun h => ⟨h.1, h.2, h.3, h.4, h.5, h.6⟩⟩

theorem IsBareType.isType (h : IsBareType hint) : IsType hint where
  trimmed := h.trimmed
  unassigned := h.unassigned
  closed := h.closed
  unended := by
    have hend := hasEnd_append_of_notMem h.unended []
    rwa [List.append_nil] at hend
  unqualified := h.unqualified

/-- Hints that are given out are among the hints. -/
theorem mem_hints_of_assignHints {a : Parameter × Option String} (ha : a ∈ assignHints inputs outputs ps)
    (hhint : a.2 = some hint) : some hint ∈ inputs ++ outputs := by
  induction ps generalizing inputs outputs with
  | nil => cases ha
  | cons p rest ih =>
      rw [assignHints] at ha
      split at ha
      · rcases List.mem_cons.mp ha with rfl | ha
        · exact List.mem_append_right _ (List.mem_of_mem_head? (Option.join_eq_some_iff.mp hhint))
        · exact (List.mem_append.mp (ih ha)).elim (List.mem_append_left _) fun h =>
            List.mem_append_right _ (List.mem_of_mem_tail h)
      · rcases List.mem_cons.mp ha with rfl | ha
        · exact List.mem_append_left _ (List.mem_of_mem_head? (Option.join_eq_some_iff.mp hhint))
        · exact (List.mem_append.mp (ih ha)).elim (fun h => List.mem_append_left _ (List.mem_of_mem_tail h))
            (List.mem_append_right _)

theorem fits_of_bareTypes (hps : ∀ p ∈ ps, p.Written) (htypes : ∀ p ∈ ps, Balanced p.typeText.toList)
    (hnames : ∀ p ∈ ps, ∀ c ∈ p.name.toList, isMark c = false)
    (hhints : ∀ hint, some hint ∈ inputs ++ outputs → hint ≠ "" → IsBareType hint) : Fits inputs outputs ps := by
  intro a ha hchanges
  have hmem := mem_of_assignHints ha
  refine ⟨(hps a.1 hmem).isPlain (hnames a.1 hmem) (htypes a.1 hmem), fun hint hhint => ?_⟩
  rw [Option.mem_def.mp hhint] at hchanges
  exact (hhints hint (mem_hints_of_assignHints ha hhint) (changesType_some.mp hchanges).1).isType

theorem changesType_withType (p : Parameter) (hint : Option String) : changesType (p.withType hint) hint = false := by
  unfold Parameter.withType
  cases hchanges : changesType p hint with
  | false => exact hchanges
  | true =>
      cases hint with
      | none => cases hchanges
      | some hint => simp [changesType]

/-- Hints that were given change nothing when they are given again. -/
theorem changesType_typed (inputs outputs : List (Option String)) (ps : List Parameter) :
    ∀ a ∈ assignHints inputs outputs (typed inputs outputs ps), changesType a.1 a.2 = false := by
  induction ps generalizing inputs outputs with
  | nil => exact fun a ha => nomatch ha
  | cons p rest ih =>
      rw [typed_cons, assignHints, p.isOutput_withType]
      cases p.isOutput with
      | true => exact List.forall_mem_cons.mpr ⟨changesType_withType p _, ih inputs outputs.tail⟩
      | false => exact List.forall_mem_cons.mpr ⟨changesType_withType p _, ih inputs.tail outputs⟩

/-- **Types that were injected are there, and change nothing when they are injected again.** -/
theorem retyped_again {script' : String} {entry' : EntryPoint} (hentry : entryPoint? .csharp script' = some entry')
    (hps : parseParameters entry'.inside = .ok (typed inputs outputs ps)) :
    retyped script' inputs outputs = .ok script' := by
  have hunchanged := changesType_typed inputs outputs ps
  unfold retyped
  rw [hentry]
  dsimp only
  rw [hps]
  dsimp only [bind, Except.bind]
  rw [if_neg (by simpa using hunchanged)]
  rfl

/-- A parameter whose name is no other's is the one that is found by it. -/
theorem extract_of_nodup {name : String} (hentry : entryPoint? .csharp script = some entry)
    (hps : parseParameters entry.inside = .ok ps)
    (hdistinct : (ps.map fun p => Identifier.stripVerbatim p.name.toList).Nodup) (hp : p ∈ ps) (hname : p.GoesBy name) :
    extract .csharp (.str script) (.str name) =
      pure (if p.typeText.isEmpty then none else some p.typeText) := by
  obtain ⟨before, after, rfl⟩ := List.append_of_mem hp
  have hbefore : ∀ q ∈ before, ¬ q.GoesBy name := by
    intro q hq hq'
    rw [List.map_append, List.map_cons, List.nodup_append] at hdistinct
    exact hdistinct.2.2 _ (List.mem_map_of_mem hq) _ List.mem_cons_self (hq'.trans hname.symm)
  have hparameters : parameters .csharp script = .ok (before ++ p :: after) := by
    rw [parameters, hentry]
    exact hps
  simp only [extract, truthy_of_entryPoint? hentry, declaredTypeOf?,
    declaredType?_of_parameters hparameters hbefore hname, Bool.not_true, Bool.false_eq_true, if_false]

/-- **Injecting types re-types exactly the parameters that they are for.**  The parameters are those that were there,
in their order, with their names, qualifiers and defaults.  The types of the outputs are the output hints in order,
those of the others the input hints; where no hint is given, or an empty one, the type is kept.  Each type is extracted
under the name of its parameter, with or without the mark of a reserved word, and the same hints change nothing when
they are injected again.  Nothing is reported. -/
theorem inject_types (hentry : entryPoint? .csharp script = some entry) (hps : parseParameters entry.inside = .ok ps)
    (htypes : ∀ p ∈ ps, Balanced p.typeText.toList) (hnames : ∀ p ∈ ps, ∀ c ∈ p.name.toList, isMark c = false)
    (hdistinct : (ps.map fun p => Identifier.stripVerbatim p.name.toList).Nodup)
    (hhints : ∀ hint, some hint ∈ inputs ++ outputs → hint ≠ "" → IsBareType hint) :
    ∃ script' entry' ps', inject .csharp (.str script) inputs outputs = pure (.str script') ∧
      entryPoint? .csharp script' = some entry' ∧ parseParameters entry'.inside = .ok ps' ∧
      (ps'.map fun p => (p.name, p.qualifier, p.default)) = (ps.map fun p => (p.name, p.qualifier, p.default)) ∧
      (∀ output, typesOf output ps' = (typesOf output ps).mapIdx fun i type =>
        givenType (if output then outputs else inputs)[i]?.join type) ∧
      (∀ p ∈ ps', ∀ name, p.GoesBy name → extract .csharp (.str script') (.str name) =
        pure (if p.typeText.isEmpty then none else some p.typeText)) ∧
      inject .csharp (.str script') inputs outputs = pure (.str script') := by
  have hwritten : ∀ p ∈ ps, p.Written := fun p =>
    written_of_parseParameters hps (hasEnd_of_entryPoint? hentry)
  have hfits := fits_of_bareTypes hwritten htypes hnames hhints
  obtain ⟨script', entry', hscript', hentry', hps'⟩ := exists_retyped hentry hps (hfits.admitted hwritten)
  rw [hfits.reread_eq hwritten] at hps'
  refine ⟨script', entry', typed inputs outputs ps, inject_of_retyped hentry hscript', hentry', hps', ?_,
    fun output => typesOf_typed output inputs outputs ps, fun p hp name hname => ?_,
    inject_of_retyped hentry' (retyped_again hentry' hps')⟩
  · refine map_assigned fun p hint => ?_
    obtain ⟨hname, hqualifier, hdefault⟩ := p.withType_fields hint
    rw [hname, hqualifier, hdefault]
  · refine extract_of_nodup hentry' hps' ?_ hp hname
    rwa [typed, map_assigned fun p hint => by rw [p.withType_name hint]]

/-- The type of the first input is kept, the other two are given; extracted under a name without its mark. -/
theorem inject_types_arrayScript : ∃ script' entry' ps',
    inject .csharp (.str arrayScript) [none, some "Pair<int, int>"] [some "List<int>"] = pure (.str script') ∧
      entryPoint? .csharp script' = some entry' ∧ parseParameters entry'.inside = .ok ps' ∧
      typesOf false ps' = ["T[]", "Pair<int, int>"] ∧ typesOf true ps' = ["List<int>"] := by
  have hhints : ∀ hint, some hint ∈ [none, some "Pair<int, int>"] ++ [some "List<int>"] → hint ≠ "" →
      IsBareType hint := by
    intro hint hmem _
    have hall : ∀ hint ∈ ["Pair<int, int>", "List<int>"], IsBareType hint := by decide +kernel
    refine hall hint ?_
    simpa using hmem
  have hnames : ∀ p ∈ arrayParameters, ∀ c ∈ p.name.toList, isMark c = false := by
    have hall : (arrayParameters.all fun p => p.name.toList.all fun c => !isMark c) = true := by decide +kernel
    simpa only [List.all_eq_true, Bool.not_eq_true'] using hall
  obtain ⟨script', entry', ps', hscript', hentry', hps', -, htypes, -⟩ := inject_types entryPoint?_arrayScript
    parseParameters_arrayEntry (by decide +kernel) hnames (by decide +kernel) hhints
  exact ⟨script', entry', ps', hscript', hentry', hps', htypes false, htypes true⟩

end Patchbay.Signature
