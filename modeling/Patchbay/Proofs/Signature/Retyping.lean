import Patchbay.Signature.Hint
import Patchbay.Proofs.Signature.Declaration

/-!
# Types that are written are read back

A script's entry point is retyped by writing its parameter list anew.  The list is found again at the same
place, it is cut into the same declarations, and each declaration is read as the parameter that it was
written for.

* `Parameter.Written` — a parameter as its own declaration says; **`Parameter.Written.rendered`** — and it is rendered
  as a declaration of itself.
* **`exists_retyped`** — the entry point of a script with hints written into it
* **`parameters_retyped`** — the parameters of a script with types written into it
* `DeclaredAt` — the place of a variable among the parameters of its direction
* **`extract_inject`** — a hint is read back from a variable whose place is the hint's own.

The hints are given out by place and read by name.  Nothing but `DeclaredAt` brings the two together.
-/

namespace Patchbay.Signature

variable {p : Parameter} {hint : String}

/-! ## Parameters as they are written -/

/-- A parameter that its own source text declares. -/
structure Parameter.Written (p : Parameter) : Prop where
  declaration : IsDeclaration p.source.toList
  unended : hasEnd p.source.toList = false
  parsed : Parameter.parse p.source.toList = .ok p

/-- **The parameters of a list are as their source texts declare them.** -/
theorem written_of_parseParameters {text : List Char} {ps : List Parameter} (h : parseParameters text = .ok ps)
    (htext : hasEnd text = false) (hp : p ∈ ps) : p.Written := by
  obtain ⟨pieces, hpieces, hparsed⟩ := exists_of_bind_eq_ok h
  obtain ⟨piece, hpiece, hparse⟩ := exists_of_mem_mapM hparsed hp
  obtain ⟨hdeclaration, hpart⟩ := isDeclaration_of_splitParameters hpieces hpiece
  have hsource : p.source.toList = piece :=
    (Parameter.read_of_parse hparse).source.trans (Text.trimChars_eq_self hdeclaration.trimmed)
  constructor
  case declaration => rwa [hsource]
  case unended => exact hsource ▸ hasEnd_of_isInfix hpart htext
  case parsed => rwa [hsource]

theorem hasEnd_joined {pieces : List (List Char)} (h : ∀ piece ∈ pieces, hasEnd piece = false) :
    hasEnd (List.intercalate [',', ' '] pieces) = false := by
  induction pieces with
  | nil => rfl
  | cons piece rest ih =>
      obtain ⟨hpiece, hrest⟩ := List.forall_mem_cons.mp h
      cases rest with
      | nil => simpa using hpiece
      | cons next rest =>
          rw [List.intercalate_cons_cons, List.append_assoc, List.cons_append,
            hasEnd_append (by decide) (by decide), hpiece, Bool.false_or]
          exact ih hrest

/-! ## Parameters with hints -/

/-- A parameter as it is read where it was written with a hint. -/
def Parameter.reread (p : Parameter) (hint : Option String) : Parameter :=
  if changesType p hint then
    { p with typeText := Text.trim (hint.getD ""), source := Text.trim (p.render hint) }
  else p

/-- A parameter with a hint for its type, where that changes the type. -/
def Parameter.withType (p : Parameter) (hint : Option String) : Parameter :=
  if changesType p hint then { p with typeText := hint.getD "", source := p.render hint } else p

theorem changesType_some : changesType p (some hint) = true ↔ hint ≠ "" ∧ hint ≠ p.typeText := by
  simp [changesType, String.isEmpty_eq_false_iff]

theorem Parameter.withType_name (p : Parameter) (hint : Option String) : (p.withType hint).name = p.name := by
  unfold withType
  split <;> rfl

/-- A parameter whose type a hint changes is rendered with it. -/
theorem Parameter.Written.render_changed (hp : p.Written) (h : changesType p (some hint) = true) :
    (p.render (some hint)).toList = composed p hint := by
  obtain ⟨hne, hother⟩ := changesType_some.mp h
  exact toList_render hne hother (by simpa using (read_of_parse hp.parsed).named)

/-- A parameter whose type no hint changes is rendered as it was written. -/
theorem Parameter.Written.render_unchanged (hp : p.Written) {hint : Option String}
    (h : changesType p hint = false) : p.render hint = p.source := by
  have hkeep : (hint.getD "").isEmpty = true ∨ (hint.getD "" == p.typeText) = true := by
    cases hint with
    | none => exact .inl rfl
    | some hint => simpa [changesType, or_iff_not_imp_left] using h
  have hsource : p.source.isEmpty = false := by
    simpa [String.isEmpty_eq_false_iff] using hp.declaration.ne
  unfold Parameter.render
  rw [hsource]
  exact if_pos (by simpa using hkeep)

/-- **What is rendered stands as one declaration, and is read as the same parameter.** -/
theorem Parameter.Written.rendered (hp : p.Written) {hint : Option String}
    (h : changesType p hint = true → ∀ t ∈ hint, p.Admits t) :
    Closed (p.render hint).toList ∧ hasEnd (p.render hint).toList = false ∧
      Parameter.parse (Text.trimChars (p.render hint).toList) = .ok (p.reread hint) := by
  unfold reread
  cases hchanges : changesType p hint with
  | false =>
      rw [hp.render_unchanged hchanges, Text.trimChars_eq_self hp.declaration.trimmed]
      exact ⟨hp.declaration.closed, hp.unended, hp.parsed⟩
  | true =>
      cases hint with
      | none => cases hchanges
      | some hint =>
          have hadmits := h hchanges hint rfl
          rw [Text.trim, Text.trim, hp.render_changed hchanges]
          exact ⟨hadmits.closed, hadmits.unended, parse_trimChars (parse_composed (read_of_parse hp.parsed) hadmits)⟩

/-- With a hint without blanks at its ends a parameter is read with just this type. -/
theorem Parameter.Written.reread_eq (hp : p.Written) {hint : Option String}
    (h : changesType p hint = true → ∀ t ∈ hint, Text.Trimmed t.toList) : p.reread hint = p.withType hint := by
  unfold Parameter.reread Parameter.withType
  split
  · next hchanges =>
    cases hint with
    | none => cases hchanges
    | some hint =>
        have htrimmed := h hchanges hint rfl
        have hrender : Text.Trimmed (p.render (some hint)).toList := by
          rw [hp.render_changed hchanges]
          exact trimmed_composed (read_of_parse hp.parsed) htrimmed (changesType_some.mp hchanges).1
        rw [Option.getD_some, Text.trim, Text.trim, Text.trimChars_eq_self htrimmed,
          Text.trimChars_eq_self hrender, String.ofList_toList, String.ofList_toList]
  · rfl

/-! ## Scripts with hints -/

variable {script : String} {inputs outputs : List (Option String)} {ps : List Parameter}

/-- Every hint that replaces a type can be written to the parameter that it is for. -/
def Admitted (inputs outputs : List (Option String)) (ps : List Parameter) : Prop :=
  ∀ a ∈ assignHints inputs outputs ps, changesType a.1 a.2 = true → ∀ t ∈ a.2, a.1.Admits t

instance (inputs outputs : List (Option String)) (ps : List Parameter) : Decidable (Admitted inputs outputs ps) :=
  inferInstanceAs (Decidable (∀ a ∈ assignHints inputs outputs ps, _ → _))

/-- Every hint that replaces a type is a type, and what it is written to is a plain declaration. -/
def Fits (inputs outputs : List (Option String)) (ps : List Parameter) : Prop :=
  ∀ a ∈ assignHints inputs outputs ps, changesType a.1 a.2 = true → a.1.IsPlain ∧ ∀ t ∈ a.2, IsType t

instance (inputs outputs : List (Option String)) (ps : List Parameter) : Decidable (Fits inputs outputs ps) :=
  inferInstanceAs (Decidable (∀ a ∈ assignHints inputs outputs ps, _ → _))

theorem map_fst_assignHints (inputs outputs : List (Option String)) (ps : List Parameter) :
    (assignHints inputs outputs ps).map Prod.fst = ps := by
  induction ps generalizing inputs outputs with
  | nil => simp [assignHints]
  | cons p rest ih =>
      rw [assignHints]
      split
      · rw [List.map_cons, ih]
      · rw [List.map_cons, ih]

theorem mem_of_assignHints {a : Parameter × Option String} (ha : a ∈ assignHints inputs outputs ps) : a.1 ∈ ps :=
  map_fst_assignHints inputs outputs ps ▸ List.mem_map_of_mem ha

/-- The parameters of a script with hints, as they are read. -/
def reread (inputs outputs : List (Option String)) (ps : List Parameter) : List Parameter :=
  (assignHints inputs outputs ps).map fun a => a.1.reread a.2

/-- The parameters of a script with hints. -/
def typed (inputs outputs : List (Option String)) (ps : List Parameter) : List Parameter :=
  (assignHints inputs outputs ps).map fun a => a.1.withType a.2

theorem reread_of_unchanged (h : ∀ a ∈ assignHints inputs outputs ps, changesType a.1 a.2 = false) :
    reread inputs outputs ps = ps := by
  refine (List.map_congr_left fun a ha => ?_).trans (map_fst_assignHints inputs outputs ps)
  rw [Parameter.reread, h a ha]
  rfl

theorem Fits.admitted (h : Fits inputs outputs ps) (hps : ∀ p ∈ ps, p.Written) : Admitted inputs outputs ps := by
  intro a ha hchanges t ht
  obtain ⟨hplain, htypes⟩ := h a ha hchanges
  have hwritten := hps a.1 (mem_of_assignHints ha)
  have hread := Parameter.read_of_parse hwritten.parsed
  exact hplain.admits hread (htypes t ht) (hasEnd_of_isInfix hread.default hwritten.unended)

theorem Fits.reread_eq (h : Fits inputs outputs ps) (hps : ∀ p ∈ ps, p.Written) :
    reread inputs outputs ps = typed inputs outputs ps :=
  List.map_congr_left fun a ha => (hps a.1 (mem_of_assignHints ha)).reread_eq fun hchanges t ht =>
    ((h a ha hchanges).2 t ht).trimmed

/-- The list that is written has no end before its end, and is read as the parameters with their hints. -/
theorem parseParameters_rendered (hps : ∀ p ∈ ps, p.Written) (hadmitted : Admitted inputs outputs ps) :
    let list := (Text.joinWith ", " ((assignHints inputs outputs ps).map fun a => a.1.render a.2)).toList
    hasEnd list = false ∧ parseParameters list = .ok (reread inputs outputs ps) := by
  have hrendered : ∀ a ∈ assignHints inputs outputs ps, Closed (a.1.render a.2).toList ∧
      hasEnd (a.1.render a.2).toList = false ∧
        Parameter.parse (Text.trimChars (a.1.render a.2).toList) = .ok (a.1.reread a.2) :=
    fun a ha => (hps a.1 (mem_of_assignHints ha)).rendered (hadmitted a ha)
  have hpieces : ∀ piece ∈ (assignHints inputs outputs ps).map fun a => (a.1.render a.2).toList,
      Closed piece ∧ Text.trimChars piece ≠ [] := by
    intro piece hpiece
    obtain ⟨a, ha, rfl⟩ := List.mem_map.mp hpiece
    obtain ⟨hclosed, -, hparse⟩ := hrendered a ha
    refine ⟨hclosed, fun hnil => ?_⟩
    rw [hnil] at hparse
    cases hparse
  have hread : (((assignHints inputs outputs ps).map fun a => (a.1.render a.2).toList).map Text.trimChars).mapM
      Parameter.parse = .ok (reread inputs outputs ps) := by
    rw [List.map_map, List.mapM_map, reread]
    refine mapM_eq_ok (g := fun a : Parameter × Option String => a.1.reread a.2) fun a ha => ?_
    rw [Function.comp_apply, Function.comp_apply]
    exact (hrendered a ha).2.2
  have hlist : (Text.joinWith ", " ((assignHints inputs outputs ps).map fun a => a.1.render a.2)).toList =
      List.intercalate [',', ' '] ((assignHints inputs outputs ps).map fun a => (a.1.render a.2).toList) := by
    rw [Text.joinWith, String.toList_intercalate, List.map_map]
    rfl
  dsimp only
  rw [hlist]
  constructor
  · refine hasEnd_joined fun piece hpiece => ?_
    obtain ⟨a, ha, rfl⟩ := List.mem_map.mp hpiece
    exact (hrendered a ha).2.1
  · rw [parseParameters, splitParameters_joined hpieces]
    exact hread

/-- **A script with hints written into it has the same entry point**, with the parameters and these hints. -/
theorem exists_retyped {entry : EntryPoint} (hentry : entryPoint? .csharp script = some entry)
    (hps : parseParameters entry.inside = .ok ps) (hadmitted : Admitted inputs outputs ps) :
    ∃ script' entry', retyped script inputs outputs = .ok script' ∧ entryPoint? .csharp script' = some entry' ∧
      parseParameters entry'.inside = .ok (reread inputs outputs ps) := by
  have hwritten : ∀ p ∈ ps, p.Written := fun p =>
    written_of_parseParameters hps (hasEnd_of_entryPoint? hentry)
  obtain ⟨hunended, hparsed⟩ := parseParameters_rendered hwritten hadmitted
  unfold retyped
  rw [hentry]
  dsimp only
  rw [hps]
  dsimp only [bind, Except.bind]
  split
  · obtain ⟨whole, hagain⟩ := entryPoint?_replaced hentry hunended
    exact ⟨_, _, rfl, hagain, hparsed⟩
  · next hsame =>
    refine ⟨script, entry, rfl, hentry, ?_⟩
    rw [hps, reread_of_unchanged (by simpa using hsame)]

/-- **A script with hints written into it has the parameters with these types.** -/
theorem parameters_retyped (hps : parameters .csharp script = .ok ps) (hfits : Fits inputs outputs ps) :
    ∃ script', retyped script inputs outputs = .ok script' ∧
      parameters .csharp script' = .ok (typed inputs outputs ps) := by
  cases hentry : entryPoint? .csharp script with
  | none =>
      unfold retyped
      rw [parameters, hentry] at hps
      cases hps
      exact ⟨script, by rw [hentry], by simp [parameters, hentry, typed, assignHints]⟩
  | some entry =>
      rw [parameters, hentry] at hps
      have hwritten : ∀ p ∈ ps, p.Written := fun p =>
        written_of_parseParameters hps (hasEnd_of_entryPoint? hentry)
      obtain ⟨script', entry', hscript', hentry', hps'⟩ := exists_retyped hentry hps (hfits.admitted hwritten)
      refine ⟨script', hscript', ?_⟩
      rw [parameters, hentry', ← hfits.reread_eq hwritten]
      exact hps'

/-! ## Hints at their places -/

/-- A parameter goes by a name, with or without the mark of a reserved word. -/
def Parameter.GoesBy (p : Parameter) (name : String) : Prop :=
  Identifier.stripVerbatim p.name.toList = Identifier.stripVerbatim name.toList

instance (p : Parameter) (name : String) : Decidable (p.GoesBy name) := inferInstanceAs (Decidable (_ = _))

/-- The first parameter with a name is an output or an input as told, and stands at the place among these. -/
def DeclaredAt (ps : List Parameter) (output : Bool) (place : Nat) (name : String) : Prop :=
  ∃ before p after, ps = before ++ p :: after ∧ (∀ q ∈ before, ¬ q.GoesBy name) ∧ p.GoesBy name ∧
    p.isOutput = output ∧ before.countP (fun q => q.isOutput == output) = place

/-- Parameters use up the hints of their direction one by one. -/
theorem assignHints_append (inputs outputs : List (Option String)) (before rest : List Parameter) :
    assignHints inputs outputs (before ++ rest) = assignHints inputs outputs before ++
      assignHints (inputs.drop (before.countP fun q => q.isOutput == false))
        (outputs.drop (before.countP fun q => q.isOutput == true)) rest := by
  induction before generalizing inputs outputs with
  | nil => simp [assignHints]
  | cons p before ih =>
      cases hp : p.isOutput with
      | true => simp [assignHints, hp, ih]
      | false => simp [assignHints, hp, ih]

/-- **The parameter at a place gets the hint at the place.** -/
theorem typed_append (inputs outputs : List (Option String)) (before : List Parameter) (p : Parameter)
    (after : List Parameter) : ∃ after', typed inputs outputs (before ++ p :: after) =
      typed inputs outputs before ++ p.withType
        ((if p.isOutput then outputs else inputs)[before.countP fun q => q.isOutput == p.isOutput]?).join :: after' := by
  unfold typed
  rw [assignHints_append, List.map_append, assignHints]
  cases hp : p.isOutput with
  | true =>
      simp only [if_true, List.map_cons, List.head?_drop]
      exact ⟨_, rfl⟩
  | false =>
      simp only [Bool.false_eq_true, if_false, List.map_cons, List.head?_drop]
      exact ⟨_, rfl⟩

theorem typeText_withType {hint : String} (hne : hint ≠ "") (p : Parameter) :
    (p.withType (some hint)).typeText = hint := by
  unfold Parameter.withType
  split
  · rfl
  · next hchanges =>
    rw [changesType_some, not_and, not_not] at hchanges
    exact (hchanges hne).symm

/-- The first parameter that goes by a name is the one whose type is declared for it. -/
theorem declaredType?_of_parameters {name : String} {before after : List Parameter}
    (hps : parameters .csharp script = .ok (before ++ p :: after)) (hbefore : ∀ q ∈ before, ¬ q.GoesBy name)
    (hp : p.GoesBy name) :
    declaredType? script name = .ok (if p.typeText.isEmpty then none else some p.typeText) := by
  have hfind : (before ++ p :: after).find? (fun q =>
      Identifier.stripVerbatim q.name.toList == Identifier.stripVerbatim name.toList) = some p := by
    rw [List.find?_append, List.find?_eq_none.mpr fun q hq => by simpa [Parameter.GoesBy] using hbefore q hq,
      Option.none_or, List.find?_cons_of_pos (by simpa [Parameter.GoesBy] using hp)]
  unfold declaredType?
  rw [hps]
  dsimp only [bind, Except.bind]
  rw [hfind]
  rfl

/-- The other parameters that were passed by are passed by again. -/
theorem not_goesBy_typed {name : String} (h : ∀ q ∈ ps, ¬ q.GoesBy name) :
    ∀ q ∈ typed inputs outputs ps, ¬ q.GoesBy name := by
  intro q hq
  obtain ⟨a, ha, rfl⟩ := List.mem_map.mp hq
  unfold Parameter.GoesBy
  rw [a.1.withType_name]
  exact h a.1 (mem_of_assignHints ha)

theorem declaredType?_retyped {output : Bool} {place : Nat} {name : String}
    (hps : parameters .csharp script = .ok ps) (hfits : Fits inputs outputs ps)
    (hdeclared : DeclaredAt ps output place name)
    (hhint : (if output then outputs else inputs)[place]? = some (some hint)) (hne : hint ≠ "") :
    ∃ script', retyped script inputs outputs = .ok script' ∧ declaredType? script' name = .ok (some hint) := by
  obtain ⟨before, p, after, rfl, hbefore, hp, rfl, rfl⟩ := hdeclared
  obtain ⟨script', hscript', hps'⟩ := parameters_retyped hps hfits
  obtain ⟨after', hafter'⟩ := typed_append inputs outputs before p after
  rw [hafter', hhint] at hps'
  have htype : (p.withType (some (some hint)).join).typeText = hint := typeText_withType hne p
  have hname : (p.withType (some (some hint)).join).GoesBy name := by
    unfold Parameter.GoesBy
    rw [p.withType_name]
    exact hp
  have hdeclared := declaredType?_of_parameters hps' (not_goesBy_typed hbefore) hname
  refine ⟨script', hscript', ?_⟩
  rw [hdeclared, htype, String.isEmpty_eq_false_iff.mpr hne]
  rfl

/-- An empty script declares nothing. -/
theorem truthy_of_parameters {name : String} (hps : parameters .csharp script = .ok ps)
    {output : Bool} {place : Nat} (hdeclared : DeclaredAt ps output place name) : (Value.str script).truthy = true := by
  rw [Value.truthy, Bool.not_eq_true', String.isEmpty_eq_false_iff]
  rintro rfl
  cases hps
  obtain ⟨before, p, after, hnil, -⟩ := hdeclared
  simp at hnil

/-- **A hint is read back from the variable at its place.** -/
theorem extract_inject {output : Bool} {place : Nat} {name : String}
    (hps : parameters .csharp script = .ok ps) (hfits : Fits inputs outputs ps)
    (hdeclared : DeclaredAt ps output place name)
    (hhint : (if output then outputs else inputs)[place]? = some (some hint)) (hne : hint ≠ "") :
    (extract .csharp (inject .csharp (.str script) inputs outputs).value (.str name)).value = some hint := by
  obtain ⟨script', hscript', htype⟩ := declaredType?_retyped hps hfits hdeclared hhint hne
  have hinject : (inject .csharp (.str script) inputs outputs).value = .str script' := by
    simp only [inject, truthy_of_parameters hps hdeclared, hscript', Bool.not_true, Bool.false_eq_true, if_false]
    rfl
  have hgiven : (Value.str script').truthy = true := by
    rw [Value.truthy, Bool.not_eq_true', String.isEmpty_eq_false_iff]
    rintro rfl
    cases htype
  rw [hinject]
  simp only [extract, hgiven, declaredTypeOf?, htype, Bool.not_true, Bool.false_eq_true, if_false]
  rfl

end Patchbay.Signature
