import Patchbay.Proofs.Signature.Brackets
import Patchbay.Proofs.Signature.Entry

/-!
# Declarations with other types

A parameter gets another type by writing its declaration anew.  Here is what that takes to be read back as
the same parameter with this type.

* `composed` — the declaration as it is written; `toList_render`
* `Parameter.Admits` — the hints with which a parameter can be written
* **`parse_composed`** — a declaration with one is read as the parameter that it was written for.
* `IsType`, `Parameter.IsPlain`, **`Parameter.IsPlain.admits`** — plain declarations can be written with all types,
  and stand as one declaration in a list, wherever the list stands.
-/

namespace Patchbay.Signature

/-! ## Declarations put together -/

/-- A type behind its qualifier, if there is one. -/
def qualified (qualifier : String) (type : List Char) : List Char :=
  if qualifier.isEmpty then type else qualifier.toList ++ ' ' :: type

/-- A default behind its equals sign, if there is one. -/
def assignment (default : String) : List Char :=
  if default.isEmpty then [] else ' ' :: '=' :: ' ' :: default.toList

/-- A text that can stand as the type of a parameter: it has no blanks at its ends, no equals sign, no
bracket or comma that ends it or its list, and does not begin with a qualifier. -/
structure IsType (hint : String) : Prop where
  trimmed : Text.Trimmed hint.toList
  unassigned : '=' ∉ hint.toList
  closed : Closed hint.toList
  unended : hasEnd hint.toList = false
  unqualified : (Parameter.splitQualifier hint.toList).1 = ""

instance (hint : String) : Decidable (IsType hint) :=
  decidable_of_iff (Text.Trimmed hint.toList ∧ '=' ∉ hint.toList ∧ Closed hint.toList ∧
      hasEnd hint.toList = false ∧ (Parameter.splitQualifier hint.toList).1 = "")
    ⟨fun ⟨h₁, h₂, h₃, h₄, h₅⟩ => ⟨h₁, h₂, h₃, h₄, h₅⟩, fun h => ⟨h.1, h.2, h.3, h.4, h.5⟩⟩

/-- The qualifier of a parameter is one of the words, or there is none. -/
def IsQualifier (qualifier : String) : Prop := qualifier = "" ∨ qualifier ∈ qualifiers

variable {p : Parameter} {qualifier hint : String}

theorem qualifiers_plain : ∀ q ∈ qualifiers, q.toList ≠ [] ∧
    ∀ c ∈ q.toList, Text.isBlank c = false ∧ isMark c = false ∧ c ≠ '=' := by
  have hall : qualifiers.all (fun q => !q.toList.isEmpty &&
      q.toList.all fun c => !Text.isBlank c && (!isMark c && c != '=')) = true := by
    decide
  simpa using hall

theorem unmarked_of_mem (h : qualifier ∈ qualifiers) : ∀ c ∈ qualifier.toList, isMark c = false :=
  fun c hc => ((qualifiers_plain qualifier h).2 c hc).2.1

theorem notMem_of_unmarked {c : Char} {cs : List Char} (h : ∀ c ∈ cs, isMark c = false) (hc : isMark c = true) :
    c ∉ cs := by
  intro hmem
  rw [h c hmem] at hc
  cases hc

theorem qualified_of_mem (h : qualifier ∈ qualifiers) (type : List Char) :
    qualified qualifier type = qualifier.toList ++ ' ' :: type := by
  have hne : qualifier.isEmpty = false := by
    simpa [String.isEmpty_eq_false_iff] using (qualifiers_plain qualifier h).1
  rw [qualified, hne]
  rfl

theorem splitQualifier_of_unqualified {cs : List Char} (h : (Parameter.splitQualifier cs).1 = "") :
    Parameter.splitQualifier cs = ("", cs) := by
  unfold Parameter.splitQualifier at h ⊢
  dsimp only at h ⊢
  split
  · next hword =>
    rw [if_pos hword] at h
    dsimp only at h
    rw [h] at hword
    cases hword
  · rfl

/-- A qualifier with nothing, or a blank, after it is split off. -/
theorem splitQualifier_append (h : qualifier ∈ qualifiers) {rest : List Char}
    (hrest : ∀ c ∈ rest.head?, Text.isBlank c = true) :
    Parameter.splitQualifier (qualifier.toList ++ rest) = (qualifier, Text.trimChars rest) := by
  obtain ⟨hne, hplain⟩ := qualifiers_plain qualifier h
  obtain ⟨c, cs, hcs⟩ := List.exists_cons_of_ne_nil hne
  have hdrop : (qualifier.toList ++ rest).dropWhile Text.isBlank = qualifier.toList ++ rest := by
    rw [hcs, List.cons_append, List.dropWhile_cons_of_neg (by simp [(hplain c (hcs ▸ List.mem_cons_self)).1])]
  have htake : rest.takeWhile (fun c => !Text.isBlank c) = [] ∧ rest.dropWhile (fun c => !Text.isBlank c) = rest := by
    cases rest with
    | nil => exact ⟨rfl, rfl⟩
    | cons d rest => simp [hrest d rfl]
  have hspan : (qualifier.toList ++ rest).span (fun c => !Text.isBlank c) = (qualifier.toList, rest) := by
    rw [List.span_eq_takeWhile_dropWhile, List.takeWhile_append_of_pos fun c hc => by simp [(hplain c hc).1],
      List.dropWhile_append_of_pos fun c hc => by simp [(hplain c hc).1], htake.1, htake.2, List.append_nil]
  unfold Parameter.splitQualifier
  simp only [hdrop, hspan, String.ofList_toList, List.contains_iff_mem.mpr h, if_true]

/-- **A type is read back from behind its qualifier**, without the blanks around it. -/
theorem splitQualifier_qualified (hq : IsQualifier qualifier)
    (hfirst : qualifier = "" → (Parameter.splitQualifier (Text.trimChars hint.toList)).1 = "") :
    Parameter.splitQualifier (Text.trimChars (qualified qualifier hint.toList)) =
      (qualifier, Text.trimChars hint.toList) := by
  rcases hq with rfl | hq
  · exact splitQualifier_of_unqualified (hfirst rfl)
  · obtain ⟨hne, hplain⟩ := qualifiers_plain qualifier hq
    have htrimmed : Text.Trimmed qualifier.toList := Text.trimmed_of_notBlank fun c hc => (hplain c hc).1
    obtain ⟨a, b, hhint, ha, hb⟩ := Text.exists_blanks_around hint.toList
    have hfront : ∀ c ∈ ' ' :: a, Text.isBlank c = true := List.forall_mem_cons.mpr ⟨rfl, ha⟩
    rw [qualified_of_mem hq]
    by_cases hblank : Text.trimChars hint.toList = []
    · -- no more than the qualifier is left
      have hall : ∀ c ∈ ' ' :: hint.toList, Text.isBlank c = true := by
        rw [hhint, hblank, List.append_nil]
        exact fun c hc => (List.mem_append.mp hc).elim (hfront c) (hb c)
      have halone : Text.trimChars (qualifier.toList ++ ' ' :: hint.toList) = qualifier.toList :=
        (Text.trimChars_enclosed (a := []) (fun c hc => absurd hc List.not_mem_nil) hall _).trans
          (Text.trimChars_eq_self htrimmed)
      have hsplit : Parameter.splitQualifier (qualifier.toList ++ []) = (qualifier, Text.trimChars []) :=
        splitQualifier_append hq fun c hc => nomatch hc
      rw [List.append_nil] at hsplit
      rw [halone, hblank]
      exact hsplit
    · have hwhole : Text.trimChars (qualifier.toList ++ ' ' :: hint.toList) =
          qualifier.toList ++ ((' ' :: a) ++ Text.trimChars hint.toList) := by
        have henclosed := Text.trimChars_enclosed (a := []) (fun c hc => absurd hc List.not_mem_nil) hb
          (qualifier.toList ++ (' ' :: a) ++ Text.trimChars hint.toList)
        rw [Text.trimChars_eq_self (htrimmed.append (Text.trimmed_trimChars _) hne hblank _)] at henclosed
        conv_lhs => rw [hhint]
        simpa using henclosed
      have hinner := Text.trimChars_enclosed (b := []) hfront (fun c hc => absurd hc List.not_mem_nil)
        (Text.trimChars hint.toList)
      rw [List.append_nil, Text.trimChars_eq_self (Text.trimmed_trimChars _)] at hinner
      rw [hwhole, splitQualifier_append hq (by simp), hinner]

theorem trimmed_qualified (hq : IsQualifier qualifier) (htrimmed : Text.Trimmed hint.toList) (hne : hint ≠ "") :
    Text.Trimmed (qualified qualifier hint.toList) ∧ qualified qualifier hint.toList ≠ [] := by
  rcases hq with rfl | hq
  · exact ⟨htrimmed, by simpa [qualified] using hne⟩
  · obtain ⟨hqne, hplain⟩ := qualifiers_plain qualifier hq
    rw [qualified_of_mem hq]
    refine ⟨?_, by simp⟩
    have happend := (Text.trimmed_of_notBlank fun c hc => (hplain c hc).1).append htrimmed hqne
      (by simpa using hne) [' ']
    simpa using happend

theorem unassigned_qualified (hq : IsQualifier qualifier) (hhint : '=' ∉ hint.toList) :
    '=' ∉ qualified qualifier hint.toList := by
  rcases hq with rfl | hq
  · exact hhint
  · rw [qualified_of_mem hq]
    have hplain : '=' ∉ qualifier.toList := fun hc => ((qualifiers_plain qualifier hq).2 '=' hc).2.2 rfl
    simpa using ⟨hplain, hhint⟩

theorem closed_qualified (hq : IsQualifier qualifier) (htype : IsType hint) :
    Closed (qualified qualifier hint.toList) := by
  rcases hq with rfl | hq
  · exact htype.closed
  · rw [qualified_of_mem hq]
    exact (closed_of_unmarked (unmarked_of_mem hq)).append
      ((show Closed [' '] by decide).append htype.closed)

theorem unended_qualified (hq : IsQualifier qualifier) (htype : IsType hint) :
    hasEnd (qualified qualifier hint.toList) = false := by
  rcases hq with rfl | hq
  · exact htype.unended
  · have hplain : ')' ∉ qualifier.toList ++ [' '] := by
      have hnot : ')' ∉ qualifier.toList := notMem_of_unmarked (unmarked_of_mem hq) (by decide)
      simpa using hnot
    rw [qualified_of_mem hq, ← List.singleton_append, ← List.append_assoc, hasEnd_append_of_notMem hplain]
    exact htype.unended

/-! ## Declarations read -/

namespace Parameter

/-- What a declaration has as its name, its qualifier and its default. -/
structure Read (fragment : List Char) (p : Parameter) : Prop where
  named : p.name.toList ≠ []
  visible : ∀ c ∈ p.name.toList, Text.isBlank c = false
  unassigned : '=' ∉ p.name.toList
  qualifier : IsQualifier p.qualifier
  trimmed : Text.Trimmed p.default.toList
  default : p.default.toList <:+: fragment
  source : p.source.toList = Text.trimChars fragment

theorem isQualifier_splitQualifier (typeText : List Char) : IsQualifier (splitQualifier typeText).1 := by
  unfold splitQualifier
  dsimp only
  split
  · next hword => exact .inr (by simpa using hword)
  · exact .inl rfl

theorem read_of_parse {fragment : List Char} (h : parse fragment = .ok p) : p.Read fragment := by
  obtain ⟨hbefore, hcut⟩ := Text.cut_spec '=' fragment
  unfold parse at h
  generalize Text.cut '=' fragment = pieces at h hbefore hcut
  obtain ⟨head, after⟩ := pieces
  dsimp only at h hbefore hcut
  split at h
  · cases h
  · next name hlast =>
    obtain ⟨hne, hname⟩ := Text.mem_words (List.mem_of_getLast? hlast)
    cases h
    constructor
    case named => simpa using hne
    case visible => simpa using fun c hc => (hname c hc).1
    case unassigned =>
      rw [String.toList_ofList]
      exact fun hmem => hbefore ((Text.trimChars_isInfix head).subset (hname '=' hmem).2)
    case qualifier => exact isQualifier_splitQualifier _
    case trimmed =>
      rw [String.toList_ofList]
      exact Text.trimmed_trimChars _
    case default =>
      rw [String.toList_ofList]
      refine (Text.trimChars_isInfix _).trans ?_
      cases after with
      | none => exact List.nil_infix
      | some after => exact hcut ▸ (List.suffix_append_of_suffix (List.suffix_cons '=' after)).isInfix
    case source => exact String.toList_ofList

/-- A parameter whose name is a plain word and whose default is closed. -/
structure IsPlain (p : Parameter) : Prop where
  name : ∀ c ∈ p.name.toList, isMark c = false
  default : Closed p.default.toList

instance (p : Parameter) : Decidable p.IsPlain :=
  decidable_of_iff ((p.name.toList.all fun c => !isMark c) = true ∧ Closed p.default.toList)
    ⟨fun ⟨h₁, h₂⟩ => ⟨by simpa using h₁, h₂⟩, fun h => ⟨by simpa using h.1, h.2⟩⟩

end Parameter

/-! ## Declarations written -/

/-- A parameter with another type, before its default. -/
def declared (qualifier hint name : String) : List Char := qualified qualifier hint.toList ++ ' ' :: name.toList

/-- A parameter with another type, as it is written. -/
def composed (p : Parameter) (hint : String) : List Char :=
  declared p.qualifier hint p.name ++ assignment p.default

theorem toList_render (hne : hint ≠ "") (hother : hint ≠ p.typeText) (hname : p.name ≠ "") :
    (p.render (some hint)).toList = composed p hint := by
  have hgiven : hint.isEmpty = false := String.isEmpty_eq_false_iff.mpr hne
  have hparts : Text.joinWith " " ([p.qualifier, hint, p.name].filter fun part => !part.isEmpty) =
      String.ofList (declared p.qualifier hint p.name) := by
    have hname' : p.name.isEmpty = false := String.isEmpty_eq_false_iff.mpr hname
    rw [← String.toList_inj]
    cases hq : p.qualifier.isEmpty with
    | true => simp [hq, hgiven, hname', declared, qualified, Text.joinWith]
    | false => simp [hq, hgiven, hname', declared, qualified, Text.joinWith]
  unfold Parameter.render
  simp only [Option.getD_some, hgiven, beq_false_of_ne hother, Bool.or_self, Bool.and_false, Bool.false_eq_true,
    if_false, hparts, composed, assignment]
  split
  · simp
  · simp

variable {fragment : List Char}

theorem trimmed_declared (hread : p.Read fragment) (htrimmed : Text.Trimmed hint.toList) (hne : hint ≠ "") :
    Text.Trimmed (declared p.qualifier hint p.name) := by
  obtain ⟨hqualified, hqne⟩ := trimmed_qualified hread.qualifier htrimmed hne
  have happend := hqualified.append (Text.trimmed_of_notBlank hread.visible) hqne hread.named [' ']
  simpa [declared] using happend

theorem trimmed_composed (hread : p.Read fragment) (htrimmed : Text.Trimmed hint.toList) (hne : hint ≠ "") :
    Text.Trimmed (composed p hint) := by
  have hdeclared := trimmed_declared hread htrimmed hne
  have hdne : declared p.qualifier hint p.name ≠ [] := by simp [declared]
  unfold composed assignment
  split
  · simpa using hdeclared
  · next hdefault =>
    have happend := hdeclared.append hread.trimmed hdne (by simpa using hdefault) [' ', '=', ' ']
    simpa using happend

/-- A written declaration is cut before its default. -/
theorem cut_composed (hread : p.Read fragment) (hhint : '=' ∉ hint.toList) : ∃ blanks after,
    Text.cut '=' (composed p hint) = (declared p.qualifier hint p.name ++ blanks, after) ∧
      (∀ c ∈ blanks, Text.isBlank c = true) ∧ Text.trimChars (after.getD []) = p.default.toList := by
  have hunassigned : '=' ∉ declared p.qualifier hint p.name := by
    simpa [declared] using ⟨unassigned_qualified hread.qualifier hhint, hread.unassigned⟩
  unfold composed assignment
  split
  · next hdefault =>
    rw [String.isEmpty_iff] at hdefault
    refine ⟨[], none, ?_, fun c hc => absurd hc List.not_mem_nil, by rw [hdefault]; rfl⟩
    simpa using Text.cut_of_notMem hunassigned
  · refine ⟨[' '], some (' ' :: p.default.toList), ?_, by simp,
      (Text.trimBy_cons (by decide) _).trans (Text.trimChars_eq_self hread.trimmed)⟩
    have hbefore : '=' ∉ declared p.qualifier hint p.name ++ [' '] := by simpa using hunassigned
    simpa using Text.cut_append hbefore (' ' :: p.default.toList)

/-- The last word before the default is the name; what stands before it is the type behind its qualifier. -/
theorem trimChars_declared (hread : p.Read fragment) (hint : String) : ∃ front,
    Text.trimChars (declared p.qualifier hint p.name) = front ++ p.name.toList ∧
      (Text.words (front ++ p.name.toList)).getLast? = some p.name.toList ∧
      Text.trimChars front = Text.trimChars (qualified p.qualifier hint.toList) := by
  have hword : Text.words p.name.toList = [p.name.toList] := Text.words_of_notBlank hread.visible hread.named
  have hfront := Text.trimChars_enclosed (a := []) (b := [' ']) (fun c hc => absurd hc List.not_mem_nil) (by simp)
    (qualified p.qualifier hint.toList)
  have hdeclared : declared p.qualifier hint p.name =
      (qualified p.qualifier hint.toList ++ [' ']) ++ p.name.toList := by simp [declared]
  refine ⟨(qualified p.qualifier hint.toList ++ [' ']).dropWhile Text.isBlank, ?_, ?_, ?_⟩
  · rw [hdeclared, Text.trimChars_append hread.visible hread.named]
  · rw [List.dropWhile_append]
    split
    · rw [show [' '].dropWhile Text.isBlank = [] from rfl, List.nil_append, hword]
      rfl
    · rw [List.append_assoc, List.singleton_append, Text.words_append _ (by decide), hword, List.getLast?_concat]
  · rw [Text.trimChars_dropWhile]
    exact hfront

/-- A hint with which a parameter can be written: the declaration with it is one declaration, the hint gives it no
default, and it gives it no qualifier if there is none. -/
structure Parameter.Admits (p : Parameter) (hint : String) : Prop where
  unassigned : '=' ∉ hint.toList
  unqualified : p.qualifier = "" → (splitQualifier (Text.trimChars hint.toList)).1 = ""
  closed : Closed (composed p hint)
  unended : hasEnd (composed p hint) = false

instance (p : Parameter) (hint : String) : Decidable (p.Admits hint) :=
  decidable_of_iff ('=' ∉ hint.toList ∧
      (p.qualifier = "" → (Parameter.splitQualifier (Text.trimChars hint.toList)).1 = "") ∧
      Closed (composed p hint) ∧ hasEnd (composed p hint) = false)
    ⟨fun ⟨h₁, h₂, h₃, h₄⟩ => ⟨h₁, h₂, h₃, h₄⟩, fun h => ⟨h.1, h.2, h.3, h.4⟩⟩

/-- **A declaration that was written is read as the parameter it was written for**, with the hint for its type. -/
theorem parse_composed (hread : p.Read fragment) (hadmits : p.Admits hint) :
    Parameter.parse (composed p hint) = .ok { p with
      typeText := Text.trim hint
      source := String.ofList (Text.trimChars (composed p hint)) } := by
  obtain ⟨blanks, after, hcut, hblanks, hdefault⟩ := cut_composed hread hadmits.unassigned
  obtain ⟨front, hdeclared, hname, hfront⟩ := trimChars_declared hread hint
  have hhead : Text.trimChars (declared p.qualifier hint p.name ++ blanks) = front ++ p.name.toList := by
    have htrim := Text.trimChars_enclosed (a := []) (fun c hc => absurd hc List.not_mem_nil) hblanks
      (declared p.qualifier hint p.name)
    exact htrim.trans hdeclared
  have htake : (front ++ p.name.toList).take ((front ++ p.name.toList).length - p.name.toList.length) = front := by
    rw [List.length_append, Nat.add_sub_cancel, List.take_left]
  unfold Parameter.parse
  simp only [hcut, hhead, hname, htake, hfront, splitQualifier_qualified hread.qualifier hadmits.unqualified, hdefault,
    String.ofList_toList]
  rfl

/-- Blanks around a declaration do not matter. -/
theorem parse_trimChars (h : Parameter.parse fragment = .ok p) :
    Parameter.parse (Text.trimChars fragment) = .ok p := by
  obtain ⟨a, b, hfragment, ha, hb⟩ := Text.exists_blanks_around fragment
  have hequals : Text.isBlank '=' = false := by decide
  obtain ⟨hhead, hafter⟩ := Text.trimChars_cut_enclosed ha hb hequals (Text.trimChars fragment)
  rw [← hfragment] at hhead hafter
  have hagain : Text.trimChars (Text.trimChars fragment) = Text.trimChars fragment :=
    Text.trimChars_eq_self (Text.trimmed_trimChars fragment)
  unfold Parameter.parse at h ⊢
  generalize Text.cut '=' fragment = pieces at h hhead hafter
  generalize Text.cut '=' (Text.trimChars fragment) = pieces' at hhead hafter ⊢
  obtain ⟨head, after⟩ := pieces
  obtain ⟨head', after'⟩ := pieces'
  dsimp only at h hhead hafter ⊢
  rw [← hhead, ← hafter, hagain]
  split at h
  · cases h
  · exact h

/-! ## Types for plain declarations -/

theorem closed_composed (hread : p.Read fragment) (htype : IsType hint) (hplain : p.IsPlain) :
    Closed (composed p hint) := by
  have hdeclared : Closed (declared p.qualifier hint p.name) :=
    (closed_qualified hread.qualifier htype).append
      ((show Closed [' '] by decide).append (closed_of_unmarked hplain.name))
  refine hdeclared.append ?_
  unfold assignment
  split
  · rfl
  · exact (show Closed [' ', '=', ' '] by decide).append hplain.default

theorem unended_composed (hread : p.Read fragment) (htype : IsType hint) (hplain : p.IsPlain)
    (hdefault : hasEnd p.default.toList = false) : hasEnd (composed p hint) = false := by
  have hbracket : ')' ∉ p.name.toList := notMem_of_unmarked hplain.name (by decide)
  have hassignment : hasEnd (assignment p.default) = false := by
    unfold assignment
    split
    · rfl
    · simpa [hasEnd] using hdefault
  obtain ⟨c, name, hname⟩ := List.exists_cons_of_ne_nil hread.named
  have hc : c ∈ p.name.toList := hname ▸ List.mem_cons_self
  have hbrace : c ≠ '\x7b' := fun heq => notMem_of_unmarked hplain.name (by decide) (heq ▸ hc)
  have hcomposed : composed p hint =
      (qualified p.qualifier hint.toList ++ [' ']) ++ c :: (name ++ assignment p.default) := by
    simp [composed, declared, hname]
  rw [hcomposed, hasEnd_append (hread.visible c hc) hbrace, hasEnd_concat (by decide) (by decide),
    unended_qualified hread.qualifier htype, Bool.false_or, ← List.cons_append, ← hname,
    hasEnd_append_of_notMem hbracket, hassignment]

/-- **A plain declaration admits types.** -/
theorem Parameter.IsPlain.admits (hplain : p.IsPlain) (hread : p.Read fragment) (htype : IsType hint)
    (hdefault : hasEnd p.default.toList = false) : p.Admits hint where
  unassigned := htype.unassigned
  unqualified := fun _ => by rw [Text.trimChars_eq_self htype.trimmed]; exact htype.unqualified
  closed := closed_composed hread htype hplain
  unended := unended_composed hread htype hplain hdefault

end Patchbay.Signature
