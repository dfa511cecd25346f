import Patchbay.Proofs.Identifier.RoundTrip

/-!
# When two display names share a variable

In Python different display names have different variables.  In C# the verbatim mark of a variable
does not count, and with the mark an escaped form loses what set it apart: **the escaped form of one
name may be the very text of another**, which is an identifier and stands as it is.

* `Identifier.EscapesTo` — a name whose escaped form is another name
* **`stripVerbatim_sanitizeChars`** — what counts of a variable in C#: the name, or its escaped form.
* **`Language.sameVariable_sanitize_iff`** — names share a variable in Python if they are equal, and in
  C# if they are equal or one escapes to the other.
-/

namespace Patchbay.Identifier

/-- A name that is escaped in C#, where without the verbatim mark its variable is the other name. -/
def EscapesTo (name other : String) : Prop :=
  isIdentifier name.toList = false ∧ other.toList = '_' :: '_' :: escape name.toList

instance (name other : String) : Decidable (EscapesTo name other) :=
  inferInstanceAs (Decidable (_ ∧ _))

/-! ## Escaped forms -/

theorem escape_injective : Function.Injective escape := by
  intro a b h
  have hread := unescape_escape a
  rw [h, unescape_escape] at hread
  exact (Except.ok.inj hread).symm

theorem isPart_hexDigits (width n : Nat) : ∀ c ∈ hexDigits width n, isPart c = true := by
  have hdigit : ∀ m < 16, isPart (hexDigit m) = true := by decide
  induction width with
  | zero => exact fun _ h => nomatch h
  | succ width ih =>
      rw [hexDigits_succ]
      intro c hc
      rcases List.mem_cons.mp hc with rfl | hc
      · exact hdigit _ (Nat.mod_lt _ (by decide))
      · exact ih c hc

theorem isPart_escapeChar (a : Char) : ∀ c ∈ escapeChar a, isPart c = true := by
  intro c hc
  unfold escapeChar at hc
  dsimp only at hc
  split at hc
  · next halnum =>
    rw [List.mem_singleton.mp hc, isPart, halnum]
    rfl
  · split at hc
    · rcases List.mem_cons.mp hc with rfl | hc
      · decide
      · exact isPart_hexDigits _ _ c hc
    · split at hc <;>
      · rcases List.mem_cons.mp hc with rfl | hc
        · decide
        · rcases List.mem_cons.mp hc with rfl | hc
          · decide
          · exact isPart_hexDigits _ _ c hc

theorem endsIdentifier_of_isPart {cs : List Char} (h : ∀ c ∈ cs, isPart c = true) :
    endsIdentifier cs = true := by
  fun_induction endsIdentifier cs with
  | case1 => rfl
  | case2 => rfl
  | case3 c rest _ ih =>
      rw [h c List.mem_cons_self, ih fun d hd => h d (List.mem_cons_of_mem c hd)]
      rfl

theorem isPart_escape (name : List Char) : ∀ c ∈ escape name, isPart c = true := by
  intro c hc
  obtain ⟨a, -, hc⟩ := List.mem_flatMap.mp hc
  exact isPart_escapeChar a c hc

/-- Behind its prefix an escaped form is an identifier. -/
theorem isIdentifier_escaped (name : List Char) : isIdentifier ('_' :: '_' :: escape name) = true := by
  have hparts : ∀ c ∈ '_' :: escape name, isPart c = true :=
    List.forall_mem_cons.mpr ⟨by decide, isPart_escape name⟩
  rw [isIdentifier, endsIdentifier_of_isPart hparts]
  rfl

/-! ## What counts of a variable -/

/-- **What counts of a variable in C#**: a name that is an identifier, reserved or not, stands for
itself, and every other name for its escaped form. -/
theorem stripVerbatim_sanitizeChars (name : List Char) :
    stripVerbatim (sanitizeChars .csharp name) =
      if isIdentifier name then name else '_' :: '_' :: escape name := by
  unfold sanitizeChars
  dsimp only
  split
  · next hid =>
    split
    · rfl
    · exact stripVerbatim_of_isIdentifier hid
  · rfl

theorem sanitizeChars_python_injective : Function.Injective (sanitizeChars .python) := by
  intro a b h
  have hread := unsanitizeChars_sanitizeChars_python a
  rw [h, unsanitizeChars_sanitizeChars_python] at hread
  exact (Except.ok.inj hread).symm

/-- Two names stand for the same variable if they are equal, or if one of them is the escaped form of
the other. -/
theorem stripVerbatim_sanitizeChars_eq_iff (a b : List Char) :
    stripVerbatim (sanitizeChars .csharp a) = stripVerbatim (sanitizeChars .csharp b) ↔
      a = b ∨ (isIdentifier a = false ∧ b = '_' :: '_' :: escape a) ∨
        (isIdentifier b = false ∧ a = '_' :: '_' :: escape b) := by
  rw [stripVerbatim_sanitizeChars, stripVerbatim_sanitizeChars]
  cases ha : isIdentifier a <;> cases hb : isIdentifier b
  · have ha' : a ≠ '_' :: '_' :: escape b := by
      rintro rfl
      rw [isIdentifier_escaped] at ha
      cases ha
    have hb' : b ≠ '_' :: '_' :: escape a := by
      rintro rfl
      rw [isIdentifier_escaped] at hb
      cases hb
    simp [ha', hb', escape_injective.eq_iff]
  · have hne : a ≠ b := by
      rintro rfl
      rw [ha] at hb
      cases hb
    simp [hne, eq_comm]
  · have hne : a ≠ b := by
      rintro rfl
      rw [ha] at hb
      cases hb
    simp [hne]
  · simp

end Patchbay.Identifier

namespace Patchbay.Language

open Identifier

/-- **When two display names share a variable**: in Python only if they are equal, in C# also if the
escaped form of one of them is the other. -/
theorem sameVariable_sanitize_iff (a b : String) :
    (python.sameVariable (python.sanitize a) (python.sanitize b) = true ↔ a = b) ∧
      (csharp.sameVariable (csharp.sanitize a) (csharp.sanitize b) = true ↔
        a = b ∨ EscapesTo a b ∨ EscapesTo b a) := by
  constructor
  · change (String.ofList _ == String.ofList _) = true ↔ _
    rw [beq_iff_eq, String.ofList_inj, sanitizeChars_python_injective.eq_iff, String.toList_inj]
  · change (stripVerbatim (String.ofList _).toList == stripVerbatim (String.ofList _).toList) = true ↔ _
    rw [beq_iff_eq, String.toList_ofList, String.toList_ofList, stripVerbatim_sanitizeChars_eq_iff,
      String.toList_inj]
    rfl

/-- The escaped form of one name as the other name. -/
theorem sameVariable_maxRadius : "Max Radius" ≠ "__Max_20Radius" ∧
    csharp.sameVariable (csharp.sanitize "Max Radius") (csharp.sanitize "__Max_20Radius") = true := by
  decide +kernel

end Patchbay.Language
