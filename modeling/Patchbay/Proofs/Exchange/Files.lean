import Patchbay.Exchange
import Patchbay.Proofs.Text.Digits
import Patchbay.Proofs.Validation.Reporting

/-!
# Loading files

A file that can be read has a document, or it has none and the reason is reported: so it is for all bytes but
those that are no text, and for all texts but those on which reading ends in another fault than one of
documents.

* **`Json.hasText_of_parse`** — whatever is read from JSON can be written: the reader admits no integer that is
  too long for that.
* `Storage.load?_of_notUtf8`, `Storage.load?_of_text` — what loading comes to, with its report
* `Storage.Answers` — a document, or none and one report; whatever else loading comes to is a fault without a
  report (`Storage.answers_or_faults`).
* **`Storage.load_answers`** — when loading answers.  `Storage.isLoadable` can be evaluated, and says so of all
  bytes of which nothing is wrong but that they are no JSON, or JSON of another shape.
-/

namespace Patchbay

/-! ## Values that are read from JSON -/

namespace Value

theorem hasText_int {i : Int} {k : ℕ} (h : i.natAbs < 10 ^ k) (hk : k ≤ integerDigitLimit) :
    (int i).hasText = true := by
  have hlt : i.natAbs < 10 ^ integerDigitLimit := h.trans_le (Nat.pow_le_pow_right (by decide) hk)
  exact decide_eq_true ((Nat.length_toDigits_le_iff (by decide) (by decide)).mpr hlt)

theorem hasText_list {items : List Value} (h : ∀ v ∈ items, v.hasText = true) : (list items).hasText = true := by
  show allHaveText items = true
  induction items with
  | nil => rfl
  | cons v rest ih =>
      rw [allHaveText, h v List.mem_cons_self, ih fun v hv => h v (List.mem_cons_of_mem _ hv)]
      rfl

theorem hasText_object {entries : Entries} (h : ∀ e ∈ entries, e.2.hasText = true) :
    (object entries).hasText = true := by
  show entriesHaveText entries = true
  induction entries with
  | nil => rfl
  | cons e rest ih =>
      rw [entriesHaveText, h e List.mem_cons_self, ih fun e he => h e (List.mem_cons_of_mem _ he)]
      rfl

end Value

namespace Json

variable {cs rest : List Char} {v : Value}

/-- An integer that is read has no more digits than were admitted. -/
theorem hasText_scanNumber (h : scanNumber cs = .ok (v, rest)) : v.hasText = true := by
  unfold scanNumber at h
  dsimp only at h
  split at h
  · cases h
  · next whole _ _ =>
    split at h
    · split at h
      · cases h
      · next hlength =>
        cases h
        refine Value.hasText_int (k := whole.length) ?_ (Nat.le_of_not_lt hlength)
        have hsign : ∀ (negative : Bool) (n : ℕ), (if negative then -(n : Int) else n).natAbs = n := by
          intro negative n
          cases negative
          · rfl
          · exact Int.natAbs_neg n
        rw [hsign]
        exact Text.natOfDigits_lt whole
    · cases h
      rfl

theorem hasText_readWord? (h : readWord? cs = some (v, rest)) : v.hasText = true := by
  obtain ⟨⟨word, value⟩, hmem, hword⟩ := List.exists_of_findSome?_eq_some h
  obtain ⟨after, -, hfound⟩ := Option.map_eq_some_iff.mp hword
  cases hfound
  have hwords : ∀ pair ∈ words, pair.2.hasText = true := by simp [words, Value.hasText]
  exact hwords _ hmem

/-- What the three readers give with a budget has a text, at every depth. -/
structure HasTexts (budget : ℕ) : Prop where
  value : ∀ depth cs v rest, readValue budget depth cs = .ok (v, rest) → v.hasText = true
  items : ∀ depth cs items rest, readItems budget depth cs = .ok (items, rest) → ∀ v ∈ items, v.hasText = true
  members : ∀ depth cs members rest, readMembers budget depth cs = .ok (members, rest) →
    ∀ e ∈ members, e.2.hasText = true

namespace HasTexts

variable {budget depth : ℕ}

theorem readValue (h : HasTexts budget) (hread : readValue (budget + 1) depth cs = .ok (v, rest)) :
    v.hasText = true := by
  unfold Json.readValue at hread
  split at hread
  · cases hread
  · obtain ⟨⟨s, after⟩, -, hread⟩ := exists_of_bind_eq_ok hread
    cases hread
    rfl
  · cases hread
  · cases hread
  · split at hread
    · cases hread
      rfl
    · obtain ⟨⟨items, after⟩, hitems, hread⟩ := exists_of_bind_eq_ok hread
      cases hread
      exact Value.hasText_list (h.items _ _ _ _ hitems)
  · split at hread
    · cases hread
      rfl
    · obtain ⟨⟨members, after⟩, hmembers, hread⟩ := exists_of_bind_eq_ok hread
      cases hread
      exact Value.hasText_object fun e he => h.members _ _ _ _ hmembers e (Keyed.mem_of_mem_ofList he)
  · split at hread
    · next found hword =>
      cases hread
      exact hasText_readWord? hword
    · exact hasText_scanNumber hread

theorem readItems (h : HasTexts budget) {items : List Value}
    (hread : readItems (budget + 1) depth cs = .ok (items, rest)) : ∀ v ∈ items, v.hasText = true := by
  unfold Json.readItems at hread
  obtain ⟨⟨v, after⟩, hvalue, hread⟩ := exists_of_bind_eq_ok hread
  have hv := h.value _ _ _ _ hvalue
  dsimp only at hread
  split at hread
  · cases hread
    exact List.forall_mem_singleton.mpr hv
  · obtain ⟨⟨others, last⟩, hothers, hread⟩ := exists_of_bind_eq_ok hread
    cases hread
    exact List.forall_mem_cons.mpr ⟨hv, h.items _ _ _ _ hothers⟩
  · cases hread

theorem readMembers (h : HasTexts budget) {members : Entries}
    (hread : readMembers (budget + 1) depth cs = .ok (members, rest)) : ∀ e ∈ members, e.2.hasText = true := by
  unfold Json.readMembers at hread
  split at hread
  · obtain ⟨⟨key, after⟩, -, hread⟩ := exists_of_bind_eq_ok hread
    dsimp only at hread
    split at hread
    · obtain ⟨⟨v, after⟩, hvalue, hread⟩ := exists_of_bind_eq_ok hread
      have hv := h.value _ _ _ _ hvalue
      dsimp only at hread
      split at hread
      · cases hread
        exact List.forall_mem_singleton.mpr hv
      · obtain ⟨⟨others, last⟩, hothers, hread⟩ := exists_of_bind_eq_ok hread
        cases hread
        exact List.forall_mem_cons.mpr ⟨hv, h.members _ _ _ _ hothers⟩
      · cases hread
    · cases hread
  · cases hread

end HasTexts

/-- Whatever is read has a text; the three readers call each other with less of their budget. -/
theorem hasTexts (budget : ℕ) : HasTexts budget := by
  induction budget with
  | zero => exact ⟨nofun, nofun, nofun⟩
  | succ budget ih =>
      exact ⟨fun _ _ _ _ => ih.readValue, fun _ _ _ _ => ih.readItems, fun _ _ _ _ => ih.readMembers⟩

/-- **Every value that is read has a text.** -/
theorem hasText_of_parse {text : String} (h : parse text = .ok v) : v.hasText = true := by
  have hread : read text.toList = .ok v := by
    unfold parse at h
    dsimp only at h
    split at h
    · next hv =>
      cases h
      exact hv
    · cases h
  unfold read at hread
  split at hread
  · cases hread
  · obtain ⟨⟨v', after⟩, hvalue, hread⟩ := exists_of_bind_eq_ok hread
    dsimp only at hread
    split at hread
    · cases hread
      exact (hasTexts _).value _ _ _ _ hvalue
    · cases hread

end Json

/-! ## Documents in files -/

theorem Exchange.isDocument_iff {fault : Fault} :
    isDocument fault = true ↔ ∃ place cause, fault = .document place cause := by
  cases fault <;> simp [isDocument]

namespace Storage

open Exchange

/-- The report of a file that holds no document. -/
def loadFailed (fault : Fault) : Record := ⟨"Serializer", .error, [.words "Load failed: ", .cause fault]⟩

/-- What loading a file comes to that could be read: its document, or no document and a report that says why. -/
def Answers (outcome : Logged (Except Fault (Option Document))) : Prop :=
  (∃ d, outcome = ⟨.ok (some d), []⟩) ∨
    ∃ place cause, outcome = ⟨.ok none, [loadFailed (.document place cause)]⟩

/-- Whether bytes are a text in UTF-8 that is no JSON, or JSON that the reader of documents bears with. A text
with an integer that is too long, or with values that are nested too deeply, is neither. -/
def isLoadable (bytes : ByteArray) : Bool :=
  match decode bytes with
  | .error _ => false
  | .ok text =>
    match Json.parse text with
    | .ok v => Document.tolerates v
    | .error (.notJson _) => true
    | .error _ => false

variable {s : Storage} {path : String} {bytes : ByteArray}

/-- The fault of bytes that are no text is none of files, and so it is not looked at. -/
theorem load?_of_notUtf8 (h : s.readBytes path = .ok bytes) {fault : Fault} (hdecode : decode bytes = .error fault) :
    fault = .notUtf8 ∧ (s.load? path).outcome = ⟨.error fault, []⟩ := by
  obtain rfl : fault = .notUtf8 := by
    unfold decode at hdecode
    split at hdecode
    · cases hdecode
    · exact (Except.error.inj hdecode).symm
  have hread : s.readText path = .error .notUtf8 := by
    rw [readText, h]
    exact hdecode
  refine ⟨rfl, ?_⟩
  unfold load? readText?
  rw [hread]
  rfl

theorem load?_of_text (h : s.readBytes path = .ok bytes) {text : String} (hdecode : decode bytes = .ok text) :
    (s.load? path).outcome = match Document.parse text with
      | .ok d => ⟨.ok (some d), []⟩
      | .error fault => if isDocument fault then ⟨.ok none, [loadFailed fault]⟩ else ⟨.error fault, []⟩ := by
  have hread : s.readText? path = pure (some text) := by
    have htext : s.readText path = .ok text := by
      rw [readText, h]
      exact hdecode
    unfold readText?
    rw [htext]
  unfold load?
  rw [hread, pure_bind]
  dsimp only
  cases Document.parse text with
  | ok d => rfl
  | error fault =>
      dsimp only
      cases isDocument fault <;> rfl

theorem not_answers_error (fault : Fault) : ¬ Answers ⟨.error fault, []⟩ := by
  rintro (⟨d, hd⟩ | ⟨place, cause, hcause⟩)
  · cases hd
  · cases hcause

/-- Loading answers if the bytes are a text whose fault, if any, is one of documents; otherwise it ends in the
fault, and nobody is told. -/
theorem load?_cases (h : s.readBytes path = .ok bytes) :
    (Answers (s.load? path).outcome ∧ ∃ text, decode bytes = .ok text ∧ Reports (Document.parse text)) ∨
      (∃ fault, (s.load? path).outcome = ⟨.error fault, []⟩ ∧ isDocument fault = false) ∧
        ¬ ∃ text, decode bytes = .ok text ∧ Reports (Document.parse text) := by
  cases hdecode : decode bytes with
  | error fault =>
      obtain ⟨rfl, houtcome⟩ := load?_of_notUtf8 h hdecode
      exact .inr ⟨⟨.notUtf8, houtcome, rfl⟩, nofun⟩
  | ok text =>
      rw [load?_of_text h hdecode]
      cases hparse : Document.parse text with
      | ok d => exact .inl ⟨.inl ⟨d, rfl⟩, text, rfl, hparse ▸ reports_ok d⟩
      | error fault =>
          dsimp only
          cases hfault : isDocument fault with
          | true =>
              obtain ⟨place, cause, rfl⟩ := isDocument_iff.mp hfault
              exact .inl ⟨.inr ⟨place, cause, rfl⟩, text, rfl, hparse ▸ reports_document place cause⟩
          | false =>
              refine .inr ⟨⟨fault, rfl, hfault⟩, ?_⟩
              rintro ⟨text', heq, hreports⟩
              cases heq
              exact Bool.false_ne_true (hfault.symm.trans (isDocument_iff.mpr (hreports fault hparse)))

theorem answers_iff (h : s.readBytes path = .ok bytes) :
    Answers (s.load? path).outcome ↔ ∃ text, decode bytes = .ok text ∧ Reports (Document.parse text) := by
  rcases load?_cases h with ⟨hanswers, htext⟩ | ⟨⟨fault, houtcome, -⟩, htext⟩
  · exact iff_of_true hanswers htext
  · exact iff_of_false (houtcome ▸ not_answers_error fault) htext

/-- Where loading does not answer, it ends in the fault, and nobody is told. -/
theorem answers_or_faults (h : s.readBytes path = .ok bytes) : Answers (s.load? path).outcome ∨
    ∃ fault, (s.load? path).outcome = ⟨.error fault, []⟩ ∧ isDocument fault = false :=
  (load?_cases h).imp And.left And.left

/-- What the reader bears with is read from JSON, or the text is refused as no JSON. -/
theorem reports_of_isLoadable (h : isLoadable bytes = true) :
    ∃ text, decode bytes = .ok text ∧ Reports (Document.parse text) := by
  unfold isLoadable at h
  cases hdecode : decode bytes with
  | error fault =>
      rw [hdecode] at h
      cases h
  | ok text =>
      refine ⟨text, rfl, ?_⟩
      rw [hdecode] at h
      dsimp only at h
      unfold Document.parse
      cases hparse : Json.parse text with
      | ok v =>
          rw [hparse] at h
          exact Document.reports_ofValue (Json.hasText_of_parse hparse) h
      | error refusal =>
          rw [hparse] at h
          cases refusal with
          | notJson cause => exact reports_document none (.notJson cause)
          | longInteger => cases h
          | deepNesting => cases h

/-- **What loading a file comes to that can be read.**  Bytes that are a text in UTF-8, and that text no JSON or JSON
that the reader of documents bears with, give a document, or none and one report that says why.  In general
they do so exactly if they are a text in UTF-8 and what is wrong with the text, if anything, is a fault of
documents; otherwise loading ends in the fault and reports nothing. -/
theorem load_answers (h : s.readBytes path = .ok bytes) :
    let outcome := (s.load? path).outcome
    (isLoadable bytes = true → Answers outcome) ∧
      (Answers outcome ↔ ∃ text, decode bytes = .ok text ∧ Reports (Document.parse text)) ∧
      (¬ Answers outcome → ∃ fault, outcome = ⟨.error fault, []⟩ ∧ isDocument fault = false) := by
  exact ⟨fun hloadable => (answers_iff h).mpr (reports_of_isLoadable hloadable), answers_iff h,
    (answers_or_faults h).resolve_left⟩

/-- One file among the relative paths. -/
def oneFile (bytes : ByteArray) : Storage := [(workFolder ++ ["a"], .file bytes)]

theorem readBytes_oneFile (bytes : ByteArray) : (oneFile bytes).readBytes "a" = .ok bytes := by
  have hpath : checkPath "a" = .ok () := by decide +kernel
  have hparts : parts "a" = ["a"] := by decide +kernel
  have hstart : start "a" = workFolder := by decide +kernel
  have hlocate : locate (oneFile bytes) "a" = .ok (workFolder ++ ["a"]) := by
    unfold locate
    rw [hpath, hparts, hstart]
    rfl
  unfold readBytes
  rw [hlocate]
  rfl

/-- An empty array is no document, and this is reported. -/
theorem load_answers_array : (oneFile "[]".toUTF8).readBytes "a" = .ok "[]".toUTF8 ∧
    Answers ((oneFile "[]".toUTF8).load? "a").outcome :=
  ⟨readBytes_oneFile _, (load_answers (readBytes_oneFile "[]".toUTF8)).1 rfl⟩

/-- A document whose one component has settings that are a truth value. -/
def wrongSettings : String := "\x7b\"components\": [\x7b\"inputSettings\": true\x7d]\x7d"

/-- A byte that is no text ends loading in a fault, and so do settings that are no list. -/
theorem load_fails :
    ((oneFile ⟨#[0xFF]⟩).load? "a").outcome = ⟨.error .notUtf8, []⟩ ∧
      ((oneFile wrongSettings.toUTF8).load? "a").outcome = ⟨.error .wrongKind, []⟩ := by
  constructor
  · exact (load?_of_notUtf8 (readBytes_oneFile _) rfl).2
  · have hdecode : decode wrongSettings.toUTF8 = .ok wrongSettings := by decide +kernel
    have hfault : (Document.parse wrongSettings).map (fun _ => ()) = .error .wrongKind := by decide +kernel
    rw [load?_of_text (readBytes_oneFile _) hdecode]
    cases hparse : Document.parse wrongSettings with
    | ok d =>
        rw [hparse] at hfault
        cases hfault
    | error fault =>
        rw [hparse] at hfault
        cases hfault
        rfl

end Storage

end Patchbay
