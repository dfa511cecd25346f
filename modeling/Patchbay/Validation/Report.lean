import Patchbay.Text.Split

/-!
# Validation reports

A report collects findings of three severities. Errors mean that a document should not be used.

* `Report` — the findings
* `Report.append` — the findings of two checks
* `Report.isValid`, `Report.text`
-/

namespace Patchbay

/-- The findings of a check. -/
structure Report where
  errors : List String
  warnings : List String
  information : List String
deriving Repr, DecidableEq, Inhabited

namespace Report

/-- A report without findings. -/
def none : Report := ⟨[], [], []⟩

/-- A report of one error. -/
def error (finding : String) : Report := ⟨[finding], [], []⟩

/-- A report of one warning. -/
def warning (finding : String) : Report := ⟨[], [finding], []⟩

/-- A report of one piece of information. -/
def info (finding : String) : Report := ⟨[], [], [finding]⟩

/-- The findings of two checks. -/
def append (a b : Report) : Report :=
  ⟨a.errors ++ b.errors, a.warnings ++ b.warnings, a.information ++ b.information⟩

instance : Append Report := ⟨append⟩

/-- A finding, if there is cause for it. -/
def when (condition : Bool) (r : Report) : Report := if condition then r else none

/-- The findings of several checks. -/
def concat (reports : List Report) : Report := reports.foldl append none

@[simp] theorem errors_append (a b : Report) : (a ++ b).errors = a.errors ++ b.errors := rfl

@[simp] theorem warnings_append (a b : Report) : (a ++ b).warnings = a.warnings ++ b.warnings := rfl

/-- Whether there are no errors. -/
def isValid (r : Report) : Bool := r.errors.isEmpty

/-- The findings of one severity under a title, one a line; nothing if there are none. -/
def sectionText (title : String) (findings : List String) : Option String :=
  if findings.isEmpty then .none
  else some (Text.joinWith "\n" ((title ++ ":") :: findings.map fun f => "- " ++ f))

/-- The report for readers. -/
def text (r : Report) : String :=
  Text.joinWith "\n\n" ([sectionText "Errors" r.errors, sectionText "Warnings" r.warnings,
    sectionText "Information" r.information].filterMap id)

end Report

end Patchbay
