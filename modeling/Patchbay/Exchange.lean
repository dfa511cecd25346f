import Patchbay.Capture
import Patchbay.Rebuild
import Patchbay.Storage
import Patchbay.Validation.Semantics

/-!
# Exchanging documents

Documents as texts and files, and the ways from there to a canvas.

* `Storage.save`, `Storage.load?` — documents as files
* `Work.deserialize` — checks, reads and rebuilds a text
* `Work.loadNodes` — the same for a file

What goes wrong with a file or a text is reported, and the answer is that nothing was done.
-/

namespace Patchbay

namespace Exchange

/-- A report of exchanging documents. -/
def tell (level : Level) (message : List Piece) : Logged Unit :=
  Logged.report ⟨"Serializer", level, message⟩

/-- A report of words alone. -/
def say (level : Level) (text : String) : Logged Unit := tell level [.words text]

/-- Whether a fault is one of files. -/
def isStorage : Fault → Bool
  | .storage _ => true
  | _ => false

/-- Whether a fault is one of documents. -/
def isDocument : Fault → Bool
  | .document .. => true
  | _ => false

end Exchange

namespace Storage

open Exchange

/-- Saves a document. Returns whether it was saved, and the files. -/
def save (s : Storage) (path : String) (indent : Option Nat) (d : Document) :
    Attempt (Bool × Storage) := do
  let text ← Attempt.ofExcept (d.text indent)
  match s.writeText path text with
  | .ok s => do
    ExceptT.lift (say .info ("Saved to: " ++ path))
    return (true, s)
  | .error fault =>
    if isStorage fault then do
      ExceptT.lift (tell .error [.words "Save failed: ", .cause fault])
      return (false, s)
    else throw fault

/-- The text of a file, if it can be read. -/
def readText? (s : Storage) (path : String) : Attempt (Option String) :=
  match s.readText path with
  | .ok text => pure (some text)
  | .error (.storage .missing) => do
    ExceptT.lift (say .warning ("File not found: " ++ path))
    return none
  | .error fault =>
    if isStorage fault then do
      ExceptT.lift (tell .error [.words "Load failed: ", .cause fault])
      return none
    else throw fault

/-- The document in a file, if it can be read. -/
def load? (s : Storage) (path : String) : Attempt (Option Document) := do
  match ← s.readText? path with
  | none => return none
  | some text =>
    match Document.parse text with
    | .ok d => return some d
    | .error fault =>
      if isDocument fault then do
        ExceptT.lift (tell .error [.words "Load failed: ", .cause fault])
        return none
      else throw fault

end Storage

namespace Work

open Procedure Exchange

/-- Checks a text; returns whether it may be used. -/
def accept (b : Rebuilder) (types : DataTypes) (text : String) : Work Bool := do
  let report ← attempt (Validation.validate types (some b.catalog) (.str text))
  if report.isValid then
    report.warnings.forM fun w => logged (say .debug ("Validation warning: " ++ w))
    return true
  else
    logged (say .warning ("Document rejected:\n" ++ report.text))
    return false

/-- Reads a text and rebuilds its document; nothing if it is no document. -/
def rebuildText (b : Rebuilder) (text : String) : Work (Option Rebuilt) :=
  match Document.parse text with
  | .ok d => some <$> rebuild b d
  | .error fault =>
    if isDocument fault then do
      logged (tell .error [.words "Cannot parse document: ", .cause fault])
      return none
    else throw fault

/-- Rebuilds the document of a text, which is checked first if `check` says so. -/
def deserialize (b : Rebuilder) (types : DataTypes) (check : Bool) (text : String) :
    Work (Option Rebuilt) := do
  let accepted ← if check then accept b types text else pure true
  if accepted then rebuildText b text else return none

/-- Rebuilds the document in a file. -/
def loadNodes (b : Rebuilder) (types : DataTypes) (check : Bool) (s : Storage) (path : String) :
    Work (Option Rebuilt) := do
  match ← attempt (s.readText? path) with
  | some text => deserialize b types check text
  | none => return none

end Work

end Patchbay
