import Patchbay.Fault
import Patchbay.Keyed
import Patchbay.Text.Split

/-!
# Files

A tree of folders and files, as far as documents and journals are read from it and written to it.

* `Storage` — files and folders under their locations
* `Storage.locate` — where a path leads
* `Storage.readText`, `Storage.writeText`, `Storage.append` — files as texts in UTF-8
* `Storage.writeBytes`, `Storage.makeFolder`

## Design decisions

* A path is walked from name to name, and every name on the way must be a folder. Empty parts and
  `.` do not count, and `..` is one step up.
* Relative paths start from one folder, which is always there. So is the file that takes everything
  and holds nothing.
* Reading turns every kind of line end into a line feed; writing leaves them as they are.
-/

namespace Patchbay

/-- What is at a location. -/
inductive StorageEntry
  | folder
  | file (bytes : ByteArray)

/-- The names from the outermost folder down to a file or folder. -/
abbrev Location := List String

/-- Files and folders under their locations. -/
abbrev Storage := List (Location × StorageEntry)

namespace Storage

/-- The folder that relative paths start from. -/
def workFolder : Location := ["tmp", "work"]

/-- The file that takes everything and holds nothing. -/
def nullFile : Location := ["dev", "null"]

/-- The folders that are always there: the one that paths start from, the one of the file that holds
nothing, and those around them. -/
def isStandingFolder (l : Location) : Bool :=
  l.isPrefixOf workFolder || l.isPrefixOf nullFile.dropLast

/-- What is at a location. -/
def entry? (s : Storage) (l : Location) : Option StorageEntry :=
  if isStandingFolder l then some .folder
  else if l = nullFile then some (.file ByteArray.empty)
  else s.lookup l

/-! ### Paths -/

/-- The parts of a path between slashes that are not empty. -/
def parts (path : String) : List String :=
  ((Text.splitOn '/' path.toList).filter fun part => !part.isEmpty).map String.ofList

/-- Where a path starts. -/
def start (path : String) : Location := if path.startsWith "/" then [] else workFolder

/-- The length in bytes that no name exceeds. -/
def maxNameLength : Nat := 255

/-- The location of a name in a folder. -/
def child (folder : Location) (name : String) : Except Fault Location :=
  if maxNameLength < name.utf8ByteSize then .error (.storage .longName)
  else .ok (folder ++ [name])

/-- One step from a folder to where a part of a path leads. -/
def step (folder : Location) (part : String) : Except Fault Location :=
  if part == "." then .ok folder
  else if part == ".." then .ok folder.dropLast
  else child folder part

/-- Walks from a folder to a folder. -/
def walk (s : Storage) (folder : Location) : List String → Except Fault Location
  | [] => .ok folder
  | part :: rest => do
    let l ← step folder part
    match s.entry? l with
    | some .folder => walk s l rest
    | some (.file _) => throw (.storage .notFolder)
    | none => throw (.storage .missing)

/-- The length in bytes that no path exceeds. -/
def maxPathLength : Nat := 4095

/-- Checks that a path has no character that no path has, and is not too long. -/
def checkPath (path : String) : Except Fault Unit :=
  if path.toList.contains '\x00' then .error .unreadable
  else if maxPathLength < path.utf8ByteSize then .error (.storage .longName)
  else .ok ()

/-- Where a path leads, whether or not anything is there. -/
def locate (s : Storage) (path : String) : Except Fault Location := do
  checkPath path
  let parts := (parts path).filter (· != ".")
  match parts.getLast? with
  | none => return start path
  | some last => step (← s.walk (start path) parts.dropLast) last

/-! ### Files -/

/-- The bytes of a file. -/
def readBytes (s : Storage) (path : String) : Except Fault ByteArray := do
  match s.entry? (← s.locate path) with
  | some (.file bytes) => return bytes
  | some .folder => throw (.storage .isFolder)
  | none => throw (.storage .missing)

/-- Puts bytes into a file, which is made if it is not there. -/
def writeBytes (s : Storage) (path : String) (bytes : ByteArray) : Except Fault Storage := do
  let l ← s.locate path
  match s.entry? l with
  | some .folder => throw (.storage .isFolder)
  | _ => return if l = nullFile then s else Keyed.put s l (.file bytes)

/-- Makes a folder inside of folders that are there. -/
def makeFolder (s : Storage) (path : String) : Except Fault Storage := do
  checkPath path
  if path.isEmpty then throw (.storage .missing)
  let l ←
    match (parts path).getLast? with
    | none => pure []
    | some last => step (← s.walk (start path) (parts path).dropLast) last
  match s.entry? l with
  | some _ => throw (.storage .taken)
  | none => return Keyed.put s l .folder

/-- A text with every line end as a line feed; `afterReturn` tells that a carriage return was just
read. -/
def plainLines : (afterReturn : Bool) → List Char → List Char
  | _, [] => []
  | afterReturn, c :: rest =>
    if c == '\r' then '\n' :: plainLines true rest
    else if c == '\n' && afterReturn then plainLines false rest
    else c :: plainLines false rest

/-- The text of bytes in UTF-8. -/
def decode (bytes : ByteArray) : Except Fault String :=
  match String.fromUTF8? bytes with
  | some s => .ok (String.ofList (plainLines false s.toList))
  | none => .error .notUtf8

/-- The text of a file. -/
def readText (s : Storage) (path : String) : Except Fault String := do decode (← s.readBytes path)

/-- Puts a text into a file. -/
def writeText (s : Storage) (path text : String) : Except Fault Storage :=
  s.writeBytes path text.toUTF8

/-! ### Files that grow -/

/-- Where a path leads by its names alone: `..` takes the name before it away, whatever it is. -/
def plainLocation (path : String) : Location :=
  (parts path).foldl (fun l part =>
    if part == "." then l else if part == ".." then l.dropLast else l ++ [part]) (start path)

/-- The path of a location. -/
def pathOf (l : Location) : String := String.join (l.map ("/" ++ ·))

/-- Adds a text to the end of a file, which is made if it is not there. -/
def append (s : Storage) (path text : String) : Except Fault Storage := do
  let path := pathOf (plainLocation path)
  let bytes ←
    match s.readBytes path with
    | .ok bytes => pure bytes
    | .error (.storage .missing) => pure ByteArray.empty
    | .error fault => throw fault
  s.writeBytes path (bytes ++ text.toUTF8)

end Storage

end Patchbay
