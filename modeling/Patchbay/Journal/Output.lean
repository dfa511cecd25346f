import Patchbay.Journal
import Patchbay.Journal.Template
import Patchbay.Storage

/-!
# Where messages go

Messages are written to streams and to a file, and handed to subscribers. Each of these outlets
has a level, and so has the whole.

* `Output` — the outlets, and what they have received
* `Output.setup`, `Output.setLevel`, `Output.subscribe`, `Output.unsubscribe`
* `Output.send` — one message, to all outlets that take its level

## Design decisions

* Setting up again adjusts the level of the whole; outlets are added once.
* While no level is chosen, warnings and all that is more serious pass.
* A message that does not fit its arguments is dropped by streams and files. Handing it to
  subscribers is a fault.
-/

namespace Patchbay

/-- The kinds of outlets. -/
inductive OutletKind
  /-- The stream with a number. -/
  | stream (number : Nat)
  /-- The file at a path. -/
  | file (path : String)
  | subscribers
deriving Repr, DecidableEq

/-- An outlet with the least level that it takes. -/
structure Outlet where
  kind : OutletKind
  level : Level
deriving Repr, DecidableEq

/-- What a subscriber was handed. -/
structure Notice where
  subscriber : String
  level : Level
  tag : String
  line : String
deriving Repr, DecidableEq

/-- The outlets, and what they have received. -/
structure Output where
  level : Level
  outlets : List Outlet
  /-- The texts of all streams. -/
  streams : List String
  files : Storage
  subscribers : List String

namespace Output

/-- No outlets, and no level chosen. -/
def none : Output := ⟨.notset, [], [], [], []⟩

/-- Whether an outlet is the one for subscribers. -/
def isForSubscribers (o : Outlet) : Bool := o.kind == .subscribers

/-- Adds a stream with a number as an outlet, and a file if there is a path. -/
def attach (o : Output) (level : Level) (number : Nat) : Option String → Except Fault Output
  | .none => .ok { o with outlets := o.outlets ++ [⟨.stream number, level⟩] }
  | some path => do
    let files ← o.files.append path ""
    return { o with
      outlets := o.outlets ++ [⟨.stream number, level⟩, ⟨.file path, level⟩]
      files }

/-- Chooses the level and offers a new stream; it becomes an outlet, with a file, unless there are
such outlets. A file that cannot be opened is a fault, and no outlet is added. -/
def setup (o : Output) (level : Level) (file : Option String) : Output × Except Fault Unit :=
  let number := o.streams.length
  let o := { o with level, streams := o.streams ++ [""] }
  if o.outlets.any fun outlet => !isForSubscribers outlet then (o, .ok ())
  else
    match o.attach level number (file.filter fun path => !path.isEmpty) with
    | .ok o => (o, .ok ())
    | .error fault => (o, .error fault)

/-- Chooses the level of the whole and of all outlets. -/
def setLevel (o : Output) (level : Level) : Output :=
  { o with level, outlets := o.outlets.map fun outlet => { outlet with level } }

/-- Adds a subscriber, once. -/
def subscribe (o : Output) (id : String) : Output :=
  let o :=
    if o.outlets.any isForSubscribers then o
    else { o with outlets := o.outlets ++ [⟨.subscribers, .notset⟩] }
  if o.subscribers.contains id then o else { o with subscribers := o.subscribers ++ [id] }

/-- Takes a subscriber out. -/
def unsubscribe (o : Output) (id : String) : Output :=
  { o with subscribers := o.subscribers.filter (· != id) }

/-- The least level that passes. -/
def threshold (o : Output) : Level :=
  match o.level with
  | .notset => .warning
  | level => level

/-- The tag in brackets: what follows the last point. -/
def shortTag (tag : String) : String :=
  String.ofList ((Text.splitOn '.' tag.toList).getLastD [])

/-- The time before a line of a file, left blank here. -/
def stamp : String := "0000-00-00 00:00:00 "

/-- Whether an outlet takes messages of a level. -/
def takes (o : Output) (level : Level) (outlet : Outlet) : Bool :=
  outlet.level.rank ≤ level.rank && !(isForSubscribers outlet && o.subscribers.isEmpty)

/-- Hands a filled message to an outlet. -/
def deliver (o : Output) (level : Level) (tag line : String) (kind : OutletKind) :
    Output × List Notice :=
  match kind with
  | .stream number =>
    ({ o with streams := o.streams.modify number fun s => s ++ line ++ "\n" }, [])
  | .file path =>
    match o.files.append path (stamp ++ line ++ "\n") with
    | .ok files => ({ o with files }, [])
    | .error _ => (o, [])
  | .subscribers => (o, o.subscribers.map fun id => ⟨id, level, tag, line⟩)

/-- Hands a message to outlets in order; `line` is its printed form, if it could be made. -/
def deliverAll (level : Level) (tag : String) (line : Except Fault String) :
    List Outlet → Output → Output × Except Fault (List Notice)
  | [], o => (o, .ok [])
  | outlet :: rest, o =>
    if !o.takes level outlet then deliverAll level tag line rest o
    else
      match line with
      | .ok line =>
        let (o, notices) := o.deliver level tag line outlet.kind
        let (o, others) := deliverAll level tag (.ok line) rest o
        (o, others.map (notices ++ ·))
      | .error fault =>
        if isForSubscribers outlet then (o, .error fault)
        else deliverAll level tag (.error fault) rest o

/-- Whether a message of a level goes anywhere. -/
def passes (o : Output) (level : Level) : Bool :=
  level != .notset && o.threshold.rank ≤ level.rank && o.outlets.any (o.takes level)

/-- Sends a message to all outlets that take its level. -/
def send (o : Output) (level : Level) (tag template : String) (args : List Value) :
    Output × Except Fault (List Notice) :=
  if !o.passes level then (o, .ok [])
  else
    let tag := shortTag tag
    let line := (Template.fill template args).map (Record.lineOf tag level)
    deliverAll level tag line o.outlets o

end Output

end Patchbay
