import Patchbay.Fault

/-!
# Journals

What a program reports about its work, kept beside its results instead of being printed.

* `Level` — how serious a record is
* `Record` — one message with its level and the module it comes from
* `Logged α` — a result with the records made on the way
* `Attempt α` — a result or a fault, with the records made on the way
* `Procedure σ α` — the same with a state
* `Record.line` — the printed form of a record

## Design decisions

* `Logged` is a monad whose `bind` appends records, so a value never depends on them:
  `Logged.value_bind` lets a proof forget the journal.
* A record keeps the faults it cites as faults. Only printing turns them into words.
* `Attempt` and `Procedure` keep the records of a failed computation.
-/

namespace Patchbay

/-- How serious a record is. `notset` is no level of records: it stands for a level that was not
chosen. -/
inductive Level
  | notset | debug | info | warning | error | critical
deriving Repr, DecidableEq, Inhabited

namespace Level

/-- The order of severity. -/
def rank : Level → Nat
  | notset => 0
  | debug => 10
  | info => 20
  | warning => 30
  | error => 40
  | critical => 50

/-- The printed name. -/
def label : Level → String
  | notset => "NOTSET"
  | debug => "DEBUG"
  | info => "INFO"
  | warning => "WARNING"
  | error => "ERROR"
  | critical => "CRITICAL"

def all : List Level := [notset, debug, info, warning, error, critical]

/-- The level of a printed name. -/
def ofLabel? (label : String) : Option Level := all.find? fun l => l.label == label

/-- The printed name, filled up to five characters. -/
def column (l : Level) : String := l.label ++ String.ofList (List.replicate (5 - l.label.length) ' ')

end Level

/-- A part of a message: words, or a fault that is cited. -/
inductive Piece
  | words (text : String)
  | cause (fault : Fault)
deriving Repr, DecidableEq

/-- One message of the journal. -/
structure Record where
  /-- The module that made it. -/
  tag : String
  level : Level
  message : List Piece
deriving Repr, DecidableEq

namespace Record

/-- The words of a message; `cite` gives the words of a fault. -/
def text (cite : Fault → String) (r : Record) : String :=
  String.join (r.message.map fun
    | .words w => w
    | .cause f => cite f)

/-- The printed form of a message under a tag. -/
def lineOf (tag : String) (level : Level) (message : String) : String :=
  "[" ++ tag ++ "] " ++ level.column ++ " " ++ message

/-- The printed form of a record. -/
def line (cite : Fault → String) (r : Record) : String := lineOf r.tag r.level (r.text cite)

end Record

/-- A result with the records made on the way. -/
structure Logged (α : Type) where
  value : α
  records : List Record

namespace Logged

instance : Monad Logged where
  pure a := ⟨a, []⟩
  bind x f :=
    let y := f x.value
    ⟨y.value, x.records ++ y.records⟩

@[simp] theorem value_pure {α : Type} (a : α) : (pure a : Logged α).value = a := rfl

@[simp] theorem records_pure {α : Type} (a : α) : (pure a : Logged α).records = [] := rfl

@[simp] theorem value_bind {α β : Type} (x : Logged α) (f : α → Logged β) :
    (x >>= f).value = (f x.value).value := rfl

@[simp] theorem records_bind {α β : Type} (x : Logged α) (f : α → Logged β) :
    (x >>= f).records = x.records ++ (f x.value).records := rfl

@[simp] theorem value_map {α β : Type} (g : α → β) (x : Logged α) : (g <$> x).value = g x.value :=
  rfl

@[simp] theorem records_map {α β : Type} (g : α → β) (x : Logged α) :
    (g <$> x).records = x.records := by
  change x.records ++ [] = x.records
  simp

/-- Makes one record. -/
def report (r : Record) : Logged Unit := ⟨(), [r]⟩

@[simp] theorem value_report (r : Record) : (report r).value = () := rfl

end Logged

/-- A result or a fault, with the records made on the way. -/
abbrev Attempt (α : Type) := ExceptT Fault Logged α

namespace Attempt

/-- The outcome and the journal of an attempt. -/
def outcome {α : Type} (x : Attempt α) : Logged (Except Fault α) := x.run

/-- An attempt that reports nothing. -/
def ofExcept {α : Type} (x : Except Fault α) : Attempt α := ExceptT.mk (pure x)

end Attempt

/-- A computation that changes a state, reports, and may fail. A failed one keeps the state as it was
when the fault arose. -/
abbrev Procedure (σ α : Type) := ExceptT Fault (StateT σ Logged) α

namespace Procedure

variable {σ α : Type}

/-- The outcome of a procedure, the state after it, and the journal. -/
def start (x : Procedure σ α) (s : σ) : Logged (Except Fault α × σ) := x.run s

/-- Runs something that reports. -/
def logged (x : Logged α) : Procedure σ α := ExceptT.lift (StateT.lift x)

/-- Runs something that may fail. -/
def ofResult (x : Except Fault α) : Procedure σ α := ExceptT.mk (pure x)

/-- Runs something that reports and may fail. -/
def attempt (x : Attempt α) : Procedure σ α := do ofResult (← logged x.outcome)

/-- Goes on after the faults that `admits` names, with what `instead` does. -/
def recover (admits : Fault → Bool) (x : Procedure σ α) (instead : Fault → Procedure σ α) : Procedure σ α :=
  tryCatch x fun fault => if admits fault then instead fault else throw fault

/-- Runs a procedure on a part of the state. -/
def within {τ : Type} (get : τ → σ) (put : σ → τ → τ) (x : Procedure σ α) : Procedure τ α := do
  let (result, s) ← logged (x.start (get (← MonadState.get)))
  modify (put s)
  ofResult result

end Procedure

/-- A record of words alone. -/
def record (tag : String) (level : Level) (text : String) : Record := ⟨tag, level, [.words text]⟩

end Patchbay
