import Patchbay.Text.Case
import Patchbay.Text.Split
import Patchbay.Journal
import Patchbay.Value.Text

/-!
# Codecs

A token is a text `tag:payload`. A codec writes the values of some kinds as tokens with its tag and
reads them back.

* `Codec` — one codec
* `Codec.serialize`, `Codec.deserialize`, `Codec.validates`
* `Registry` — codecs under their names, tags and kinds
* `Registry.register` — adds a codec under names and a tag that are not taken
* `Registry.tryDecode` — reads a token of any codec, and leaves everything else as it is

## Design decisions

* A codec's `write` and `read` see the payload only. The tag is added and checked in one place.
* Names are compared in lower case, tags exactly.
* Registering never replaces an entry. Of two codecs for one kind the first stays responsible.
-/

namespace Patchbay

/-- A way to write values of some kinds as texts. -/
structure Codec where
  typeName : String
  /-- What stands before the colon of a token. -/
  tag : String
  kinds : List Kind
  write : Value → Except Fault String
  read : String → Except Fault Value
  /-- The form of a token, for messages. -/
  hint : String
  /-- Refuses degenerate values. -/
  valid : Value → Bool

namespace Codec

/-- The codec with a hint: without one of its own, its tag and dots for the payload. -/
def hinted (c : Codec) : Codec := if c.hint.isEmpty then { c with hint := c.tag ++ ":..." } else c

/-- Whether a codec takes values of a kind. A truth value is taken only where truth values are
meant, although it is an integer too. -/
def acceptsKind (c : Codec) (k : Kind) : Bool :=
  if k == .bool then c.kinds.contains .bool else k.lineage.any c.kinds.contains

/-- Whether a codec takes a value. -/
def accepts (c : Codec) (v : Value) : Bool := c.acceptsKind v.kind

/-- The token of a value. -/
def serialize (c : Codec) (v : Value) : Except Fault String := do
  if !c.accepts v then throw (.wrongValue c.typeName v.kind.typeName)
  if !c.valid v then throw (.malformedToken c.typeName v.text c.hint)
  return c.tag ++ ":" ++ (← c.write v)

/-- The payload of a token with this codec's tag. -/
def payload? (c : Codec) (token : String) : Option String :=
  match Text.cut ':' token.toList with
  | (tag, some payload) => if String.ofList tag == c.tag then some (String.ofList payload) else none
  | (_, none) => none

/-- The value that a token stands for, if it has this codec's tag, is well formed and not
degenerate. -/
def decode? (c : Codec) (token : String) : Option Value := do
  let payload ← c.payload? token
  let v ← (c.read payload).toOption
  if c.valid v then some v else none

/-- Reads a token. -/
def deserialize (c : Codec) (token : Value) : Except Fault Value :=
  match token with
  | .str s =>
    match c.decode? s with
    | some v => .ok v
    | none => .error (.malformedToken c.typeName s c.hint)
  | other => .error (.malformedToken c.typeName other.shown c.hint)

/-- Whether a token can be read. -/
def validates (c : Codec) (token : Value) : Bool := (c.deserialize token).toBool

end Codec

/-- Codecs under lower-case names, under tags, and under the kinds they are responsible for. -/
structure Registry where
  byName : List (String × Codec)
  byTag : List (String × Codec)
  byKind : List (Kind × Codec)

namespace Registry

def empty : Registry := ⟨[], [], []⟩

/-- Adds a pair unless the key is there. -/
def addFirst {α β : Type} [BEq α] (pairs : List (α × β)) (key : α) (value : β) : List (α × β) :=
  if (pairs.lookup key).isSome then pairs else pairs ++ [(key, value)]

/-- Adds a codec under its type name, further names, its tag, and the kinds that no codec is
responsible for yet. -/
def register (r : Registry) (c : Codec) (aliases : List String) : Except Fault Registry := do
  let names := c.typeName :: aliases
  match names.find? fun name => (r.byName.lookup (Text.lower name)).isSome with
  | some name => throw (.codecNameTaken name)
  | none => pure ()
  match r.byTag.lookup c.tag with
  | some owner => throw (.codecTagTaken c.tag owner.typeName)
  | none => pure ()
  return {
    byName := names.foldl (fun pairs name => addFirst pairs (Text.lower name) c) r.byName
    byTag := r.byTag ++ [(c.tag, c)]
    byKind := c.kinds.foldl (fun pairs k => addFirst pairs k c) r.byKind }

/-- The codec under a name, in any case. -/
def get? (r : Registry) (name : String) : Option Codec := r.byName.lookup (Text.lower name)

/-- The codec under a name, in any case. -/
def get (r : Registry) (name : String) : Except Fault Codec :=
  match r.get? name with
  | some c => .ok c
  | none => .error (.unknownCodec name)

/-- The codec with a tag. -/
def getByTag (r : Registry) (tag : String) : Except Fault Codec :=
  match r.byTag.lookup tag with
  | some c => .ok c
  | none => .error (.unknownCodec tag)

/-- The codec responsible for the kind of a value, the most specific kind first. -/
def forValue? (r : Registry) (v : Value) : Option Codec := v.kind.lineage.findSome? fun k => r.byKind.lookup k

/-- Texts in ascending order, each once. -/
def sorted (names : List String) : List String :=
  (names.mergeSort fun a b => !(decide (b < a))).eraseDups

/-- The type names of all codecs, in ascending order. -/
def names (r : Registry) : List String := sorted (r.byName.map fun (_, c) => c.typeName)

/-- The tags of all codecs, in ascending order. -/
def tags (r : Registry) : List String := sorted (r.byTag.map Prod.fst)

/-- The token of a value, by the codec responsible for its kind. -/
def serialize (r : Registry) (v : Value) : Except Fault String :=
  match r.forValue? v with
  | some c => c.serialize v
  | none => .error (.wrongValue "a registered data type" v.kind.typeName)

/-- Reads a token with the codec under a name. -/
def deserialize (r : Registry) (name : String) (token : Value) : Except Fault Value := do
  (← r.get name).deserialize token

/-- Whether a token can be read with the codec under a name. -/
def validates (r : Registry) (name : String) (token : Value) : Bool :=
  match r.get? name with
  | some c => c.validates token
  | none => false

/-- The codec whose tag a text begins with. -/
def codecOfToken? (r : Registry) (token : String) : Option Codec :=
  match Text.cut ':' token.toList with
  | (tag, some _) => r.byTag.lookup (String.ofList tag)
  | (_, none) => none

/-- Reads a token by its own tag. Whatever is no text, has no known tag or is malformed stays as it
is; the last is reported. -/
def tryDecode (r : Registry) (token : Value) : Logged (Bool × Value) :=
  match token with
  | .str s =>
    match r.codecOfToken? s with
    | none => pure (false, token)
    | some c =>
      match c.deserialize token with
      | .ok v => pure (true, v)
      | .error fault => do
        Logged.report ⟨"Codecs", .debug,
          [.words "Token with known prefix failed to decode: ", .cause fault]⟩
        return (false, token)
  | _ => pure (false, token)

end Registry

end Patchbay
