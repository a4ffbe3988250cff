import ExternalTable.NodeStream.Basic

/-!
# Decoding node streams

A machine reads a stream one entry at a time.  It holds the trees of the entries since the last
sentinel, and the number of entries read.

* `DecodeError`: what can be wrong with an entry or with the end of a stream;
* `Decoder`: the state of the machine, `Decoder.push` its step, `Decoder.finish` its end;
* `decode`: the filters of a complete stream, or the first error.

An entry that is refused leaves the trees as they were, except that a sentinel always ends the
current filter.
-/

namespace ExternalTable.NodeStream

/-- What is wrong with a stream.  Positions count the entries of the whole stream from zero. -/
inductive DecodeError where
  | unknownTag (position : Nat) (tag : String)
  | payloadMismatch (position : Nat) (tag expected found : String)
  | columnNameNotText (position : Nat) (found : Value.Kind)
  | negativePlaceholderIndex (position : Nat) (index : Int64)
  | childIndexOutOfRange (position : Nat) (index : Int32) (available : Nat)
  | arityBelowMinimum (position : Nat) (op : Operator) (found : Nat)
  | emptyFilter (position : Nat)
  | rootNotPredicate (position : Nat) (label : String)
  | unterminated (pending : Nat)
  deriving DecidableEq

namespace DecodeError

/-- The stable name of the kind of an error. -/
def kind : DecodeError → String
  | .unknownTag .. => "unknown_tag"
  | .payloadMismatch .. | .columnNameNotText .. => "payload_mismatch"
  | .negativePlaceholderIndex .. | .childIndexOutOfRange .. => "index_out_of_range"
  | .arityBelowMinimum .. => "arity"
  | .emptyFilter .. | .rootNotPredicate .. => "malformed_filter"
  | .unterminated .. => "unterminated"

/-- The message of an error. -/
def message : DecodeError → String
  | .unknownTag position tag => s!"node {position}: unknown wire tag '{tag}'"
  | .payloadMismatch position tag expected found =>
      s!"node {position}: tag '{tag}' expects a {expected} payload, found {found}"
  | .columnNameNotText position found =>
      s!"node {position}: column reference must be text, found {found.label}"
  | .negativePlaceholderIndex position index =>
      s!"node {position}: placeholder index {index.toInt} is negative"
  | .childIndexOutOfRange position index available =>
      s!"node {position}: child index {index.toInt} out of range for {available} decoded nodes"
  | .arityBelowMinimum position op found =>
      s!"node {position}: '{op.tag}' needs at least {op.minArity} children, found {found}"
  | .emptyFilter position => s!"node {position}: end of filter with no decoded nodes"
  | .rootNotPredicate position label =>
      s!"node {position}: filter root must be a predicate, found {label}"
  | .unterminated pending =>
      s!"stream ended with {pending} nodes outside a terminated filter"

end DecodeError

/-- The state of the machine: the trees of the current filter's entries in order, and the number of
entries read so far. -/
structure Decoder where
  nodes : List Node
  position : Nat

namespace Decoder

/-- The machine before the first entry. -/
def start : Decoder := ⟨[], 0⟩

/-- The tree at a position of the current filter. -/
def child (d : Decoder) (index : Int32) : Except DecodeError Node :=
  let outOfRange := DecodeError.childIndexOutOfRange d.position index d.nodes.length
  if index < 0 then
    .error outOfRange
  else
    match d.nodes[index.toInt.toNat]? with
    | some n => .ok n
    | none => .error outOfRange

/-- The tree of an entry that is no sentinel. -/
def node (d : Decoder) (tag : Tag) (entry : Entry) : Except DecodeError Node :=
  match tag, entry.payload with
  | .null, _ => .ok (.constant .null)
  | .columnRef, .scalar value =>
      match value.text? with
      | some name => .ok (.column name)
      | none => .error (.columnNameNotText d.position value.kind)
  | .constValue, .scalar value => .ok (.constant value)
  | .placeholder, .placeholder type index =>
      if index < 0 then
        .error (.negativePlaceholderIndex d.position index)
      else
        .ok (.placeholder type index.toInt.toNat.toUInt64)
  | .operator op, .indices positions =>
      if positions.length < op.minArity then
        .error (.arityBelowMinimum d.position op positions.length)
      else
        (positions.mapM d.child).map (.predicate op)
  | tag, payload =>
      .error (.payloadMismatch d.position entry.tag tag.payloadShape payload.shape)

/-- The filter that a sentinel ends: the last tree, which has to be a predicate. -/
def close (d : Decoder) : Except DecodeError Filter :=
  match d.nodes.getLast? with
  | none => .error (.emptyFilter d.position)
  | some root =>
      match Filter.ofNode root with
      | .ok filter => .ok filter
      | .error e => .error (.rootNotPredicate d.position e.label)

/-- Reads one entry.  The answer is a filter where the entry ends one. -/
def push (d : Decoder) (entry : Entry) : Decoder × Except DecodeError (Option Filter) :=
  match Tag.ofText? entry.tag with
  | none => (⟨d.nodes, d.position + 1⟩, .error (.unknownTag d.position entry.tag))
  | some .endOfFilter => (⟨[], d.position + 1⟩, d.close.map some)
  | some tag =>
      match d.node tag entry with
      | .ok n => (⟨d.nodes ++ [n], d.position + 1⟩, .ok none)
      | .error e => (⟨d.nodes, d.position + 1⟩, .error e)

/-- Ends the stream, which is an error within a filter. -/
def finish (d : Decoder) : Except DecodeError Unit :=
  if d.nodes.isEmpty then .ok () else .error (.unterminated d.nodes.length)

/-- Reads the rest of a stream and ends it, up to the first error. -/
def run (d : Decoder) : List Entry → Except DecodeError (List Filter)
  | [] => d.finish.map fun _ => []
  | entry :: rest =>
      match d.push entry with
      | (_, .error e) => .error e
      | (d, .ok none) => d.run rest
      | (d, .ok (some filter)) => (d.run rest).map (filter :: ·)

end Decoder

/-- The filters of a complete stream, in order. -/
def decode (entries : List Entry) : Except DecodeError (List Filter) :=
  Decoder.start.run entries

end ExternalTable.NodeStream
