import ExternalTable.Filter.Basic

/-!
# Node streams

The host sends filters as a flat stream of tagged entries.  Operators refer to their children by the
position of earlier entries of the same filter, and a sentinel ends each filter.

* `Payload`, `Entry`: one entry and the single thing that it carries;
* `Tag`: what a tag means, and `Tag.ofText?` its reading;
* `Entry.column` and the like: the entries of each kind.
-/

namespace ExternalTable.NodeStream

/-- What an entry carries. -/
inductive Payload where
  | empty
  /-- Positions of children among the entries of the current filter. -/
  | indices (positions : List Int32)
  /-- The declared type of a runtime parameter and its number. -/
  | placeholder (type : DataType) (index : Int64)
  | scalar (value : Value)

/-- What a payload is called in messages. -/
def Payload.shape : Payload → String
  | .empty => "empty"
  | .indices _ => "index list"
  | .placeholder _ _ => "placeholder pair"
  | .scalar _ => "scalar"

/-- One entry of a stream. -/
structure Entry where
  tag : String
  payload : Payload

/-- The meaning of a tag. -/
inductive Tag where
  | columnRef
  | constValue
  | endOfFilter
  | null
  | operator (op : Operator)
  | placeholder
  deriving DecidableEq

namespace Tag

/-- The text of a tag. -/
def text : Tag → String
  | .columnRef => "column_ref"
  | .constValue => "const_value"
  | .endOfFilter => "filter"
  | .null => "null"
  | .operator op => op.tag
  | .placeholder => "question_mark"

/-- The tags that are no operators. -/
def plain : List Tag :=
  [.columnRef, .constValue, .placeholder, .null, .endOfFilter]

/-- The meaning of a text, if it is in the vocabulary. -/
def ofText? (text : String) : Option Tag :=
  (plain.find? fun t => t.text == text) <|> (Operator.ofTag? text).map .operator

/-- The shape of payload that a tag goes with. -/
def payloadShape : Tag → String
  | .columnRef | .constValue => "scalar"
  | .placeholder => "placeholder pair"
  | .operator _ => "index list"
  | .null | .endOfFilter => "empty"

end Tag

namespace Entry

/-- A column reference. -/
def column (name : String) : Entry :=
  ⟨Tag.columnRef.text, .scalar (.text name)⟩

/-- A constant. -/
def constant (value : Value) : Entry :=
  ⟨Tag.constValue.text, .scalar value⟩

/-- A null constant. -/
def null : Entry :=
  ⟨Tag.null.text, .empty⟩

/-- A runtime parameter. -/
def placeholder (type : DataType) (index : Int64) : Entry :=
  ⟨Tag.placeholder.text, .placeholder type index⟩

/-- An operator over earlier entries. -/
def operator (op : Operator) (positions : List Int32) : Entry :=
  ⟨op.tag, .indices positions⟩

/-- The sentinel. -/
def endOfFilter : Entry :=
  ⟨Tag.endOfFilter.text, .empty⟩

end Entry

end ExternalTable.NodeStream
