import ExternalTable.Json.Basic

/-!
# Records in JSON

A record is a document with a fixed list of named fields.  It is written as an object, in which
other members are skipped, or as an array of the fields in order.

* `Record.fields?`: the content of each field, where a field may be missing;
* `Record.text?` and the like: the content of a field, by the type that it should have.
-/

namespace ExternalTable.Json.Record

/-- How deep the arrays and objects of a document may nest, the document included.  Members that are
skipped are not bound by it. -/
def maxNesting : Nat := 127

/-- The members of an object that belong to a field.  Every key has to be text. -/
def membersOf? (field : String) : List (List Piece × Raw) → Option (List Raw)
  | [] => some []
  | (key, content) :: rest =>
      match text? key with
      | none => none
      | some name =>
          (membersOf? field rest).map fun found => if name = field then content :: found else found

/-- The content of a field in an object, where it may be missing but not stand twice. -/
def member? (members : List (List Piece × Raw)) (field : String) : Option (Option Raw) :=
  match membersOf? field members with
  | some [] => some none
  | some [content] => some (some content)
  | _ => none

/-- The contents of the named fields, in order.  An array has no more items than there are fields;
if `complete` holds it has one for each. -/
def fields? (names : List String) (complete : Bool) : Raw → Option (List (Option Raw))
  | .object members => names.mapM (member? members)
  | .array items =>
      if names.length < items.length ∨ (complete ∧ items.length < names.length) then
        none
      else
        some (items.map some ++ List.replicate (names.length - items.length) none)
  | _ => none

/-- A field that holds a text. -/
def text? : Raw → Option String
  | .text pieces => Json.text? pieces
  | _ => none

/-- A field that holds a text, or null for none. -/
def optionalText? : Raw → Option (Option String)
  | .null => some none
  | content => (text? content).map some

/-- A field that holds a list of texts. -/
def texts? : Raw → Option (List String)
  | .array items => items.mapM text?
  | _ => none

/-- A field that holds a list of any documents. -/
def documents? (content : Raw) : Option (List Json) :=
  match content.json? (maxNesting - 1) with
  | some (.array items) => some items
  | _ => none

/-- A field with a default for where it is missing. -/
def withDefault? {α : Type} (read : Raw → Option α) (missing : α) : Option Raw → Option α
  | none => some missing
  | some content => read content

end ExternalTable.Json.Record
