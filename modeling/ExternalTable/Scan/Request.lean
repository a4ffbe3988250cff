import ExternalTable.Json.Record
import ExternalTable.Value

/-!
# Scan requests

A request names the table, the projected columns, the accepted fragments, and the values of the
runtime parameters by number.  The host sends it as a JSON document in which every field is
optional.

* `Request`: what one scan needs;
* `RequestError`: why a document is no request;
* `Json.value?`: the parameter of a JSON value, where objects have none;
* `Request.ofJson`: reading a request.
-/

namespace ExternalTable

mutual

/-- The value of a JSON document.  Arrays become lists; objects have no value, nor have arrays that
contain one. -/
def Json.value? : Json → Option Value
  | .null => some .null
  | .bool b => some (.bool b)
  | .int n => some (.int n)
  | .uint n => some (.uint n)
  | .float bits => some (.float64 bits)
  | .text s => some (.text s)
  | .array items => (Json.values? items).map .list
  | .object _ => none

/-- The values of several documents, if each has one. -/
def Json.values? : List Json → Option (List Value)
  | [] => some []
  | item :: rest =>
      match Json.value? item with
      | none => none
      | some v => (Json.values? rest).map (v :: ·)

end

namespace Scan

/-- What one scan needs.  No columns at all stand for a constant projection. -/
structure Request where
  table : String
  columns : List String
  filters : List String
  params : List Value

/-- Why a document is no request. -/
inductive RequestError where
  | unreadable
  | unsupportedValue (index : Nat)
  deriving DecidableEq

namespace RequestError

/-- The stable name of the kind of an error. -/
def kind : RequestError → String
  | .unreadable => "parse"
  | .unsupportedValue _ => "unsupported_value"

/-- The message of an error. -/
def message : RequestError → String
  | .unreadable => "failed to parse scan parameters: not a request document"
  | .unsupportedValue index => s!"question mark value {index} is not a scalar or list"

end RequestError

namespace Request

/-- The request for a table alone. -/
def ofTable (table : String) : Request := ⟨table, [], [], []⟩

/-- The names of the fields, in the order of their declaration. -/
def fieldNames : List String := ["table", "columns", "filters", "question_mark_values"]

/-- The parameters of a list of documents.  Indices count on from the given one. -/
def parameters (index : Nat) : List Json → Except RequestError (List Value)
  | [] => .ok []
  | item :: rest =>
      match item.value? with
      | none => .error (.unsupportedValue index)
      | some v => (parameters (index + 1) rest).map (v :: ·)

/-- The fields of a document: the table, the columns, the filters, and the parameters as
documents. -/
def fields? (document : List Char) :
    Option (String × List String × List String × List Json) :=
  match Json.Raw.read? document with
  | none => none
  | some raw =>
      match Json.Record.fields? fieldNames false raw with
      | some [table, columns, filters, values] => do
          let table ← Json.Record.withDefault? Json.Record.text? "" table
          let columns ← Json.Record.withDefault? Json.Record.texts? [] columns
          let filters ← Json.Record.withDefault? Json.Record.texts? [] filters
          let values ← Json.Record.withDefault? Json.Record.documents? [] values
          return (table, columns, filters, values)
      | _ => none

/-- The request of a JSON document. -/
def ofJson (document : String) : Except RequestError Request :=
  match fields? document.toList with
  | none => .error .unreadable
  | some (table, columns, filters, values) =>
      match parameters 0 values with
      | .error e => .error e
      | .ok values => .ok ⟨table, columns, filters, values⟩

end Request

end Scan

end ExternalTable
