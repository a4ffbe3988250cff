import ExternalTable.Column.Conform
import ExternalTable.Remote.Basic

/-!
# Batches

Rows reach the host as batches of columns that share the schema of their scan.

* `Field`, `schemaOf`: the columns of the host, fixed when a scan opens;
* `Batch`: a block of rows, column by column; `Batch.row?`, `Batch.column?`, `Batch.byteLength`;
* `conformRow`: one row with each value in the type of its field;
* `transpose`: rows turned into columns;
* `Batch.ofRows`: the batch of fetched rows, or the first that does not fit the schema.
-/

namespace ExternalTable.Scan

/-- A column as the host receives it. -/
structure Field where
  name : String
  type : DataType
  nullable : Bool
  deriving DecidableEq

/-- What can be wrong with a result, by its columns or its rows. -/
inductive SchemaError where
  | unsupportedColumn (name : String) (type : ColumnType)
  | rowWidth (expected found : Nat)
  | conversion (column : String) (kind : Value.Kind) (type : DataType)
  deriving DecidableEq

/-- The message of an error. -/
def SchemaError.message : SchemaError → String
  | .unsupportedColumn name type => s!"column '{name}' has unsupported remote type {type.name}"
  | .rowWidth expected found => s!"row has {found} values, schema has {expected} columns"
  | .conversion column kind type =>
      s!"column '{column}' cannot hold a {kind.label} value as {type.name}"

/-- The field that receives a column. -/
def fieldOf (c : Column) : Except SchemaError Field :=
  match c.outputType? with
  | some type => .ok ⟨c.name, type, c.nullable⟩
  | none => .error (.unsupportedColumn c.name c.type)

/-- The fields that receive the columns of a result, or the first column without one. -/
def schemaOf (columns : List Column) : Except SchemaError (List Field) :=
  columns.mapM fieldOf

/-- A block of rows, column by column. -/
structure Batch where
  schema : List Field
  columns : List (List Value)
  rowCount : Nat

namespace Batch

/-- A column of a batch. -/
def column? (b : Batch) (index : Nat) : Option (List Value) :=
  b.columns[index]?

/-- A row of a batch. -/
def row? (b : Batch) (index : Nat) : Option Row :=
  if index < b.rowCount then b.columns.mapM fun column => column[index]? else none

/-- The payload size of a batch. -/
def byteLength (b : Batch) : Nat :=
  b.columns.foldr (fun column total => Value.byteLengthAll column + total) 0

end Batch

/-- The value of a field. -/
def conformValue (field : Field) (v : Value) : Except SchemaError Value :=
  match v.conform? field.type with
  | some w => .ok w
  | none => .error (.conversion field.name v.kind field.type)

/-- The values of the fields of one row, or the first that does not conform. -/
def conformValues : List Field → Row → Except SchemaError Row
  | field :: fields, v :: vs =>
      match conformValue field v with
      | .error e => .error e
      | .ok w => (conformValues fields vs).map (w :: ·)
  | _, _ => .ok []

/-- A row with each value in the type of its field.  A row of another width than the schema is
refused before its values are looked at. -/
def conformRow (schema : List Field) (row : Row) : Except SchemaError Row :=
  if row.length = schema.length then
    conformValues schema row
  else
    .error (.rowWidth schema.length row.length)

/-- Rows of a given width turned into columns. -/
def transpose (width : Nat) (rows : List Row) : List (List Value) :=
  rows.foldr (List.zipWith (· :: ·)) (List.replicate width [])

/-- The batch of fetched rows, or the first error, row by row. -/
def Batch.ofRows (schema : List Field) (rows : List Row) : Except SchemaError Batch :=
  (rows.mapM (conformRow schema)).map fun conformed =>
    ⟨schema, transpose schema.length conformed, rows.length⟩

end ExternalTable.Scan
