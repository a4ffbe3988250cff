import ExternalTable.Text.Digits

/-!
# Columns and their types

* `DataType`: the types that the host declares for placeholders and receives in batches;
* `ColumnType`: the types under which a remote source describes its result columns;
* `Column`: one column of a remote result;
* `Column.outputType?`: the type in which the host receives a column, where there is one;
* `rowsPerBatch`: how many rows are fetched at a time.
-/

namespace ExternalTable

/-- The types of the host's columnar data. -/
inductive DataType where
  | binary
  | bool
  | date32
  | decimal128 (precision : Nat) (scale : Int)
  | float32
  | float64
  | int8
  | int16
  | int32
  | int64
  | largeBinary
  | largeUtf8
  | null
  | time64
  | timestamp
  | uint8
  | uint16
  | uint32
  | uint64
  | utf8
  deriving DecidableEq

namespace DataType

/-- The types that take no parameters. -/
def plain : List DataType :=
  [.binary, .bool, .date32, .float32, .float64, .int8, .int16, .int32, .int64, .largeBinary,
    .largeUtf8, .null, .time64, .timestamp, .uint8, .uint16, .uint32, .uint64, .utf8]

/-- The name of a type, with its parameters in parentheses. -/
def name : DataType → String
  | .binary => "Binary"
  | .bool => "Bool"
  | .date32 => "Date32"
  | .decimal128 precision scale =>
      "Decimal128(" ++ String.ofList (Digits.ofNat precision) ++ ", "
        ++ String.ofList (Digits.ofInt scale) ++ ")"
  | .float32 => "Float32"
  | .float64 => "Float64"
  | .int8 => "Int8"
  | .int16 => "Int16"
  | .int32 => "Int32"
  | .int64 => "Int64"
  | .largeBinary => "LargeBinary"
  | .largeUtf8 => "LargeUtf8"
  | .null => "Null"
  | .time64 => "Time64"
  | .timestamp => "Timestamp"
  | .uint8 => "UInt8"
  | .uint16 => "UInt16"
  | .uint32 => "UInt32"
  | .uint64 => "UInt64"
  | .utf8 => "Utf8"

/-- The type of a given name, among those without parameters. -/
def ofName? (name : String) : Option DataType :=
  plain.find? fun t => t.name == name

/-- Whether values of the type have a literal that reads the same in every dialect.  Bytes and
calendar values have none. -/
def hasLiteral : DataType → Bool
  | .binary | .largeBinary | .date32 | .time64 | .timestamp => false
  | _ => true

end DataType

/-- The types of remote result columns. -/
inductive ColumnType where
  | array
  | bigInt
  | binary
  | bit
  | blob
  | boolean
  | char
  | clob
  | date
  | decimal
  | double
  | float
  | integer
  | longNVarChar
  | longVarBinary
  | longVarChar
  | nChar
  | nClob
  | nVarChar
  | null
  | numeric
  | other
  | real
  | smallInt
  | time
  | timestamp
  | tinyInt
  | varBinary
  | varChar
  deriving DecidableEq

namespace ColumnType

/-- Every column type. -/
def all : List ColumnType :=
  [.array, .bigInt, .binary, .bit, .blob, .boolean, .char, .clob, .date, .decimal, .double, .float,
    .integer, .longNVarChar, .longVarBinary, .longVarChar, .nChar, .nClob, .nVarChar, .null,
    .numeric, .other, .real, .smallInt, .time, .timestamp, .tinyInt, .varBinary, .varChar]

/-- The name of a column type. -/
def name : ColumnType → String
  | .array => "Array"
  | .bigInt => "BigInt"
  | .binary => "Binary"
  | .bit => "Bit"
  | .blob => "Blob"
  | .boolean => "Boolean"
  | .char => "Char"
  | .clob => "Clob"
  | .date => "Date"
  | .decimal => "Decimal"
  | .double => "Double"
  | .float => "Float"
  | .integer => "Integer"
  | .longNVarChar => "LongNVarChar"
  | .longVarBinary => "LongVarBinary"
  | .longVarChar => "LongVarChar"
  | .nChar => "NChar"
  | .nClob => "NClob"
  | .nVarChar => "NVarChar"
  | .null => "Null"
  | .numeric => "Numeric"
  | .other => "Other"
  | .real => "Real"
  | .smallInt => "SmallInt"
  | .time => "Time"
  | .timestamp => "Timestamp"
  | .tinyInt => "TinyInt"
  | .varBinary => "VarBinary"
  | .varChar => "VarChar"

/-- The column type of a given name. -/
def ofName? (name : String) : Option ColumnType :=
  all.find? fun t => t.name == name

/-- Whether one value of the type may be of any size. -/
def isLargeObject : ColumnType → Bool
  | .longNVarChar | .longVarChar | .longVarBinary | .blob | .clob | .nClob => true
  | _ => false

end ColumnType

/-- One column of a remote result. -/
structure Column where
  name : String
  type : ColumnType
  precision : Nat
  scale : Int
  nullable : Bool
  deriving DecidableEq

/-- The precision of 64-bit integers where the remote source reports none.  Twenty digits hold every
unsigned one. -/
def bigIntPrecision : Nat := 20

/-- The type in which the host receives a column.  Small integers and truth values widen to 64 bits,
64-bit integers become decimals so that unsigned ones fit, and calendar values travel as text.
Arrays and unknown types are not supported. -/
def Column.outputType? (c : Column) : Option DataType :=
  match c.type with
  | .boolean | .bit | .tinyInt | .smallInt | .integer => some .int64
  | .bigInt =>
      some (.decimal128 (if c.precision = 0 then bigIntPrecision else c.precision) c.scale)
  | .decimal | .numeric => some (.decimal128 c.precision c.scale)
  | .date | .time | .timestamp | .char | .nChar | .varChar | .nVarChar | .longVarChar
  | .longNVarChar | .clob | .nClob => some .utf8
  | .binary | .varBinary | .longVarBinary | .blob => some .binary
  | .real => some .float32
  | .float | .double => some .float64
  | .null => some .null
  | .array | .other => none

/-- How many rows make a full batch: one if a column holds large objects, and 256 otherwise. -/
def rowsPerBatch (columns : List Column) : Nat :=
  if columns.any fun c => c.type.isLargeObject then 1 else 256

end ExternalTable
