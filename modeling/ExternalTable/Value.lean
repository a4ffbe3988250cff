import ExternalTable.Calendar
import ExternalTable.Number.Binary
import ExternalTable.Number.Decimal

/-!
# Values

The dynamically typed scalars that constants, parameters and fetched rows carry.

* `Value`: null, truth values, numbers of several kinds, text, bytes, calendar values, and lists,
  which only occur in rows;
* `Value.Kind`: which of these a value is, with the label that messages use;
* `Value.same`: equality, under which floating-point numbers compare as numbers;
* `Value.byteLength`: the payload size that a scan accounts for.
-/

namespace ExternalTable

/-- A scalar, or a list of values.  Floating-point numbers are given by their bits. -/
inductive Value where
  | null
  | bool (b : Bool)
  | int (n : Int64)
  | uint (n : UInt64)
  | float32 (bits : UInt32)
  | float64 (bits : UInt64)
  | decimal (d : Decimal)
  | text (s : String)
  | binary (bytes : List UInt8)
  | date (d : Date)
  | time (t : TimeOfDay)
  | timestamp (t : Timestamp)
  | list (items : List Value)

namespace Value

/-- The kinds of values. -/
inductive Kind where
  | null
  | bool
  | int
  | uint
  | float32
  | float64
  | decimal
  | text
  | binary
  | date
  | time
  | timestamp
  | list
  deriving DecidableEq

/-- The name of a kind in messages. -/
def Kind.label : Kind → String
  | .null => "Null"
  | .bool => "Bool"
  | .int => "Int"
  | .uint => "Uint"
  | .float32 => "Float32"
  | .float64 => "Float64"
  | .decimal => "Decimal"
  | .text => "Text"
  | .binary => "Binary"
  | .date => "Date"
  | .time => "Time"
  | .timestamp => "Timestamp"
  | .list => "List"

/-- The kind of a value. -/
def kind : Value → Kind
  | .null => .null
  | .bool _ => .bool
  | .int _ => .int
  | .uint _ => .uint
  | .float32 _ => .float32
  | .float64 _ => .float64
  | .decimal _ => .decimal
  | .text _ => .text
  | .binary _ => .binary
  | .date _ => .date
  | .time _ => .time
  | .timestamp _ => .timestamp
  | .list _ => .list

/-- Whether a value is null. -/
def isNull (v : Value) : Bool :=
  v.kind == .null

/-- The text of a text value. -/
def text? : Value → Option String
  | .text s => some s
  | _ => none

mutual

/-- Equality of values.  Values of different kinds differ, decimals differ by their scale alone, and
floating-point numbers compare as numbers. -/
def same : Value → Value → Bool
  | .null, .null => true
  | .bool a, .bool b => a == b
  | .int a, .int b => a == b
  | .uint a, .uint b => a == b
  | .float32 a, .float32 b => BinaryFormat.single.same a.toNat b.toNat
  | .float64 a, .float64 b => BinaryFormat.double.same a.toNat b.toNat
  | .decimal a, .decimal b => a == b
  | .text a, .text b => a == b
  | .binary a, .binary b => a == b
  | .date a, .date b => a == b
  | .time a, .time b => a == b
  | .timestamp a, .timestamp b => a == b
  | .list as, .list bs => sameAll as bs
  | _, _ => false

/-- Equality of lists of values, item by item. -/
def sameAll : List Value → List Value → Bool
  | [], [] => true
  | a :: as, b :: bs => same a b && sameAll as bs
  | _, _ => false

end

mutual

/-- The payload size in bytes: text counts its encoded bytes, and a list the sum of its items. -/
def byteLength : Value → Nat
  | .null => 0
  | .bool _ => 1
  | .float32 _ | .date _ => 4
  | .float64 _ | .int _ | .uint _ | .time _ | .timestamp _ => 8
  | .decimal _ => 16
  | .text s => s.utf8ByteSize
  | .binary bytes => bytes.length
  | .list items => byteLengthAll items

/-- The payload size of a list of values. -/
def byteLengthAll : List Value → Nat
  | [] => 0
  | v :: vs => byteLength v + byteLengthAll vs

end

end Value

end ExternalTable
