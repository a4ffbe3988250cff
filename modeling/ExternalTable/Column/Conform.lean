import ExternalTable.Column.Basic
import ExternalTable.Value

/-!
# Values in the type of their column

`Value.conform?` brings a fetched value into the representation of the column that receives it, or
tells that the column cannot hold it.  Null fits every column.
-/

namespace ExternalTable.Value

/-- The signed 64-bit integer of a natural number, if it is in range. -/
def int64? (n : Nat) : Option Value :=
  if n < twoPow 63 then some (.int (Int64.ofNat n)) else none

/-- The value as the given type holds it.  Integers become decimals of the column's scale, decimals
stay as they are, and calendar values become text. -/
def conform? : Value → DataType → Option Value
  | .null, _ => some .null
  | .int n, .int64 => some (.int n)
  | .bool b, .int64 => some (.int (if b then 1 else 0))
  | .uint n, .int64 => int64? n.toNat
  | .int n, .decimal128 _ scale => (Decimal.ofInt? n.toInt scale).map .decimal
  | .uint n, .decimal128 _ scale => (Decimal.ofInt? n.toNat scale).map .decimal
  | .decimal d, .decimal128 _ _ => some (.decimal d)
  | .text s, .utf8 => some (.text s)
  | .text s, .largeUtf8 => some (.text s)
  | .date d, .utf8 => some (.text (String.ofList d.chars))
  | .time t, .utf8 => some (.text (String.ofList t.chars))
  | .timestamp t, .utf8 => some (.text (String.ofList t.chars))
  | .binary bytes, .binary => some (.binary bytes)
  | .binary bytes, .largeBinary => some (.binary bytes)
  | .float32 bits, .float32 => some (.float32 bits)
  | .float32 bits, .float64 => some (.float64 (widen bits.toNat).toUInt64)
  | .float64 bits, .float64 => some (.float64 bits)
  | _, _ => none

end ExternalTable.Value
