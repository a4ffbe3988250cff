import ExternalTable.Dialect
import ExternalTable.Number.Shortest
import ExternalTable.Value

/-!
# Literals

The spelling of a value in SQL.  Numbers are written in plain digits without exponent or grouping,
text in single quotes.  Values whose spelling differs between remote sources have none.

* `LiteralError`: why a value has no literal;
* `Value.literal`: the literal of a value in a dialect.
-/

namespace ExternalTable

/-- Why a value has no literal. -/
inductive LiteralError where
  | unsupported (kind : Value.Kind)
  | nonFinite
  deriving DecidableEq

/-- The stable name of the kind of an error. -/
def LiteralError.kind : LiteralError → String
  | .unsupported _ => "unsupported"
  | .nonFinite => "non_finite"

/-- The message of a value without a literal. -/
def LiteralError.message : LiteralError → String
  | .unsupported kind => kind.label ++ " values have no portable SQL literal form"
  | .nonFinite => "non-finite float has no SQL literal form"

/-- The literal of a floating-point number, if it is finite. -/
def floatLiteral (f : BinaryFormat) (bits : Nat) : Except LiteralError Sql :=
  if f.isFinite bits then .ok (floatChars f bits) else .error .nonFinite

/-- The literal of a value. -/
def Value.literal (d : Dialect) : Value → Except LiteralError Sql
  | .null => .ok "NULL".toList
  | .bool true => .ok "TRUE".toList
  | .bool false => .ok "FALSE".toList
  | .int n => .ok (Digits.ofInt n.toInt)
  | .uint n => .ok (Digits.ofNat n.toNat)
  | .decimal n => .ok n.chars
  | .float32 bits => floatLiteral .single bits.toNat
  | .float64 bits => floatLiteral .double bits.toNat
  | .text s => .ok (d.textLiteral s.toList)
  | .binary bytes => .error (.unsupported (Value.binary bytes).kind)
  | .date day => .error (.unsupported (Value.date day).kind)
  | .time t => .error (.unsupported (Value.time t).kind)
  | .timestamp t => .error (.unsupported (Value.timestamp t).kind)
  | .list items => .error (.unsupported (Value.list items).kind)

end ExternalTable
