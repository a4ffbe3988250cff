import ExternalTable.Number.Power
import ExternalTable.Text.Digits

/-!
# Fixed-point decimals

A decimal is an integer and a scale, and stands for `unscaled / 10 ^ scale`.

* `Decimal`: the two numbers;
* `Decimal.magnitude`: the digits of a natural number with a point before the last `scale` of them;
* `Decimal.chars`: the plain text, which never has an exponent or grouping.
-/

namespace ExternalTable

/-- The number `unscaled / 10 ^ scale`.  Two decimals of one value and different scales differ. -/
structure Decimal where
  unscaled : Int
  scale : Nat
  deriving DecidableEq

namespace Decimal

/-- The digits of `n` with a point before the last `scale` of them, and at least one digit before
the point.  With scale zero there is no point. -/
def magnitude (n scale : Nat) : List Char :=
  if scale = 0 then
    Digits.ofNat n
  else
    let digits := Digits.padded (scale + 1) n
    digits.take (digits.length - scale) ++ '.' :: digits.drop (digits.length - scale)

/-- The plain text of a decimal. -/
def chars (d : Decimal) : List Char :=
  if d.unscaled < 0 then
    '-' :: magnitude d.unscaled.natAbs d.scale
  else
    magnitude d.unscaled.natAbs d.scale

/-- The integers that fit 128 bits with a sign. -/
def inRange (n : Int) : Bool :=
  decide (-Int.ofNat (twoPow 127) ≤ n ∧ n < Int.ofNat (twoPow 127))

/-- An integer brought to a given scale, where the scale is not negative and both the power of ten
and the product fit 128 bits. -/
def ofInt? (n scale : Int) : Option Decimal :=
  let factor := Int.ofNat (tenPow scale.toNat)
  if 0 ≤ scale ∧ inRange factor ∧ inRange (n * factor) then
    some ⟨n * factor, scale.toNat⟩
  else
    none

end Decimal

end ExternalTable
