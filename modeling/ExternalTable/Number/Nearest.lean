import ExternalTable.Number.Binary

/-!
# The binary number nearest to a decimal one

* `roundHalfEven`: a quotient rounded to the nearest natural number, halves to the even one;
* `nearestDouble?`: the bits of the 64-bit number nearest to a natural number times a power of ten,
  unless that is beyond every finite number.
-/

namespace ExternalTable

/-- The natural number nearest to `num / den`; a half goes to the even neighbour. -/
def roundHalfEven (num den : Nat) : Nat :=
  let below := num / den
  let rest := 2 * (num % den)
  if rest < den then below
  else if den < rest then below + 1
  else if below % 2 = 0 then below else below + 1

/-- The quotient `num / den / 2 ^ place` as a fraction of natural numbers. -/
def atPlace (num den : Nat) (place : Int) : Nat × Nat :=
  if 0 ≤ place then (num, den * twoPow place.toNat) else (num * twoPow (-place).toNat, den)

/-- The place whose multiples of `2 ^ place` carry 53 significant bits at `num / den`, or the last
place of the format where that is higher. -/
def doublePlace (num den : Nat) : Int :=
  let guess : Int := (num.log2 : Int) - den.log2 - 53
  let (n, d) := atPlace num den guess
  max (if n / d < twoPow 53 then guess else guess + 1) (-1074)

/-- The bits of the positive 64-bit number nearest to `num / den`, without regard to overflow. -/
def doubleOfQuotient (num den : Nat) : Nat :=
  let place := doublePlace num den
  let (n, d) := atPlace num den place
  let rounded := roundHalfEven n d
  if rounded < twoPow 52 then
    rounded
  else
    (place + 1075).toNat * twoPow 52 + (rounded - twoPow 52)

/-- The bits of the 64-bit number nearest to `digits * 10 ^ exponent`; none where it would be an
infinity.  `width` is a number of decimal digits that `digits` does not exceed; it settles numbers
far out of range without computing their powers of ten. -/
def nearestDouble? (digits width : Nat) (exponent : Int) : Option Nat :=
  if digits = 0 then
    some 0
  else if exponent + width < -400 then
    some 0
  else if 400 < exponent then
    none
  else
    let bits :=
      if 0 ≤ exponent then
        doubleOfQuotient (digits * tenPow exponent.toNat) 1
      else
        doubleOfQuotient digits (tenPow (-exponent).toNat)
    if bits < BinaryFormat.double.topExponent * twoPow 52 then some bits else none

end ExternalTable
