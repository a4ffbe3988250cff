import ExternalTable.Number.Power

/-!
# Binary floating-point formats

Finite binary floating-point numbers, decoded from their bits without any machine arithmetic.  A
number is a significand times a power of two.

* `BinaryFormat`: how many bits hold the fraction and the exponent; `single` and `double`;
* `isFinite`, `isNaN`, `isNegative`: what the bits say at once;
* `significand`, `place`: a finite number has magnitude `significand * 2 ^ place`;
* `same`: the equality of numbers, for which a NaN differs from itself and the two zeros agree;
* `widen`: the `double` with the value of a given `single`.
-/

namespace ExternalTable

/-- An interchange format: a sign bit, then the exponent bits, then the fraction bits. -/
structure BinaryFormat where
  fractionBits : Nat
  exponentBits : Nat
  deriving DecidableEq

namespace BinaryFormat

/-- The format of 32 bits. -/
def single : BinaryFormat := ⟨23, 8⟩

/-- The format of 64 bits. -/
def double : BinaryFormat := ⟨52, 11⟩

/-- The trailing bits of the significand. -/
def fraction (f : BinaryFormat) (bits : Nat) : Nat :=
  bits % twoPow f.fractionBits

/-- The exponent field as it is stored. -/
def exponent (f : BinaryFormat) (bits : Nat) : Nat :=
  bits / twoPow f.fractionBits % twoPow f.exponentBits

/-- The stored exponent of infinities and NaNs. -/
def topExponent (f : BinaryFormat) : Nat :=
  twoPow f.exponentBits - 1

/-- What is subtracted from a stored exponent. -/
def bias (f : BinaryFormat) : Nat :=
  twoPow (f.exponentBits - 1) - 1

/-- Whether the sign bit is set. -/
def isNegative (f : BinaryFormat) (bits : Nat) : Bool :=
  bits / twoPow (f.fractionBits + f.exponentBits) % 2 == 1

/-- Whether the bits stand for a number, neither an infinity nor a NaN. -/
def isFinite (f : BinaryFormat) (bits : Nat) : Bool :=
  f.exponent bits != f.topExponent

/-- Whether the bits stand for no number at all. -/
def isNaN (f : BinaryFormat) (bits : Nat) : Bool :=
  f.exponent bits == f.topExponent && f.fraction bits != 0

/-- Whether the bits are one of the two zeros. -/
def isZero (f : BinaryFormat) (bits : Nat) : Bool :=
  f.exponent bits == 0 && f.fraction bits == 0

/-- The significand as an integer; normal numbers have a leading bit that is not stored. -/
def significand (f : BinaryFormat) (bits : Nat) : Nat :=
  if f.exponent bits = 0 then f.fraction bits else f.fraction bits + twoPow f.fractionBits

/-- The exponent of the last place of the significand. -/
def place (f : BinaryFormat) (bits : Nat) : Int :=
  (max (f.exponent bits) 1 : Nat) - (f.bias + f.fractionBits : Nat)

/-- Whether the numbers just below lie half as far away as those above: so at a power of two that
is not the least normal number. -/
def isNarrowBelow (f : BinaryFormat) (bits : Nat) : Bool :=
  f.fraction bits == 0 && decide (1 < f.exponent bits)

/-- Equality of the numbers: a NaN equals nothing, and the two zeros are equal. -/
def same (f : BinaryFormat) (a b : Nat) : Bool :=
  !f.isNaN a && !f.isNaN b && (a == b || (f.isZero a && f.isZero b))

/-- The bits of a number from its sign, stored exponent and fraction. -/
def assemble (f : BinaryFormat) (negative : Bool) (exponent fraction : Nat) : Nat :=
  (if negative then twoPow (f.fractionBits + f.exponentBits) else 0)
    + exponent * twoPow f.fractionBits + fraction

end BinaryFormat

open BinaryFormat in
/-- The 64-bit number with the value of a 32-bit one.  Infinities and NaNs keep their kind, and
a number below the least normal one of 32 bits is normal in 64 bits. -/
def widen (bits : Nat) : Nat :=
  let negative := single.isNegative bits
  let fraction := single.fraction bits
  let exponent := single.exponent bits
  if exponent = single.topExponent then
    double.assemble negative double.topExponent
      (if fraction = 0 then 0 else fraction * twoPow 29 % twoPow 51 + twoPow 51)
  else if exponent ≠ 0 then
    double.assemble negative (exponent + (double.bias - single.bias)) (fraction * twoPow 29)
  else if fraction = 0 then
    double.assemble negative 0 0
  else
    let top := fraction.log2
    double.assemble negative (top + double.bias - (single.bias - 1 + single.fractionBits))
      ((fraction - twoPow top) * twoPow (52 - top))

end ExternalTable
