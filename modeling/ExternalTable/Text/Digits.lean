/-!
# Decimal digits

Numbers written in base ten, most significant digit first.

* `Digits.ofNat`: the digits of a natural number, without superfluous zeros;
* `Digits.padded`: the same with zeros in front up to a given width;
* `Digits.ofInt`: a minus sign for negative numbers, then the digits of the magnitude;
* `Digits.value`: the number that a list of digits stands for.
-/

namespace ExternalTable.Digits

/-- The decimal digits of `n`, with no superfluous zero in front. -/
def ofNat (n : Nat) : List Char :=
  Nat.toDigits 10 n

/-- The decimal digits of `n`, with zeros in front where there are fewer than `width`. -/
def padded (width n : Nat) : List Char :=
  List.replicate (width - (ofNat n).length) '0' ++ ofNat n

/-- The decimal text of an integer: a minus sign exactly for negative numbers. -/
def ofInt (n : Int) : List Char :=
  if n < 0 then '-' :: ofNat n.natAbs else ofNat n.natAbs

/-- The number that decimal digits stand for, read from the most significant one. -/
def value (digits : List Char) : Nat :=
  Nat.ofDigitChars 10 digits 0

/-- Padding reaches the width that it is asked for. -/
theorem le_length_padded (width n : Nat) : width ≤ (padded width n).length := by
  simp only [padded, List.length_append, List.length_replicate]
  omega

/-- Reading the digits of a number gives it back. -/
theorem value_ofNat (n : Nat) : value (ofNat n) = n := by
  simp [value, ofNat]

/-- Zeros in front make no difference to the number. -/
theorem value_padded (width n : Nat) : value (padded width n) = n := by
  rw [value, padded, Nat.ofDigitChars_append, Nat.ofDigitChars_replicate_zero, Nat.mul_zero]
  exact value_ofNat n

end ExternalTable.Digits
