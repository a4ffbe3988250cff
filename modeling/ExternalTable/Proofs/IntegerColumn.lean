import Mathlib.Tactic.NormNum
import ExternalTable.Scan.Batch

/-!
# Integers in columns

An integer that was fetched is received as it is, or not at all: in a decimal column as the integer
followed by as many zeros as the scale says, in a column of integers as itself.  It is refused where
the result does not fit, and only there.

* `Value.integer?`: the integer that a signed or an unsigned value stands for;
* `Decimal.inRange_ten_pow_iff`: the powers of ten that fit 128 bits;
* `Decimal.ofInt?_eq`, `Value.exists_conform?_int64`: the results, by the limits alone;
* `Decimal.word`, `Decimal.toInt_word_of_ofInt?`: no word of 128 bits wraps around on the way;
* `integers_conform_exactly`: the main statement.
-/

namespace ExternalTable

/-- The integer of a signed or an unsigned value. -/
def Value.integer? : Value → Option Int
  | .int n => some n.toInt
  | .uint n => some n.toNat
  | _ => none

/-! ### Limits -/

theorem twoPow_cast (k : Nat) : ((twoPow k : Nat) : Int) = 2 ^ k :=
  Nat.cast_pow 2 k

theorem tenPow_cast (k : Nat) : ((tenPow k : Nat) : Int) = 10 ^ k :=
  Nat.cast_pow 10 k

namespace Decimal

theorem inRange_iff {n : Int} : inRange n = true ↔ -2 ^ 127 ≤ n ∧ n < 2 ^ 127 := by
  rw [inRange, decide_eq_true_iff, Int.ofNat_eq_natCast, twoPow_cast]

/-- Thirty-eight is the greatest scale with a power of ten within 128 bits. -/
theorem inRange_ten_pow_iff (k : Nat) : inRange (10 ^ k) = true ↔ k ≤ 38 := by
  rw [inRange_iff]
  constructor
  -- The greatest integer lies between the powers of ten with 38 and with 39 zeros.
  · rintro ⟨-, hlt⟩
    by_contra hk
    have hle : (10 : Int) ^ 39 ≤ 10 ^ k := pow_le_pow_right₀ (by norm_num) (by omega)
    have hgreat : (2 : Int) ^ 127 ≤ 10 ^ 39 := by norm_num
    omega
  · intro hk
    have hpos : (0 : Int) < 10 ^ k := by positivity
    have hle : (10 : Int) ^ k ≤ 10 ^ 38 := pow_le_pow_right₀ (by norm_num) hk
    have hsmall : (10 : Int) ^ 38 < 2 ^ 127 := by norm_num
    omega

/-- The decimal of an integer at a scale, by the limits of the scale and of the result. -/
theorem ofInt?_eq (n scale : Int) :
    ofInt? n scale =
      if 0 ≤ scale ∧ scale ≤ 38 ∧
          -2 ^ 127 ≤ n * 10 ^ scale.toNat ∧ n * 10 ^ scale.toNat < 2 ^ 127 then
        some ⟨n * 10 ^ scale.toNat, scale.toNat⟩
      else
        none := by
  have hscale : inRange (10 ^ scale.toNat) = true ↔ scale ≤ 38 := by
    rw [inRange_ten_pow_iff, Int.toNat_le]
    rfl
  rw [ofInt?]
  simp only [Int.ofNat_eq_natCast, tenPow_cast, hscale, inRange_iff (n := n * 10 ^ scale.toNat)]

/-! ### Words -/

/-- The word of 128 bits that holds an integer, up to wrap-around. -/
def word (n : Int) : BitVec 128 :=
  BitVec.ofInt 128 n

theorem toInt_word {n : Int} (h : inRange n = true) : (word n).toInt = n := by
  obtain ⟨hlower, hupper⟩ := inRange_iff.1 h
  rw [word, BitVec.toInt_ofInt]
  exact Int.bmod_eq_of_le (by omega) (by omega)

theorem toInt_word_mul {m n : Int} (hm : inRange m = true) (hn : inRange n = true)
    (h : inRange (m * n) = true) : (word m * word n).toInt = m * n := by
  obtain ⟨hlower, hupper⟩ := inRange_iff.1 h
  rw [BitVec.toInt_mul, toInt_word hm, toInt_word hn]
  exact Int.bmod_eq_of_le (by omega) (by omega)

/-- Where an integer has a decimal, the powers of ten up to the scale and the product are what the
words hold. -/
theorem toInt_word_of_ofInt? {n scale : Int} {d : Decimal} (hn : inRange n = true)
    (h : ofInt? n scale = some d) :
    (∀ k ≤ scale.toNat, (word (10 ^ k)).toInt = 10 ^ k) ∧
      (word n * word (10 ^ scale.toNat)).toInt = d.unscaled := by
  rw [ofInt?_eq] at h
  split at h
  · next hfits =>
    obtain ⟨-, hscale, hproduct⟩ := hfits
    cases h
    have hpow : ∀ k ≤ scale.toNat, inRange (10 ^ k) = true := fun k hk =>
      (inRange_ten_pow_iff k).2 (by omega)
    exact ⟨fun k hk => toInt_word (hpow k hk),
      toInt_word_mul hn (hpow _ le_rfl) (inRange_iff.2 hproduct)⟩
  · cases h

end Decimal

namespace Value

/-! ### Values -/

/-- An integer in a decimal column. -/
theorem conform?_decimal128 {v : Value} {n : Int} (hv : v.integer? = some n) (precision : Nat)
    (scale : Int) :
    v.conform? (.decimal128 precision scale) = (Decimal.ofInt? n scale).map .decimal := by
  cases v with
  | int | uint =>
    cases hv
    rfl
  | _ => cases hv

/-- An integer within 64 bits in a column of integers. -/
theorem exists_conform?_int64 {v : Value} {n : Int} (hv : v.integer? = some n)
    (hlower : -2 ^ 63 ≤ n) (hupper : n < 2 ^ 63) :
    ∃ m : Int64, m.toInt = n ∧ v.conform? .int64 = some (.int m) := by
  cases v with
  | int m =>
    cases hv
    exact ⟨m, rfl, rfl⟩
  | uint m =>
    cases hv
    have hm : m.toNat < twoPow 63 := by
      rw [← Int.ofNat_lt, twoPow_cast]
      exact hupper
    exact ⟨Int64.ofNat m.toNat, Int64.toInt_ofNat_of_lt hm, if_pos hm⟩
  | _ => cases hv

/-- An integer beyond 64 bits in a column of integers. -/
theorem conform?_int64_eq_none {v : Value} {n : Int} (hv : v.integer? = some n)
    (h : ¬ (-2 ^ 63 ≤ n ∧ n < 2 ^ 63)) : v.conform? .int64 = none := by
  cases v with
  | int m =>
    cases hv
    exact absurd ⟨m.le_toInt, m.toInt_lt⟩ h
  | uint m =>
    cases hv
    refine if_neg fun hm => h ⟨by omega, ?_⟩
    rw [← twoPow_cast]
    exact Int.ofNat_lt.2 hm
  | _ => cases hv

theorem bounds_of_integer? {v : Value} {n : Int} (hv : v.integer? = some n) :
    -2 ^ 63 ≤ n ∧ n < 2 ^ 64 := by
  cases v with
  | int m =>
    cases hv
    exact ⟨m.le_toInt, m.toInt_lt.trans (by norm_num)⟩
  | uint m =>
    cases hv
    exact ⟨by omega, Int.ofNat_lt.2 m.toNat_lt⟩
  | _ => cases hv

theorem inRange_of_integer? {v : Value} {n : Int} (hv : v.integer? = some n) :
    Decimal.inRange n = true := by
  obtain ⟨hlower, hupper⟩ := bounds_of_integer? hv
  exact Decimal.inRange_iff.2 ⟨by omega, by omega⟩

/-- At scale zero every integer of 64 bits fits, signed or not. -/
theorem conform?_decimal128_zero {v : Value} {n : Int} (hv : v.integer? = some n)
    (precision : Nat) : v.conform? (.decimal128 precision 0) = some (.decimal ⟨n, 0⟩) := by
  have hn : n * 10 ^ (0 : Int).toNat = n := mul_one n
  have hrange := Decimal.inRange_iff.1 (inRange_of_integer? hv)
  rw [conform?_decimal128 hv, Decimal.ofInt?_eq, hn, if_pos ⟨le_rfl, by decide, hrange⟩]
  rfl

end Value

open Scan

/-- A column of 64-bit integers without a fraction takes every integer of 64 bits. -/
theorem exists_conformValue_bigInt {c : Column} (htype : c.type = .bigInt) (hscale : c.scale = 0)
    {v : Value} {n : Int} (hv : v.integer? = some n) :
    ∃ field, fieldOf c = .ok field ∧ conformValue field v = .ok (.decimal ⟨n, 0⟩) := by
  have houtput : c.outputType? =
      some (.decimal128 (if c.precision = 0 then bigIntPrecision else c.precision) 0) := by
    rw [Column.outputType?, htype, hscale]
  refine ⟨_, by rw [fieldOf, houtput], ?_⟩
  rw [conformValue, Value.conform?_decimal128_zero hv]

/-- **Integers are received exactly, and refused exactly at the limits.**  In a decimal column an
integer becomes the decimal of the integer and so many zeros as the scale says, where the scale is
from zero to 38 and the result fits 128 bits with a sign, and it is refused everywhere else.  In a
column of integers it stays itself where it fits 64 bits with a sign, and is refused everywhere
else; a truth value becomes one or zero there.  So a column of 64-bit integers without a fraction
refuses none of them, not even the unsigned ones.  Words of 128 bits do not wrap around on the way to
a decimal, neither at the powers of ten nor at the product. -/
theorem integers_conform_exactly :
    (∀ (v : Value) (n : Int), v.integer? = some n →
      (∀ precision scale, v.conform? (.decimal128 precision scale) =
        if 0 ≤ scale ∧ scale ≤ 38 ∧
            -2 ^ 127 ≤ n * 10 ^ scale.toNat ∧ n * 10 ^ scale.toNat < 2 ^ 127 then
          some (.decimal ⟨n * 10 ^ scale.toNat, scale.toNat⟩)
        else
          none) ∧
      (∀ precision scale d, v.conform? (.decimal128 precision scale) = some (.decimal d) →
        (∀ k ≤ scale.toNat, (Decimal.word (10 ^ k)).toInt = 10 ^ k) ∧
          (Decimal.word n * Decimal.word (10 ^ scale.toNat)).toInt = d.unscaled) ∧
      (-2 ^ 63 ≤ n ∧ n < 2 ^ 63 → ∃ m : Int64, m.toInt = n ∧ v.conform? .int64 = some (.int m)) ∧
      (¬ (-2 ^ 63 ≤ n ∧ n < 2 ^ 63) → v.conform? .int64 = none) ∧
      ∀ c : Column, c.type = .bigInt → c.scale = 0 →
        ∃ field, fieldOf c = .ok field ∧ conformValue field v = .ok (.decimal ⟨n, 0⟩)) ∧
      (Value.bool false).conform? .int64 = some (.int 0) ∧
      (Value.bool true).conform? .int64 = some (.int 1) := by
  refine ⟨fun v n hv => ⟨fun precision scale => ?_, fun precision scale d h => ?_, ?_, ?_, ?_⟩,
    rfl, rfl⟩
  · rw [Value.conform?_decimal128 hv, Decimal.ofInt?_eq, apply_ite (Option.map Value.decimal)]
    rfl
  · rw [Value.conform?_decimal128 hv] at h
    obtain ⟨d', hd, hdecimal⟩ := Option.map_eq_some_iff.1 h
    cases hdecimal
    exact Decimal.toInt_word_of_ofInt? (Value.inRange_of_integer? hv) hd
  · rintro ⟨hlower, hupper⟩
    exact Value.exists_conform?_int64 hv hlower hupper
  · exact Value.conform?_int64_eq_none hv
  · intro c htype hscale
    exact exists_conformValue_bigInt htype hscale hv

/-- The greatest unsigned integer fits scale 18 and not scale 19, and no column of signed ones.  A
one fits scale 38, where the power of ten does, and not scale 39. -/
theorem integers_conform_exactly_greatest :
    let v : Value := .uint 18446744073709551615
    v.integer? = some 18446744073709551615 ∧
      v.conform? (.decimal128 38 18) =
        some (.decimal ⟨18446744073709551615 * 10 ^ 18, 18⟩) ∧
      v.conform? (.decimal128 38 19) = none ∧ v.conform? .int64 = none ∧
      (∃ field, fieldOf ⟨"id", .bigInt, 0, 0, false⟩ = .ok field ∧
        conformValue field v = .ok (.decimal ⟨18446744073709551615, 0⟩)) ∧
      (Value.int 1).conform? (.decimal128 38 38) = some (.decimal ⟨10 ^ 38, 38⟩) ∧
      (Value.int 1).conform? (.decimal128 38 39) = none := by
  intro v
  have hv : v.integer? = some 18446744073709551615 := by decide
  have hone : (Value.int 1).integer? = some 1 := by decide
  obtain ⟨hdecimal, -, -, hrefused, hbigInt⟩ := integers_conform_exactly.1 v _ hv
  obtain ⟨hdecimal', -⟩ := integers_conform_exactly.1 (.int 1) 1 hone
  refine ⟨hv, ?_, ?_, hrefused (by norm_num), hbigInt _ rfl rfl, ?_, ?_⟩
  · rw [hdecimal, if_pos (by decide)]
    rfl
  · rw [hdecimal, if_neg (by decide)]
  · rw [hdecimal', if_pos (by decide)]
    rfl
  · rw [hdecimal', if_neg (by decide)]

end ExternalTable
