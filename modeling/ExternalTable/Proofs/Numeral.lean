import Mathlib.Tactic.Common
import ExternalTable.Literal

/-!
# The spelling of literals

A literal is the quoted text of a text, one of three keywords, or a number.  Numbers are decimal
numerals, after a minus sign where they are negative.

* `IsWhole`, `IsNumeral`: numerals without a point, and with or without one;
* `isNumeral_magnitude`, `floatChars_cases`: decimals and floating-point numbers are written so;
* `keywordLiterals`, `literal_forms`: all literals.
-/

namespace ExternalTable.Fragment

/-- Decimal digits without a superfluous zero in front. -/
structure IsWhole (t : Sql) : Prop where
  ne_nil : t ≠ []
  digits : ∀ c ∈ t, c.isDigit = true
  leading : t.head? = some '0' → t = ['0']

/-- A decimal numeral: digits, or digits on both sides of a point. -/
inductive IsNumeral : Sql → Prop
  | whole {t : Sql} : IsWhole t → IsNumeral t
  | point {t u : Sql} : IsWhole t → u ≠ [] → (∀ c ∈ u, c.isDigit = true) → IsNumeral (t ++ '.' :: u)

/-- The literals that are neither numbers nor quoted. -/
def keywordLiterals : List Sql :=
  ["NULL".toList, "TRUE".toList, "FALSE".toList]

/-! ### Natural numbers -/

theorem isDigit_ofNat {n : Nat} {c : Char} (hc : c ∈ Digits.ofNat n) : c.isDigit = true :=
  Nat.isDigit_of_mem_toDigits (by decide) (by decide) hc

theorem head?_ofNat {n : Nat} (h : 0 < n) : (Digits.ofNat n).head? ≠ some '0' := by
  induction n using Nat.strongRecOn with
  | ind n ih =>
    rw [Digits.ofNat, Nat.toDigits_eq_if (by decide)]
    split
    · have hdigit := Nat.toNat_digitChar_of_lt_ten ‹n < 10›
      rw [List.head?_cons, Ne, Option.some.injEq]
      rintro hzero
      rw [hzero] at hdigit
      have : '0'.toNat = 48 := rfl
      omega
    · rw [List.head?_append, Ne, Option.or_eq_some_iff]
      rintro (hzero | ⟨hnil, -⟩)
      · exact ih (n / 10) (by omega) (by omega) hzero
      · exact Nat.toDigits_ne_nil (List.head?_eq_none_iff.1 hnil)

theorem isWhole_ofNat (n : Nat) : IsWhole (Digits.ofNat n) where
  ne_nil := Nat.toDigits_ne_nil
  digits _ := isDigit_ofNat
  leading h := by
    rcases Nat.eq_zero_or_pos n with rfl | hpos
    · rfl
    · exact absurd h (head?_ofNat hpos)

theorem isDigit_padded {width n : Nat} {c : Char} (hc : c ∈ Digits.padded width n) :
    c.isDigit = true := by
  rcases List.mem_append.1 hc with h | h
  · rw [List.eq_of_mem_replicate h]
    decide
  · exact isDigit_ofNat h

/-- What stands in front of the last digits of a padded number has no superfluous zero: either the
number is longer than those, or a single zero stands there. -/
theorem isWhole_take_padded {scale : Nat} (hscale : scale ≠ 0) (n : Nat) :
    IsWhole ((Digits.padded (scale + 1) n).take
      ((Digits.padded (scale + 1) n).length - scale)) := by
  have hle := Digits.le_length_padded (scale + 1) n
  rcases Nat.lt_or_ge scale (Digits.ofNat n).length with hlt | hge
  · have hpadded : Digits.padded (scale + 1) n = Digits.ofNat n := by
      rw [Digits.padded, Nat.sub_eq_zero_of_le hlt, List.replicate_zero, List.nil_append]
    rw [hpadded] at hle ⊢
    refine ⟨fun hnil => ?_, fun c hc => isDigit_ofNat (List.mem_of_mem_take hc), fun h => ?_⟩
    · have := congrArg List.length hnil
      rw [List.length_take] at this
      simp at this
      omega
    · rw [List.head?_take, if_neg (by omega)] at h
      have := congrArg List.length ((isWhole_ofNat n).leading h)
      simp at this
      omega
  · obtain ⟨zeros, hzeros⟩ : ∃ k, scale + 1 - (Digits.ofNat n).length = k + 1 :=
      ⟨scale - (Digits.ofNat n).length, by omega⟩
    have hlength : (Digits.padded (scale + 1) n).length - scale = 1 := by
      simp only [Digits.padded, List.length_append, List.length_replicate]
      omega
    rw [hlength, Digits.padded, hzeros, List.replicate_succ, List.cons_append, List.take_succ_cons,
      List.take_zero]
    exact isWhole_ofNat 0

theorem isNumeral_magnitude (n scale : Nat) : IsNumeral (Decimal.magnitude n scale) := by
  rw [Decimal.magnitude]
  split
  · exact .whole (isWhole_ofNat n)
  · have hle := Digits.le_length_padded (scale + 1) n
    refine .point (isWhole_take_padded ‹_› n) (fun hnil => ?_) fun c hc =>
      isDigit_padded (List.mem_of_mem_drop hc)
    have := congrArg List.length hnil
    rw [List.length_drop] at this
    simp at this
    omega

/-! ### Values -/

theorem floatChars_cases (f : BinaryFormat) (bits : Nat) :
    ∃ t, IsNumeral t ∧ (floatChars f bits = t ∨ floatChars f bits = '-' :: t) := by
  have hmagnitude : IsNumeral (if f.significand bits = 0 then ['0'] else
      positionalChars (Interval.exactly f bits).shortest.1
        (Interval.exactly f bits).shortest.2) := by
    split
    · exact .whole (isWhole_ofNat 0)
    · rw [positionalChars]
      split <;> exact isNumeral_magnitude _ _
  refine ⟨_, hmagnitude, ?_⟩
  rw [floatChars]
  split
  · exact .inr rfl
  · exact .inl rfl

/-- A literal is the quoted text of a text, a keyword, or a numeral with or without a minus sign. -/
theorem literal_forms {d : Dialect} {v : Value} {t : Sql} (h : v.literal d = .ok t) :
    (∃ s, v = .text s ∧ t = d.textLiteral s.toList) ∨ t ∈ keywordLiterals ∨
      ∃ u, IsNumeral u ∧ (t = u ∨ t = '-' :: u) := by
  have hfloat : ∀ f bits, floatLiteral f bits = .ok t →
      ∃ u, IsNumeral u ∧ (t = u ∨ t = '-' :: u) := by
    intro f bits hf
    rw [floatLiteral] at hf
    split at hf
    · cases hf
      exact floatChars_cases f bits
    · cases hf
  cases v with
  | text s =>
    cases h
    exact .inl ⟨s, rfl, rfl⟩
  | null =>
    cases h
    exact .inr (.inl (by decide))
  | bool b => cases b <;> cases h <;> exact .inr (.inl (by decide))
  | int n =>
    cases h
    refine .inr (.inr ⟨_, .whole (isWhole_ofNat n.toInt.natAbs), ?_⟩)
    rw [Digits.ofInt]
    split
    · exact .inr rfl
    · exact .inl rfl
  | uint n =>
    cases h
    exact .inr (.inr ⟨_, .whole (isWhole_ofNat _), .inl rfl⟩)
  | decimal n =>
    cases h
    refine .inr (.inr ⟨_, isNumeral_magnitude n.unscaled.natAbs n.scale, ?_⟩)
    rw [Decimal.chars]
    split
    · exact .inr rfl
    · exact .inl rfl
  | float32 bits => exact .inr (.inr (hfloat _ _ h))
  | float64 bits => exact .inr (.inr (hfloat _ _ h))
  | binary _ => cases h
  | date _ => cases h
  | time _ => cases h
  | timestamp _ => cases h
  | list _ => cases h

end ExternalTable.Fragment
