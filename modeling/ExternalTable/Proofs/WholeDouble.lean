import Mathlib.Tactic.Common
import ExternalTable.Json.Basic
import ExternalTable.Proofs.Numeral

/-!
# Large whole numbers in floating point

A whole number beyond 64 bits has a nearest double, which is whole too, and the text of this double
is again a whole number.  That number rounds to the same double.  It is the number itself where few
of its digits are significant.

* `IsNearest`, `isNearest_roundHalfEven`: what it is to be the nearest quotient;
* `wholeBits`, `wholeInterval`: a double that is a whole number, and what rounds to it;
* `exists_wholeBits`, `doubleOfQuotient_of_holds`: a number rounds to a double exactly if it lies in
  its interval;
* `Interval.shortestFrom_spec`: the search finds a number of the interval, on the coarsest grid;
* `floatChars_wholeBits`: the text of a double that is a whole number.
-/

namespace ExternalTable

/-! ### Rounding -/

theorem twoPow_52 : twoPow 52 = 4503599627370496 := rfl

theorem twoPow_53 : twoPow 53 = 9007199254740992 := rfl

theorem twoPow_pos (n : Nat) : 0 < twoPow n := Nat.two_pow_pos n

theorem twoPow_add (m n : Nat) : twoPow (m + n) = twoPow m * twoPow n := Nat.pow_add 2 m n

/-- A natural number is as near to a quotient as any other, and even if two are equally near. -/
structure IsNearest (num den r : Nat) : Prop where
  low : 2 * (r * den) ≤ 2 * num + den
  high : 2 * num ≤ 2 * (r * den) + den
  even : r % 2 = 1 → 2 * (r * den) < 2 * num + den ∧ 2 * num < 2 * (r * den) + den

theorem isNearest_roundHalfEven (num : Nat) {den : Nat} (hden : 0 < den) :
    IsNearest num den (roundHalfEven num den) := by
  have hdivision : num / den * den + num % den = num := Nat.div_add_mod' num den
  have hrest : num % den < den := Nat.mod_lt num hden
  have hnext : (num / den + 1) * den = num / den * den + den := Nat.succ_mul _ _
  unfold roundHalfEven
  simp only
  split_ifs with hbelow habove heven
  all_goals exact ⟨by omega, by omega, fun _ => by omega⟩

theorem IsNearest.le {num den r r' : Nat} (hden : 0 < den) (h : IsNearest num den r)
    (h' : IsNearest num den r') : r' ≤ r := by
  by_contra hlt
  obtain ⟨k, rfl⟩ : ∃ k, r' = r + 1 + k := ⟨r' - (r + 1), by omega⟩
  have hproduct : (r + 1 + k) * den = r * den + den + k * den := by
    rw [Nat.add_mul, Nat.succ_mul]
  have hlow := h'.low
  have hhigh := h.high
  have hk : k * den = 0 := by omega
  have hzero : k = 0 := (Nat.mul_eq_zero.1 hk).resolve_right (by omega)
  subst hzero
  -- Two neighbours would both be even.
  have heven := h.even
  have heven' := h'.even
  omega

theorem IsNearest.unique {num den r r' : Nat} (hden : 0 < den) (h : IsNearest num den r)
    (h' : IsNearest num den r') : r = r' :=
  Nat.le_antisymm (h'.le hden h) (h.le hden h')

/-- The nearest number is between all that the quotient is between. -/
theorem IsNearest.le_of_mul_le {num den r k : Nat} (hden : 0 < den) (h : IsNearest num den r)
    (hk : k * den ≤ num) : k ≤ r := by
  by_contra hlt
  have hnext : (r + 1) * den ≤ k * den := Nat.mul_le_mul_right den (Nat.not_le.1 hlt)
  rw [Nat.succ_mul] at hnext
  have := h.high
  omega

theorem IsNearest.le_of_le_mul {num den r k : Nat} (hden : 0 < den) (h : IsNearest num den r)
    (hk : num ≤ k * den) : r ≤ k := by
  by_contra hlt
  have hnext : (k + 1) * den ≤ r * den := Nat.mul_le_mul_right den (Nat.not_le.1 hlt)
  rw [Nat.succ_mul] at hnext
  have := h.low
  omega

/-! ### Whole numbers as doubles -/

/-- A significand with all its bits. -/
def IsSignificand (s : Nat) : Prop :=
  twoPow 52 ≤ s ∧ s < twoPow 53

/-- The bits of the positive double `s * 2 ^ p`. -/
def wholeBits (s p : Nat) : Nat :=
  (p + 1075) * twoPow 52 + (s - twoPow 52)

theorem doublePlace_whole {n q : Nat} (hlow : twoPow 52 * twoPow q ≤ n)
    (hhigh : n < twoPow 53 * twoPow q) (hq : 1 ≤ q) : doublePlace n 1 = q := by
  have hpos : n ≠ 0 := by
    have := Nat.mul_pos (twoPow_pos 52) (twoPow_pos q)
    omega
  have hlog : n.log2 = 52 + q := by
    rw [← twoPow_add] at hlow hhigh
    rw [show 53 + q = 52 + q + 1 by omega] at hhigh
    exact (Nat.log2_eq_iff hpos).2 ⟨hlow, hhigh⟩
  have hguess : ((n.log2 : Int) - (1 : Nat).log2 - 53) = ((q - 1 : Nat) : Int) := by
    rw [hlog, show (1 : Nat).log2 = 0 from rfl]
    omega
  have hquotient : ¬ n / (1 * twoPow (q - 1)) < twoPow 53 := by
    rw [Nat.one_mul, Nat.not_lt, Nat.le_div_iff_mul_le (twoPow_pos _), ← twoPow_add,
      show 53 + (q - 1) = 52 + q by omega, twoPow_add]
    exact hlow
  simp only [doublePlace, hguess, atPlace, Int.natCast_nonneg, if_true, Int.toNat_natCast,
    if_neg hquotient]
  omega

theorem doubleOfQuotient_whole {n q : Nat} (hlow : twoPow 52 * twoPow q ≤ n)
    (hhigh : n < twoPow 53 * twoPow q) (hq : 1 ≤ q) :
    doubleOfQuotient n 1 = wholeBits (roundHalfEven n (twoPow q)) q := by
  have hbig : ¬ roundHalfEven n (twoPow q) < twoPow 52 :=
    Nat.not_lt.2 ((isNearest_roundHalfEven n (twoPow_pos q)).le_of_mul_le (twoPow_pos q) hlow)
  have hstored : ((q : Int) + 1075).toNat = q + 1075 := rfl
  simp only [doubleOfQuotient, doublePlace_whole hlow hhigh hq, atPlace, Int.natCast_nonneg,
    if_true, Int.toNat_natCast, Nat.one_mul, if_neg hbig, wholeBits, hstored]

/-! ### The interval of a double -/

/-- The interval of the positive double `s * 2 ^ p`, for `p` from 2. -/
def wholeInterval (s p : Nat) : Interval where
  lower := (4 * s - if s = twoPow 52 then 1 else 2) * twoPow (p - 2)
  number := 4 * s * twoPow (p - 2)
  upper := (4 * s + 2) * twoPow (p - 2)
  closed := s % 2 == 0
  scale := 0

/-- The ends of the interval round to an even significand only. -/
theorem holds_iff {i : Interval} {n : Nat} :
    i.holds n = true ↔
      i.lower ≤ n ∧ n ≤ i.upper ∧ (i.closed = false → i.lower < n ∧ n < i.upper) := by
  unfold Interval.holds
  cases i.closed with
  | true => simp
  | false =>
    simp only [Bool.false_eq_true, if_false, decide_eq_true_eq, true_implies]
    omega

/-- The interval in quarters of the last place, of which each is `u`. -/
theorem holds_wholeInterval_iff {s p n u : Nat} (hs : IsSignificand s) (hu : u = twoPow (p - 2)) :
    (wholeInterval s p).holds n = true ↔
      4 * (s * u) ≤ n + (if s = twoPow 52 then u else 2 * u) ∧ n ≤ 4 * (s * u) + 2 * u ∧
        (s % 2 = 1 → 4 * (s * u) < n + 2 * u ∧ n < 4 * (s * u) + 2 * u) := by
  have hlower : (wholeInterval s p).lower = 4 * (s * u) - (if s = twoPow 52 then u else 2 * u) := by
    show (4 * s - if s = twoPow 52 then 1 else 2) * twoPow (p - 2) = _
    rw [← hu, Nat.sub_mul, Nat.mul_assoc]
    split_ifs
    · rw [Nat.one_mul]
    · rfl
  have hupper : (wholeInterval s p).upper = 4 * (s * u) + 2 * u := by
    show (4 * s + 2) * twoPow (p - 2) = _
    rw [← hu, Nat.add_mul, Nat.mul_assoc]
  have hclosed : (wholeInterval s p).closed = false ↔ s % 2 = 1 := by
    show (s % 2 == 0) = false ↔ _
    rw [beq_eq_false_iff_ne]
    omega
  have hpositive : 1 * u ≤ s * u := Nat.mul_le_mul_right u (Nat.le_trans (twoPow_pos 52) hs.1)
  rw [holds_iff, hclosed, hlower, hupper]
  split_ifs with heven
  · have hparity : s % 2 = 0 := by
      rw [heven]
      rfl
    omega
  · omega

/-- A number of the interval of a double rounds to it. -/
theorem doubleOfQuotient_of_holds {s p n : Nat} (hs : IsSignificand s) (hp : 2 ≤ p)
    (h : (wholeInterval s p).holds n = true) : doubleOfQuotient n 1 = wholeBits s p := by
  obtain ⟨u, hu⟩ : ∃ u, u = twoPow (p - 2) := ⟨_, rfl⟩
  have hhalf : twoPow (p - 1) = 2 * u := by
    rw [hu, show p - 1 = p - 2 + 1 by omega, twoPow_succ, Nat.mul_comm]
  have hwhole : twoPow p = 2 * (2 * u) := by
    rw [← hhalf, show p = p - 1 + 1 by omega, twoPow_succ, Nat.mul_comm, Nat.add_sub_cancel]
  obtain ⟨hlow, hhigh, heven⟩ := (holds_wholeInterval_iff hs hu).1 h
  have hupos : 0 < u := hu ▸ twoPow_pos _
  have hleast : twoPow 52 * u ≤ s * u := Nat.mul_le_mul_right u hs.1
  have hmost : (s + 1) * u ≤ twoPow 53 * u := Nat.mul_le_mul_right u hs.2
  rw [Nat.succ_mul, twoPow_53] at hmost
  by_cases hnarrow : s = twoPow 52 ∧ n < 4 * (s * u)
  · -- The number is below a power of two, and its own last place is half as large.
    obtain ⟨rfl, hbelow⟩ := hnarrow
    rw [if_pos rfl, twoPow_52] at hlow
    rw [twoPow_52] at hbelow
    have hnear : IsNearest n (twoPow (p - 1)) (twoPow 53) := by
      rw [hhalf, twoPow_53]
      exact ⟨by omega, by omega, fun hodd => absurd hodd (by decide)⟩
    have hfits : twoPow 52 * twoPow (p - 1) ≤ n ∧ n < twoPow 53 * twoPow (p - 1) := by
      rw [hhalf, twoPow_52, twoPow_53]
      omega
    rw [doubleOfQuotient_whole hfits.1 hfits.2 (by omega),
      (isNearest_roundHalfEven n (twoPow_pos _)).unique (twoPow_pos _) hnear]
    unfold wholeBits
    rw [twoPow_52, twoPow_53]
    omega
  · have hproduct : s * (2 * (2 * u)) = 4 * (s * u) := by
      rw [← Nat.mul_assoc 2, Nat.mul_left_comm]
    have hnear : IsNearest n (twoPow p) s := by
      rw [hwhole]
      refine ⟨?_, by omega, fun hodd => ?_⟩
      · split_ifs at hlow <;> omega
      · have := heven hodd
        omega
    have hfits : twoPow 52 * twoPow p ≤ n ∧ n < twoPow 53 * twoPow p := by
      rw [hwhole, twoPow_53]
      refine ⟨?_, by omega⟩
      by_cases hleft : s = twoPow 52
      · rw [not_and, Nat.not_lt] at hnarrow
        have := hnarrow hleft
        rw [← hleft]
        omega
      · have hnext : (twoPow 52 + 1) * u ≤ s * u :=
          Nat.mul_le_mul_right u (Nat.lt_of_le_of_ne hs.1 (Ne.symm hleft))
        rw [if_neg hleft] at hlow
        rw [twoPow_52] at hnext ⊢
        omega
    rw [doubleOfQuotient_whole hfits.1 hfits.2 (by omega),
      (isNearest_roundHalfEven n (twoPow_pos _)).unique (twoPow_pos _) hnear]

/-- A large number has a nearest double, and lies in the interval of that. -/
theorem exists_wholeBits {n : Nat} (hn : twoPow 63 ≤ n) :
    ∃ s p, IsSignificand s ∧ 11 ≤ p ∧ doubleOfQuotient n 1 = wholeBits s p ∧
      (wholeInterval s p).holds n = true := by
  have hpos : n ≠ 0 := by
    have := twoPow_pos 63
    omega
  obtain ⟨q, hq, hlog⟩ : ∃ q, 11 ≤ q ∧ n.log2 = 52 + q := by
    have : 63 ≤ n.log2 := (Nat.le_log2 hpos).2 hn
    exact ⟨n.log2 - 52, by omega, by omega⟩
  obtain ⟨u, hu⟩ : ∃ u, u = twoPow (q - 2) := ⟨_, rfl⟩
  have hupos : 0 < u := hu ▸ twoPow_pos _
  have hwhole : twoPow q = 4 * u := by
    rw [hu, show q = q - 2 + 2 by omega, twoPow_add, Nat.mul_comm, Nat.add_sub_cancel]
    rfl
  obtain ⟨hlow, hhigh⟩ : twoPow 52 * twoPow q ≤ n ∧ n < twoPow 53 * twoPow q := by
    rw [← twoPow_add, ← twoPow_add, show 53 + q = 52 + q + 1 by omega]
    exact (Nat.log2_eq_iff hpos).1 hlog
  have hround := doubleOfQuotient_whole hlow hhigh (by omega)
  have hnear := isNearest_roundHalfEven n (twoPow_pos q)
  obtain ⟨r, hr⟩ : ∃ r, r = roundHalfEven n (twoPow q) := ⟨_, rfl⟩
  rw [← hr] at hround hnear
  have hleast : twoPow 52 ≤ r := hnear.le_of_mul_le (twoPow_pos q) hlow
  have hmost : r ≤ twoPow 53 := hnear.le_of_le_mul (twoPow_pos q) (Nat.le_of_lt hhigh)
  obtain ⟨hbelow, habove, heven⟩ := hnear
  have hproduct : r * (4 * u) = 4 * (r * u) := Nat.mul_left_comm r 4 u
  rw [hwhole] at hlow hhigh hbelow habove heven
  by_cases htop : r = twoPow 53
  · -- Rounding has come to the next power of two.
    subst htop
    have hs : IsSignificand (twoPow 52) := ⟨Nat.le_refl _, by decide⟩
    have hdouble : 2 * u = twoPow (q + 1 - 2) := by
      rw [hu, show q + 1 - 2 = q - 2 + 1 by omega, twoPow_succ, Nat.mul_comm]
    refine ⟨twoPow 52, q + 1, hs, by omega, ?_, ?_⟩
    · rw [hround]
      unfold wholeBits
      rw [twoPow_52, twoPow_53]
      omega
    · rw [holds_wholeInterval_iff hs hdouble, if_pos rfl]
      rw [twoPow_53] at hbelow habove hhigh
      rw [twoPow_52]
      omega
  · have hs : IsSignificand r := ⟨hleast, Nat.lt_of_le_of_ne hmost htop⟩
    refine ⟨r, q, hs, hq, hround, ?_⟩
    rw [holds_wholeInterval_iff hs hu]
    refine ⟨?_, by omega, fun hodd => ?_⟩
    · split_ifs with hnarrow
      · rw [hnarrow, twoPow_52]
        rw [twoPow_52] at hlow
        omega
      · omega
    · have := heven hodd
      omega

/-! ### Bits -/

open BinaryFormat

theorem toNat_signed (negative : Bool) {bits : Nat} (h : bits < twoPow 63) :
    (Json.signed negative bits).toNat = (if negative then twoPow 63 else 0) + bits := by
  have h63 : twoPow 63 = 9223372036854775808 := rfl
  have hlt : (if negative then twoPow 63 + bits else bits) < 2 ^ 64 := by
    rw [h63] at h ⊢
    split_ifs <;> omega
  unfold Json.signed
  rw [Nat.toUInt64, UInt64.toNat_ofNat', Nat.mod_eq_of_lt hlt]
  split_ifs <;> omega

/-- The places below the stored exponent of infinities. -/
theorem wholeBits_lt_iff {s p : Nat} (hs : IsSignificand s) :
    wholeBits s p < double.topExponent * twoPow 52 ↔ p < 972 := by
  have htop : double.topExponent = 2047 := rfl
  obtain ⟨hlow, hhigh⟩ := hs
  unfold wholeBits
  rw [htop]
  rw [twoPow_52] at hlow ⊢
  rw [twoPow_53] at hhigh
  omega

/-- The parts of the bits of a double, with either sign. -/
theorem parts_wholeBits {s p : Nat} (hs : IsSignificand s) (hp : p < 972) (negative : Bool) :
    double.fraction (Json.signed negative (wholeBits s p)).toNat = s - twoPow 52 ∧
      double.exponent (Json.signed negative (wholeBits s p)).toNat = p + 1075 ∧
      double.isNegative (Json.signed negative (wholeBits s p)).toNat = negative := by
  have hlt : wholeBits s p < twoPow 63 :=
    Nat.lt_trans ((wholeBits_lt_iff hs).2 hp) (by decide)
  have h63 : twoPow 63 = 9223372036854775808 := rfl
  obtain ⟨hlow, hhigh⟩ := hs
  rw [twoPow_52] at hlow
  rw [twoPow_53] at hhigh
  rw [toNat_signed negative hlt]
  have hfraction : twoPow double.fractionBits = 4503599627370496 := rfl
  have hexponent : twoPow double.exponentBits = 2048 := rfl
  have hsign : twoPow (double.fractionBits + double.exponentBits) = 9223372036854775808 := rfl
  unfold fraction exponent isNegative wholeBits
  rw [hfraction, hexponent, hsign, h63, twoPow_52]
  cases negative with
  | true =>
    simp only [if_true, beq_iff_eq]
    omega
  | false =>
    simp only [Bool.false_eq_true, if_false, beq_eq_false_iff_ne]
    omega

theorem significand_wholeBits {s p : Nat} (hs : IsSignificand s) (hp : p < 972)
    (negative : Bool) :
    double.significand (Json.signed negative (wholeBits s p)).toNat = s := by
  obtain ⟨hfraction, hexponent, -⟩ := parts_wholeBits hs hp negative
  unfold significand
  rw [hfraction, hexponent, if_neg (by omega)]
  exact Nat.sub_add_cancel hs.1

theorem exactly_wholeBits {s p : Nat} (hs : IsSignificand s) (hp : 2 ≤ p) (hp' : p < 972)
    (negative : Bool) :
    Interval.exactly double (Json.signed negative (wholeBits s p)).toNat = wholeInterval s p := by
  obtain ⟨hfraction, hexponent, -⟩ := parts_wholeBits hs hp' negative
  have hplace : double.place (Json.signed negative (wholeBits s p)).toNat - 2 =
      ((p - 2 : Nat) : Int) := by
    have hbias : double.bias + double.fractionBits = 1075 := rfl
    unfold place
    rw [hexponent, hbias]
    omega
  have hnarrow : double.isNarrowBelow (Json.signed negative (wholeBits s p)).toNat = true ↔
      s = twoPow 52 := by
    have := hs.1
    unfold isNarrowBelow
    rw [hfraction, hexponent]
    simp only [Bool.and_eq_true, beq_iff_eq, decide_eq_true_eq]
    omega
  unfold Interval.exactly wholeInterval
  simp only [significand_wholeBits hs hp', hplace, Int.natCast_nonneg, if_true, Int.toNat_natCast,
    hnarrow]
  congr 1
  omega

/-! ### The shortest digits -/

namespace Interval

variable {i : Interval}

/-- What lies between two numbers of an interval belongs to it. -/
theorem holds_between {a b n : Nat} (ha : i.holds a = true) (hb : i.holds b = true)
    (hlow : a ≤ n) (hhigh : n ≤ b) : i.holds n = true := by
  rw [holds_iff] at *
  refine ⟨by omega, by omega, fun hopen => ?_⟩
  have := ha.2.2 hopen
  have := hb.2.2 hopen
  omega

theorem holds_of_nearest? {step steps : Nat} (h : i.nearest? step = some steps) :
    i.holds (steps * step) = true := by
  unfold nearest? at h
  simp only at h
  split at h
  · cases h
  · cases h
    assumption
  · cases h
    assumption
  · split at h
    · cases h
      assumption
    · cases h
      assumption

/-- If the interval has a multiple of a step, then one of those next to the number. -/
theorem exists_nearest? {step k : Nat} (hstep : 0 < step) (hnumber : i.holds i.number = true)
    (hk : i.holds (k * step) = true) : ∃ steps, i.nearest? step = some steps := by
  have hdivision : i.number / step * step + i.number % step = i.number := Nat.div_add_mod' _ _
  have hrest : i.number % step < step := Nat.mod_lt _ hstep
  have hnext : (i.number / step + 1) * step = i.number / step * step + step := Nat.succ_mul _ _
  have hone : i.holds (i.number / step * step) = true ∨
      i.holds ((i.number / step + 1) * step) = true := by
    by_cases hle : k ≤ i.number / step
    · have := Nat.mul_le_mul_right step hle
      exact .inl (holds_between hk hnumber this (by omega))
    · have := Nat.mul_le_mul_right step (Nat.not_le.1 hle)
      exact .inr (holds_between hnumber hk (by omega) this)
  unfold nearest?
  simp only
  split
  · next hbelow habove =>
    rw [hbelow, habove] at hone
    simp at hone
  · exact ⟨_, rfl⟩
  · exact ⟨_, rfl⟩
  · split <;> exact ⟨_, rfl⟩

/-- The search stops on the coarsest grid, and not above where it begins, that has a number of the
interval. -/
theorem shortestFrom_spec (hnumber : i.holds i.number = true) (places : Nat) :
    i.holds ((i.shortestFrom places).1 * tenPow (i.shortestFrom places).2) = true ∧
      ∀ e ≤ places, ∀ k, i.holds (k * tenPow e) = true → e ≤ (i.shortestFrom places).2 := by
  induction places with
  | zero =>
    refine ⟨?_, fun e he _ _ => he⟩
    rw [shortestFrom, tenPow_zero, Nat.mul_one]
    exact hnumber
  | succ places ih =>
    rw [shortestFrom]
    cases hnearest : i.nearest? (tenPow (places + 1)) with
    | some steps => exact ⟨holds_of_nearest? hnearest, fun e he _ _ => he⟩
    | none =>
      refine ⟨ih.1, fun e he k hk => ?_⟩
      by_cases htop : e = places + 1
      · subst htop
        obtain ⟨steps, hsteps⟩ := exists_nearest? (tenPow_pos _) hnumber hk
        rw [hnearest] at hsteps
        cases hsteps
      · exact ih.2 e (by omega) k hk

/-- The number that the search comes to. -/
def shortestNumber (i : Interval) : Nat :=
  let (steps, places) := i.shortestFrom ((Digits.ofNat i.number).length - 1)
  steps * tenPow places

/-- On the scale of whole numbers the shortest digits write this number. -/
theorem positionalChars_shortest (hscale : i.scale = 0) :
    positionalChars i.shortest.1 i.shortest.2 = Digits.ofNat i.shortestNumber := by
  unfold shortest shortestNumber
  simp only [hscale]
  generalize i.shortestFrom ((Digits.ofNat i.number).length - 1) = found
  obtain ⟨steps, places⟩ := found
  simp only
  have hmagnitude : ∀ n, Decimal.magnitude n 0 = Digits.ofNat n := fun _ => rfl
  split_ifs with hzero
  · have hplaces : ((places : Int) + 1 - (0 : Nat)) = ((places + 1 : Nat) : Int) := by omega
    have hsteps : steps / 10 * 10 = steps := Nat.div_mul_cancel (Nat.dvd_of_mod_eq_zero hzero)
    have hproduct : steps / 10 * tenPow (places + 1) = steps * tenPow places := by
      rw [tenPow_succ, Nat.mul_comm (tenPow places), ← Nat.mul_assoc, hsteps]
    show positionalChars (steps / 10) ((places : Int) + 1 - (0 : Nat)) = _
    rw [positionalChars, hplaces, if_pos (Int.natCast_nonneg _), Int.toNat_natCast, hmagnitude,
      hproduct]
  · have hplaces : ((places : Int) - (0 : Nat)) = (places : Int) := by omega
    rw [positionalChars, hplaces, if_pos (Int.natCast_nonneg _), Int.toNat_natCast, hmagnitude]

theorem holds_shortestNumber (hnumber : i.holds i.number = true) :
    i.holds i.shortestNumber = true :=
  (shortestFrom_spec hnumber _).1

end Interval

theorem lt_tenPow_length (n : Nat) : n < tenPow (Digits.ofNat n).length := by
  induction n using Nat.strongRecOn with
  | ind n ih =>
    rw [Digits.ofNat, Nat.toDigits_eq_if (by decide)]
    split
    · simpa [tenPow_succ] using ‹n < 10›
    · have := ih (n / 10) (by omega)
      rw [Digits.ofNat] at this
      rw [List.length_append, List.length_singleton, tenPow_succ]
      omega

theorem number_holds {s p : Nat} (hs : IsSignificand s) :
    (wholeInterval s p).holds (wholeInterval s p).number = true := by
  have hnumber : (wholeInterval s p).number = 4 * (s * twoPow (p - 2)) := Nat.mul_assoc _ _ _
  have hpos := twoPow_pos (p - 2)
  rw [holds_wholeInterval_iff hs rfl, hnumber]
  split_ifs <;> omega

theorem ne_zero_of_holds {s p n : Nat} (hs : IsSignificand s)
    (h : (wholeInterval s p).holds n = true) : n ≠ 0 := by
  have hleast : twoPow 52 * twoPow (p - 2) ≤ s * twoPow (p - 2) := Nat.mul_le_mul_right _ hs.1
  have hpos := twoPow_pos (p - 2)
  have hlow := ((holds_wholeInterval_iff hs rfl).1 h).1
  rw [twoPow_52] at hleast
  split_ifs at hlow <;> omega

/-- The text of a double that is a whole number is that of a whole number of its interval. -/
theorem floatChars_wholeBits {s p : Nat} (hs : IsSignificand s) (hp : 2 ≤ p) (hp' : p < 972)
    (negative : Bool) :
    floatChars double (Json.signed negative (wholeBits s p)).toNat =
      if negative then '-' :: Digits.ofNat (wholeInterval s p).shortestNumber
      else Digits.ofNat (wholeInterval s p).shortestNumber := by
  have hpos : s ≠ 0 := by
    have := Nat.lt_of_lt_of_le (twoPow_pos 52) hs.1
    omega
  unfold floatChars
  simp only [significand_wholeBits hs hp', if_neg hpos, (parts_wholeBits hs hp' negative).2.2,
    exactly_wholeBits hs hp hp', Interval.positionalChars_shortest (i := wholeInterval s p) rfl]

theorem tenPow_add (m n : Nat) : tenPow (m + n) = tenPow m * tenPow n := Nat.pow_add 10 m n

/-- Two multiples of a step are the same if they are less than a step apart. -/
theorem mul_eq_mul_of_near {a b step : Nat} (hab : a * step < b * step + step)
    (hba : b * step < a * step + step) : a * step = b * step := by
  rw [← Nat.succ_mul] at hab hba
  have := Nat.lt_of_mul_lt_mul_right hab
  have := Nat.lt_of_mul_lt_mul_right hba
  have heq : a = b := by omega
  rw [heq]

/-- A number of at most fifteen significant digits is the only one of its grid in an interval. -/
theorem shortestNumber_eq {s p k e : Nat} (hs : IsSignificand s) (hk : k < tenPow 15)
    (h : (wholeInterval s p).holds (k * tenPow e) = true) :
    (wholeInterval s p).shortestNumber = k * tenPow e := by
  obtain ⟨hfound, hcoarsest⟩ := Interval.shortestFrom_spec (number_holds (p := p) hs)
    ((Digits.ofNat (wholeInterval s p).number).length - 1)
  have hlength := lt_tenPow_length (wholeInterval s p).number
  show _ * tenPow _ = _
  generalize (wholeInterval s p).shortestFrom _ = found at *
  obtain ⟨steps, places⟩ := found
  obtain ⟨start, hstart⟩ : ∃ start, (Digits.ofNat (wholeInterval s p).number).length = start + 1 :=
    ⟨_, (Nat.succ_pred (List.length_eq_zero_iff.not.2 (Fragment.isWhole_ofNat _).ne_nil)).symm⟩
  simp only [hstart, Nat.add_sub_cancel] at *
  -- Both numbers lie on the grid at `e`, or where the search begins if that is less.
  obtain ⟨grid, hgrid⟩ : ∃ grid, grid = min e start := ⟨_, rfl⟩
  have hk' : k * tenPow e = k * tenPow (e - grid) * tenPow grid := by
    rw [Nat.mul_assoc, ← tenPow_add, show e - grid + grid = e by omega]
  have hplaces : grid ≤ places := hcoarsest grid (by omega) _ (hk' ▸ h)
  have hsteps : steps * tenPow places = steps * tenPow (places - grid) * tenPow grid := by
    rw [Nat.mul_assoc, ← tenPow_add, show places - grid + grid = places by omega]
  obtain ⟨u, hu⟩ : ∃ u, u = twoPow (p - 2) := ⟨_, rfl⟩
  have hupos : 0 < u := hu ▸ twoPow_pos _
  have hnumber : (wholeInterval s p).number = 4 * (s * u) := by
    rw [hu]
    exact Nat.mul_assoc _ _ _
  have hleast : twoPow 52 * u ≤ s * u := Nat.mul_le_mul_right u hs.1
  rw [twoPow_52] at hleast
  rw [holds_wholeInterval_iff hs hu] at h hfound
  have hnear : ∀ n, 4 * (s * u) ≤ n + (if s = twoPow 52 then u else 2 * u) →
      4 * (s * u) ≤ n + 2 * u := by
    intro n hn
    split_ifs at hn <;> omega
  have hlow := hnear _ h.1
  have hlow' := hnear _ hfound.1
  have hhigh := h.2.1
  have hhigh' := hfound.2.1
  -- The grid is wider than the interval.
  have hwide : 4 * u < tenPow grid := by
    by_cases he : e ≤ start
    · have hmost : k * tenPow grid ≤ tenPow 15 * tenPow grid :=
        Nat.mul_le_mul_right _ (Nat.le_of_lt hk)
      have h15 : tenPow 15 = 1000000000000000 := rfl
      rw [show grid = e by omega] at hmost ⊢
      rw [h15] at hmost
      omega
    · rw [hnumber, tenPow_succ, show start = grid by omega] at hlength
      omega
  rw [hk'] at hlow hhigh ⊢
  rw [hsteps] at hlow' hhigh' ⊢
  exact mul_eq_mul_of_near (by omega) (by omega)

end ExternalTable
