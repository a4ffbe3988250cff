import ExternalTable.Proofs.IntegerParameter

/-!
# Decimals in plain text

The text of a decimal is exact: it shows the sign, every digit and the scale, and nothing else.  A
reader of numbers that knows nothing of decimals finds all three in it.

* `Numeral.decimal?`: the decimal that a written number stands for;
* `readMagnitude?_of_point`, `read?_signed`: reading digits with a point, and a sign before them;
* `HasParts`, `exists_hasParts`: the text of a decimal, cut at the point;
* `chars_read_back`: the main statement.
-/

namespace ExternalTable

open Fragment (IsWhole isWhole_ofNat isWhole_take_padded isDigit_padded)

namespace Json.Numeral

/-- The decimal of a number that is written without an exponent.  The digits on both sides of the
point make the integer, and those behind it are counted by the scale. -/
def decimal? (ν : Numeral) : Option Decimal :=
  let fraction := ν.fraction.getD []
  if ν.exponent.isSome then none
  else some ⟨withSign ν.negative (Digits.value (ν.whole ++ fraction)), fraction.length⟩

/-! ### Reading -/

/-- Digits end at the first character that is none. -/
theorem splitDigits_append {t rest : List Char} (ht : ∀ c ∈ t, c.isDigit = true)
    (hrest : ∀ c ∈ rest.head?, c.isDigit = false) : splitDigits (t ++ rest) = (t, rest) := by
  have hstop : rest.takeWhile Char.isDigit = [] ∧ rest.dropWhile Char.isDigit = rest := by
    cases rest with
    | nil => exact ⟨rfl, rfl⟩
    | cons c rest =>
      have hc : ¬ c.isDigit = true := by simp [hrest c rfl]
      exact ⟨List.takeWhile_cons_of_neg hc, List.dropWhile_cons_of_neg hc⟩
  rw [splitDigits, List.takeWhile_append_of_pos ht, List.dropWhile_append_of_pos ht, hstop.1,
    hstop.2, List.append_nil]

theorem readMagnitude?_of_point {t u : List Char} (ht : IsWhole t) (hne : u ≠ [])
    (hu : ∀ c ∈ u, c.isDigit = true) (negative : Bool) :
    readMagnitude? negative (t ++ '.' :: u) = some ⟨negative, t, some u, none⟩ := by
  have hwhole : splitDigits (t ++ '.' :: u) = (t, '.' :: u) :=
    splitDigits_append ht.digits fun c hc => by
      cases hc
      decide
  have hfraction : splitDigits (u ++ []) = (u, []) := splitDigits_append hu (by simp)
  rw [List.append_nil] at hfraction
  unfold readMagnitude?
  rw [hwhole]
  split
  · next h =>
    cases h
    exact absurd rfl ht.ne_nil
  · next h =>
    cases h
    exact absurd (ht.leading rfl) (by simp)
  · next h =>
    cases h
    rw [hfraction]
    split
    · next h =>
      cases h
      exact absurd rfl hne
    · next h =>
      cases h
      rfl
  · next hpoint h =>
    cases h
    exact absurd rfl (hpoint u)

/-- The sign is read before the rest. -/
theorem read?_signed {t : List Char} (h : t.head? ≠ some '-') (negative : Bool) :
    read? ((if negative then ['-'] else []) ++ t) = readMagnitude? negative t := by
  cases negative with
  | true => rfl
  | false =>
    rw [if_neg Bool.false_ne_true, List.nil_append, read?]
    rintro rest rfl
    exact h rfl

end Json.Numeral

namespace Decimal

open Json

/-- The digits of a magnitude: those in front of the point, and as many behind it as the scale
says. -/
theorem exists_magnitude (n scale : Nat) :
    ∃ whole fraction, magnitude n scale = whole ++ (if scale = 0 then [] else '.' :: fraction) ∧
      IsWhole whole ∧ (∀ c ∈ fraction, c.isDigit = true) ∧ fraction.length = scale ∧
      Digits.value (whole ++ fraction) = n := by
  by_cases hscale : scale = 0
  · refine ⟨Digits.ofNat n, [], ?_, isWhole_ofNat n, by simp, hscale.symm, ?_⟩
    · rw [magnitude, if_pos hscale, if_pos hscale, List.append_nil]
    · rw [List.append_nil, Digits.value_ofNat]
  · -- The digits are more than the scale, so the point never stands in front of all of them.
    have hlength : scale < (Digits.padded (scale + 1) n).length :=
      Digits.le_length_padded (scale + 1) n
    obtain ⟨digits, hdigits⟩ : ∃ digits, digits = Digits.padded (scale + 1) n := ⟨_, rfl⟩
    rw [← hdigits] at hlength
    refine ⟨digits.take (digits.length - scale), digits.drop (digits.length - scale), ?_,
      hdigits ▸ isWhole_take_padded hscale n,
      fun c hc => isDigit_padded (hdigits ▸ List.mem_of_mem_drop hc), ?_, ?_⟩
    · rw [magnitude, if_neg hscale, if_neg hscale, hdigits]
    · rw [List.length_drop]
      omega
    · rw [List.take_append_drop, hdigits, Digits.value_padded]

/-- The text of a decimal, cut at the point. -/
structure HasParts (d : Decimal) (whole fraction : List Char) : Prop where
  chars_eq : d.chars = (if d.unscaled < 0 then ['-'] else []) ++
    (whole ++ (if d.scale = 0 then [] else '.' :: fraction))
  isWhole : IsWhole whole
  digits : ∀ c ∈ fraction, c.isDigit = true
  length_eq : fraction.length = d.scale

theorem exists_hasParts (d : Decimal) :
    ∃ whole fraction, d.HasParts whole fraction ∧
      Digits.value (whole ++ fraction) = d.unscaled.natAbs := by
  obtain ⟨whole, fraction, hmagnitude, hwhole, hdigits, hlength, hvalue⟩ :=
    exists_magnitude d.unscaled.natAbs d.scale
  refine ⟨whole, fraction, ⟨?_, hwhole, hdigits, hlength⟩, hvalue⟩
  rw [chars, hmagnitude]
  split
  · rfl
  · rfl

/-- What is read in the text of a decimal. -/
theorem HasParts.read?_chars {d : Decimal} {whole fraction : List Char}
    (h : d.HasParts whole fraction) :
    Numeral.read? d.chars =
      some ⟨decide (d.unscaled < 0), whole, if d.scale = 0 then none else some fraction, none⟩ := by
  have hhead : (whole ++ (if d.scale = 0 then [] else '.' :: fraction)).head? ≠ some '-' := by
    intro hminus
    rw [List.head?_append_of_ne_nil _ h.isWhole.ne_nil] at hminus
    have := h.isWhole.digits '-' (List.mem_of_mem_head? hminus)
    exact absurd this (by decide)
  have hsigned := Numeral.read?_signed hhead (decide (d.unscaled < 0))
  simp only [decide_eq_true_eq] at hsigned
  rw [h.chars_eq, hsigned]
  split
  · rw [List.append_nil]
    exact readMagnitude?_of_isWhole h.isWhole _
  · next hscale =>
    have hne : fraction ≠ [] := by
      rintro rfl
      exact hscale h.length_eq.symm
    exact Numeral.readMagnitude?_of_point h.isWhole hne h.digits _

/-- The decimal is found in its text. -/
theorem read?_bind_decimal? (d : Decimal) :
    (Numeral.read? d.chars).bind Numeral.decimal? = some d := by
  obtain ⟨whole, fraction, h, hvalue⟩ := d.exists_hasParts
  have hfraction : (if d.scale = 0 then none else some fraction).getD [] = fraction := by
    split
    · next hscale => exact (List.eq_nil_of_length_eq_zero (h.length_eq.trans hscale)).symm
    · rfl
  have hunscaled : withSign (decide (d.unscaled < 0)) d.unscaled.natAbs = d.unscaled := by
    by_cases hsign : d.unscaled < 0
    · rw [withSign, if_pos (decide_eq_true hsign)]
      omega
    · rw [withSign, if_neg (by simpa using hsign)]
      omega
  rw [h.read?_chars, Option.bind_some, Numeral.decimal?]
  simp only [Option.isSome_none, Bool.false_eq_true, if_false, hfraction, hvalue, hunscaled,
    h.length_eq]

theorem HasParts.char_cases {d : Decimal} {whole fraction : List Char}
    (h : d.HasParts whole fraction) {c : Char} (hc : c ∈ d.chars) :
    c.isDigit = true ∨ c = '-' ∨ c = '.' := by
  rw [h.chars_eq, List.mem_append, List.mem_append] at hc
  rcases hc with hsign | hwhole | htail
  · split at hsign
    · exact .inr (.inl (List.mem_singleton.1 hsign))
    · cases hsign
  · exact .inl (h.isWhole.digits c hwhole)
  · split at htail
    · cases htail
    · rcases List.mem_cons.1 htail with rfl | hfraction
      · exact .inr (.inr rfl)
      · exact .inl (h.digits c hfraction)

/-- **The text of a decimal is exact and can be read back.**  It is a minus sign, exactly for
negative numbers, then digits without a superfluous zero in front, and, exactly where the scale is
not zero, a point with as many digits behind it as the scale says.  Its sign, its digits without the
point and the number of digits behind the point give the decimal again.  So two decimals never have
the same text, and there is neither an exponent nor a grouping of digits. -/
theorem chars_read_back (d : Decimal) :
    (∃ whole fraction, d.HasParts whole fraction) ∧
      (Numeral.read? d.chars).bind Numeral.decimal? = some d ∧
      (∀ e : Decimal, e.chars = d.chars ↔ e = d) ∧
      ∀ c ∈ d.chars, c.isDigit = true ∨ c = '-' ∨ c = '.' := by
  obtain ⟨whole, fraction, hparts, -⟩ := d.exists_hasParts
  refine ⟨⟨whole, fraction, hparts⟩, d.read?_bind_decimal?, fun e => ⟨fun h => ?_, fun h => ?_⟩,
    fun c => hparts.char_cases⟩
  · have hread := e.read?_bind_decimal?
    rw [h, d.read?_bind_decimal?] at hread
    exact (Option.some.inj hread).symm
  · rw [h]

/-- The least integer of 128 bits has 39 digits: all of them behind the point, after a zero that is
not superfluous, or all but the first. -/
theorem chars_read_back_least :
    let d : Decimal := ⟨-170141183460469231731687303715884105728, 39⟩
    let e : Decimal := ⟨-170141183460469231731687303715884105728, 38⟩
    d.chars = "-0.170141183460469231731687303715884105728".toList ∧
      e.chars = "-1.70141183460469231731687303715884105728".toList ∧
      (∃ whole fraction, d.HasParts whole fraction) ∧
      (Numeral.read? d.chars).bind Numeral.decimal? = some d ∧ e.chars ≠ d.chars := by
  intro d e
  obtain ⟨hparts, hread, hinj, -⟩ := chars_read_back d
  refine ⟨by decide +kernel, by decide +kernel, hparts, hread, fun h => ?_⟩
  exact absurd ((hinj e).1 h) (by decide)

end Decimal

end ExternalTable
