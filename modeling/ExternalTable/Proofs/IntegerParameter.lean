import Mathlib.Data.List.TakeWhile
import ExternalTable.Proofs.Marker
import ExternalTable.Proofs.WholeDouble
import ExternalTable.Scan.Request

/-!
# Integers as parameters

An integer that a request gives as a parameter, written in plain decimal, is bound as an integer in
plain decimal.  It is the same one if it has 64 bits or few significant digits.  Any other comes as
one with the same nearest floating-point number.

* `Numeral.int?`, `read?_signedDigits`: integers as they are written;
* `exists_literal_of_fits`, `exists_literal_of_float`: the literals of integers with and without 64
  bits;
* `Request.written`: the parameters of a document by their syntax;
* `integer_parameter_bound`: the main statement.
-/

namespace ExternalTable

/-- A natural number with a sign. -/
def withSign (negative : Bool) (n : Nat) : Int :=
  if negative then -(n : Int) else n

/-- The decimal text of a natural number with a sign, which a zero may have too. -/
def signedDigits (negative : Bool) (n : Nat) : List Char :=
  if negative then '-' :: Digits.ofNat n else Digits.ofNat n

/-- The integers of 64 bits, with the sign among these or without a sign. -/
def FitsWord (n : Int) : Prop :=
  -(twoPow 63 : Int) ≤ n ∧ n < twoPow 64

/-- The integers of at most fifteen significant digits. -/
def IsShort (n : Int) : Prop :=
  ∃ k e, k < tenPow 15 ∧ n.natAbs = k * tenPow e

namespace Json

/-! ### Numbers as they are written -/

/-- The integer that a number is if it is written without a point and without an exponent. -/
def Numeral.int? (ν : Numeral) : Option Int :=
  if ν.fraction.isSome || ν.exponent.isSome then none
  else some (withSign ν.negative (Digits.value ν.whole))

theorem readMagnitude?_of_isWhole {t : List Char} (ht : Fragment.IsWhole t) (negative : Bool) :
    Numeral.readMagnitude? negative t = some ⟨negative, t, none, none⟩ := by
  have hsplit : Numeral.splitDigits t = (t, []) := by
    rw [Numeral.splitDigits, List.takeWhile_eq_self_iff.2 ht.digits,
      List.dropWhile_eq_nil_iff.2 ht.digits]
  unfold Numeral.readMagnitude?
  rw [hsplit]
  split
  · next h =>
    cases h
    exact absurd rfl ht.ne_nil
  · next h =>
    cases h
    exact absurd (ht.leading rfl) (by simp)
  · next h => cases h
  · next h =>
    cases h
    rfl

theorem read?_signedDigits (negative : Bool) (n : Nat) :
    Numeral.read? (signedDigits negative n) = some ⟨negative, Digits.ofNat n, none, none⟩ := by
  have hwhole := Fragment.isWhole_ofNat n
  cases negative with
  | true => exact readMagnitude?_of_isWhole hwhole true
  | false =>
    rw [signedDigits, if_neg (by simp), Numeral.read?]
    · exact readMagnitude?_of_isWhole hwhole false
    · intro rest hrest
      have := hwhole.digits '-' (by simp [hrest])
      exact absurd this (by decide)

/-- The width does not matter to whole numbers. -/
theorem nearestDouble?_whole (n width : Nat) :
    nearestDouble? n width 0 =
      if n = 0 then some 0
      else if doubleOfQuotient n 1 < BinaryFormat.double.topExponent * twoPow 52 then
        some (doubleOfQuotient n 1)
      else none := by
  have hwidth : ¬ (0 : Int) + width < -400 := by omega
  unfold nearestDouble?
  split_ifs <;> simp_all

theorem float?_whole (negative : Bool) (whole : List Char) :
    Numeral.float? ⟨negative, whole, none, none⟩ =
      (nearestDouble? (Digits.value whole) 0 0).map fun bits => .float (signed negative bits) := by
  unfold Numeral.float?
  simp [nearestDouble?_whole]

/-! ### Arrays -/

theorem jsonAll?_cons {item : Raw} {items : List Raw} {levels : Nat} {js : List Json}
    (h : Raw.jsonAll? levels (item :: items) = some js) :
    ∃ j rest, item.json? levels = some j ∧ Raw.jsonAll? levels items = some rest ∧
      js = j :: rest := by
  rw [Raw.jsonAll?] at h
  cases hitem : item.json? levels with
  | none => simp [hitem] at h
  | some j =>
    simp only [hitem, Option.map_eq_some_iff] at h
    obtain ⟨rest, hrest, rfl⟩ := h
    exact ⟨j, rest, rfl, hrest, rfl⟩

end Json

/-! ### Literals -/

open Json BinaryFormat

/-- The literal of an integer of 64 bits, unless it is a negative zero. -/
theorem exists_literal_of_fits {negative : Bool} {whole : List Char} {j : Json}
    (hj : Numeral.json? ⟨negative, whole, none, none⟩ = some j)
    (hfits : FitsWord (withSign negative (Digits.value whole)))
    (hzero : negative = true → 0 < Digits.value whole) :
    ∃ v, j.value? = some v ∧
      ∀ d, v.literal d = .ok (signedDigits negative (Digits.value whole)) := by
  obtain ⟨n, hn⟩ : ∃ n, n = Digits.value whole := ⟨_, rfl⟩
  have h63 : twoPow 63 = 9223372036854775808 := rfl
  have h64 : twoPow 64 = 18446744073709551616 := rfl
  unfold FitsWord withSign at hfits
  unfold Numeral.json? at hj
  rw [← hn, h63, h64] at hfits
  rw [← hn] at hzero ⊢
  simp only [Option.isSome_none, Bool.or_self, Bool.false_eq_true, if_false, ← hn, h63, h64] at hj
  cases negative with
  | true =>
    have hpos := hzero rfl
    have hrange : 0 < n ∧ n ≤ 9223372036854775808 := ⟨hpos, by simp at hfits; omega⟩
    rw [if_pos rfl, if_pos hrange] at hj
    cases hj
    have hint : (Int64.ofInt (-(n : Int))).toInt = -(n : Int) :=
      Int64.toInt_ofInt_of_le (by omega) (by omega)
    refine ⟨_, rfl, fun d => ?_⟩
    show Except.ok (Digits.ofInt (Int64.ofInt (-(n : Int))).toInt) = _
    rw [hint, Digits.ofInt, if_pos (by omega), Int.natAbs_neg, Int.natAbs_natCast]
    rfl
  | false =>
    simp only [Bool.false_eq_true, if_false] at hj hfits
    split_ifs at hj with hlow hhigh
    · cases hj
      have hint : (Int64.ofNat n).toInt = n := Int64.toInt_ofNat_of_lt hlow
      refine ⟨_, rfl, fun d => ?_⟩
      show Except.ok (Digits.ofInt (Int64.ofNat n).toInt) = _
      rw [hint, Digits.ofInt, if_neg (by omega), Int.natAbs_natCast]
      rfl
    · cases hj
      have hnat : n.toUInt64.toNat = n := UInt64.toNat_ofNat_of_lt' hhigh
      refine ⟨_, rfl, fun d => ?_⟩
      show Except.ok (Digits.ofNat n.toUInt64.toNat) = _
      rw [hnat]
      rfl
    · omega

theorem floatLiteral_zero (negative : Bool) :
    floatLiteral double (signed negative 0).toNat = .ok (signedDigits negative 0) := by
  have hfinite : double.isFinite (signed negative 0).toNat = true := by cases negative <;> decide
  have hsignificand : double.significand (signed negative 0).toNat = 0 := by
    cases negative <;> decide
  have hnegative : double.isNegative (signed negative 0).toNat = negative := by
    cases negative <;> decide
  rw [floatLiteral, if_pos hfinite, floatChars, if_pos hsignificand, hnegative]
  cases negative <;> rfl

theorem floatLiteral_wholeBits {s p : Nat} (hs : IsSignificand s) (hp : 2 ≤ p) (hp' : p < 972)
    (negative : Bool) :
    floatLiteral double (signed negative (wholeBits s p)).toNat =
      .ok (signedDigits negative (wholeInterval s p).shortestNumber) := by
  have hfinite : double.isFinite (signed negative (wholeBits s p)).toNat = true := by
    have htop : double.topExponent = 2047 := rfl
    unfold isFinite
    rw [(parts_wholeBits hs hp' negative).2.1, htop, bne_iff_ne]
    omega
  rw [floatLiteral, if_pos hfinite, floatChars_wholeBits hs hp hp']
  rfl

/-- The literal of a large integer, or of a zero that has become a floating-point number. -/
theorem exists_literal_of_float (negative : Bool) {n bits : Nat} (hn : n = 0 ∨ twoPow 63 ≤ n)
    (hbits : nearestDouble? n 0 0 = some bits) :
    ∃ m, floatLiteral double (signed negative bits).toNat = .ok (signedDigits negative m) ∧
      nearestDouble? m 0 0 = nearestDouble? n 0 0 ∧ (n = 0 → m = 0) ∧
      ∀ k e, k < tenPow 15 → n = k * tenPow e → m = n := by
  rw [nearestDouble?_whole] at hbits
  by_cases hzero : n = 0
  · rw [if_pos hzero, Option.some.injEq] at hbits
    subst hzero hbits
    exact ⟨0, floatLiteral_zero negative, rfl, fun _ => rfl, fun _ _ _ _ => rfl⟩
  · obtain ⟨s, p, hs, hp, hdouble, hholds⟩ := exists_wholeBits (hn.resolve_left hzero)
    have hp2 : 2 ≤ p := by omega
    have hnearest : (wholeInterval s p).holds (wholeInterval s p).shortestNumber = true :=
      Interval.holds_shortestNumber (number_holds hs)
    rw [if_neg hzero, hdouble] at hbits
    split_ifs at hbits with hlt
    rw [Option.some.injEq] at hbits
    subst hbits
    refine ⟨(wholeInterval s p).shortestNumber,
      floatLiteral_wholeBits hs hp2 ((wholeBits_lt_iff hs).1 hlt) negative, ?_,
      fun h => absurd h hzero, ?_⟩
    · rw [nearestDouble?_whole, nearestDouble?_whole, if_neg (ne_zero_of_holds hs hnearest),
        if_neg hzero, hdouble, doubleOfQuotient_of_holds hs hp2 hnearest]
    · rintro k e hk rfl
      exact shortestNumber_eq hs hk hholds

/-- Without 64 bits, and for a negative zero, an integer is read as a floating-point number. -/
theorem json?_eq_float? {negative : Bool} {whole : List Char}
    (h : ¬ (FitsWord (withSign negative (Digits.value whole)) ∧
      (negative = true → 0 < Digits.value whole))) :
    Numeral.json? ⟨negative, whole, none, none⟩ = Numeral.float? ⟨negative, whole, none, none⟩ ∧
      (Digits.value whole = 0 ∨ twoPow 63 ≤ Digits.value whole) := by
  have h63 : twoPow 63 = 9223372036854775808 := rfl
  have h64 : twoPow 64 = 18446744073709551616 := rfl
  unfold FitsWord withSign at h
  unfold Numeral.json?
  rw [h63, h64] at h
  rw [h63, h64]
  generalize Digits.value whole = n at *
  cases negative with
  | true =>
    simp only [if_true, true_implies, Option.isSome_none, Bool.or_self, Bool.false_eq_true,
      if_false] at h ⊢
    have hrange : ¬ (0 < n ∧ n ≤ 9223372036854775808) := by omega
    rw [if_neg hrange]
    exact ⟨rfl, by omega⟩
  | false =>
    simp only [Bool.false_eq_true, if_false, false_implies, and_true, Option.isSome_none,
      Bool.or_self] at h ⊢
    rw [if_neg (by omega), if_neg (by omega)]
    exact ⟨rfl, by omega⟩

/-- An integer has a literal in plain decimal, and the same in every dialect. -/
theorem exists_literal {ν : Numeral} {n : Int} {j : Json} (hn : ν.int? = some n)
    (hj : ν.json? = some j) :
    ∃ v literal μ m, j.value? = some v ∧ (∀ d, v.literal d = .ok literal) ∧
      Numeral.read? literal = some μ ∧ μ.int? = some m ∧ μ.float? = ν.float? ∧
      (FitsWord n ∨ IsShort n → m = n) := by
  obtain ⟨negative, whole, rfl, rfl⟩ : ∃ negative whole, ν = ⟨negative, whole, none, none⟩ ∧
      n = withSign negative (Digits.value whole) := by
    obtain ⟨negative, whole, fraction, exponent⟩ := ν
    unfold Numeral.int? at hn
    cases fraction <;> cases exponent <;> simp_all
  have hread : ∀ m, (Numeral.mk negative (Digits.ofNat m) none none).int? =
      some (withSign negative m) := fun m => by
    simp [Numeral.int?, Digits.value_ofNat]
  by_cases hword : FitsWord (withSign negative (Digits.value whole)) ∧
      (negative = true → 0 < Digits.value whole)
  · obtain ⟨v, hv, hliteral⟩ := exists_literal_of_fits hj hword.1 hword.2
    refine ⟨v, _, _, _, hv, hliteral, read?_signedDigits _ _, hread _, ?_, fun _ => rfl⟩
    rw [float?_whole, float?_whole, Digits.value_ofNat]
  · obtain ⟨hfloat, hrange⟩ := json?_eq_float? hword
    rw [hfloat, float?_whole, Option.map_eq_some_iff] at hj
    obtain ⟨bits, hbits, rfl⟩ := hj
    obtain ⟨m, hliteral, hsame, hzero, hshort⟩ :=
      exists_literal_of_float negative hrange hbits
    refine ⟨_, _, _, _, rfl, fun _ => hliteral, read?_signedDigits _ _, hread _, ?_, ?_⟩
    · rw [float?_whole, float?_whole, Digits.value_ofNat, hsame]
    · rintro (hfits | ⟨k, e, hk, hdigits⟩)
      · have hnothing : Digits.value whole = 0 := by
          by_contra hne
          exact hword ⟨hfits, fun _ => Nat.pos_of_ne_zero hne⟩
        rw [hzero hnothing, hnothing]
      · have hmagnitude : (withSign negative (Digits.value whole)).natAbs = Digits.value whole := by
          unfold withSign
          split_ifs <;> omega
        rw [hshort k e hk (hmagnitude.symm.trans hdigits)]

namespace Scan

namespace Request

/-- The parameters of a document as they are written. -/
def written (document : String) : List Raw :=
  match Raw.read? document.toList with
  | none => []
  | some raw =>
      match Record.fields? fieldNames false raw with
      | some [_, _, _, some (.array items)] => items
      | _ => []

theorem exists_json_of_jsonAll? {levels : Nat} {items : List Raw} {js : List Json}
    (h : Raw.jsonAll? levels items = some js) {i : Nat} {item : Raw} (hi : items[i]? = some item) :
    ∃ j, item.json? levels = some j ∧ js[i]? = some j := by
  induction items generalizing js i with
  | nil => simp at hi
  | cons first items ih =>
    obtain ⟨j, rest, hfirst, hrest, rfl⟩ := jsonAll?_cons h
    cases i with
    | zero =>
      rw [List.getElem?_cons_zero, Option.some.injEq] at hi
      exact ⟨j, hi ▸ hfirst, rfl⟩
    | succ i => exact ih hrest hi

theorem exists_value_of_parameters {index : Nat} {js : List Json} {vs : List Value}
    (h : parameters index js = .ok vs) {i : Nat} {j : Json} (hi : js[i]? = some j) :
    ∃ v, j.value? = some v ∧ vs[i]? = some v := by
  induction js generalizing index vs i with
  | nil => simp at hi
  | cons first js ih =>
    rw [parameters] at h
    cases hfirst : first.value? with
    | none => simp [hfirst] at h
    | some v =>
      simp only [hfirst] at h
      cases hrest : parameters (index + 1) js with
      | error e => simp [hrest, Except.map] at h
      | ok rest =>
        simp only [hrest, Except.map, Except.ok.injEq] at h
        subst h
        cases i with
        | zero =>
          rw [List.getElem?_cons_zero, Option.some.injEq] at hi
          exact ⟨v, hi ▸ hfirst, rfl⟩
        | succ i => exact ih hrest hi

theorem jsonAll?_of_documents? {items : List Raw} {js : List Json}
    (h : Record.documents? (.array items) = some js) :
    Raw.jsonAll? (Record.maxNesting - 2) items = some js := by
  have harray : (Raw.array items).json? (Record.maxNesting - 1) =
      (Raw.jsonAll? (Record.maxNesting - 2) items).map .array := by
    rw [show Record.maxNesting - 1 = Record.maxNesting - 2 + 1 from rfl, Raw.json?]
  unfold Record.documents? at h
  rw [harray] at h
  cases hitems : Raw.jsonAll? (Record.maxNesting - 2) items with
  | none => simp [hitems] at h
  | some js' => simpa [hitems] using h

/-- What is written as parameters is what a request takes its parameters from. -/
theorem jsonAll?_written {document : String} {table : String} {columns filters : List String}
    {values : List Json} (h : fields? document.toList = some (table, columns, filters, values))
    (hne : written document ≠ []) :
    Raw.jsonAll? (Record.maxNesting - 2) (written document) = some values := by
  unfold fields? at h
  unfold written at hne ⊢
  cases hraw : Raw.read? document.toList with
  | none => simp [hraw] at hne
  | some raw =>
    simp only [hraw] at h hne ⊢
    split at hne
    · next table' columns' filters' items hfields =>
      simp only [hfields] at h ⊢
      obtain ⟨_, -, h⟩ := Option.bind_eq_some_iff.1 h
      obtain ⟨_, -, h⟩ := Option.bind_eq_some_iff.1 h
      obtain ⟨_, -, h⟩ := Option.bind_eq_some_iff.1 h
      obtain ⟨found, hfound, h⟩ := Option.bind_eq_some_iff.1 h
      cases h
      exact jsonAll?_of_documents? hfound
    · exact absurd rfl hne

/-- A parameter of a request is the value of what is written in its document. -/
theorem exists_param_of_ofJson {document : String} {q : Request} (hq : ofJson document = .ok q)
    {i : Nat} {item : Raw} (hi : (written document)[i]? = some item) :
    ∃ j v, item.json? (Record.maxNesting - 2) = some j ∧ j.value? = some v ∧
      q.params[i]? = some v := by
  have hne : written document ≠ [] := by
    intro hnil
    simp [hnil] at hi
  unfold ofJson at hq
  cases hfields : fields? document.toList with
  | none => simp [hfields] at hq
  | some fields =>
    obtain ⟨table, columns, filters, values⟩ := fields
    simp only [hfields] at hq
    cases hvalues : parameters 0 values with
    | error e => simp [hvalues] at hq
    | ok vs =>
      simp only [hvalues, Except.ok.injEq] at hq
      subst hq
      obtain ⟨j, hj, hat⟩ := exists_json_of_jsonAll? (jsonAll?_written hfields hne) hi
      obtain ⟨v, hv, hparam⟩ := exists_value_of_parameters hvalues hat
      exact ⟨j, v, hj, hv, hparam⟩

/-- An integer reaches every fragment that refers to it as an integer in plain decimal.  This is the
same integer if it has 64 bits or at most fifteen significant digits, and one with the same nearest
floating-point number in any case. -/
theorem integer_parameter_bound {document : String} {q : Request} (hq : ofJson document = .ok q)
    {i : Nat} {ν : Numeral} {n : Int} (hi : (written document)[i]? = some (.number ν))
    (hn : ν.int? = some n) :
    ∃ literal μ m, Numeral.read? literal = some μ ∧ μ.int? = some m ∧ μ.float? = ν.float? ∧
      (FitsWord n ∨ IsShort n → m = n) ∧
      (∀ d, Fragment.parameter d q.params i = .ok literal) ∧
      ∀ d before digits after b bound, d.identifierQuote ≠ some Fragment.markerOpen →
        digits ≠ [] → (∀ c ∈ digits, c.isDigit = true) → Digits.value digits = i →
        Fragment.bind d q.params before = .ok b →
        Fragment.bind d q.params
          (before ++ (Fragment.markerOpen :: digits ++ Fragment.markerClose :: after)) = .ok bound →
        ∃ rest, Fragment.bind d q.params after = .ok rest ∧ bound = b ++ literal ++ rest := by
  obtain ⟨j, v, hj, hv, hparam⟩ := exists_param_of_ofJson hq hi
  obtain ⟨v', literal, μ, m, hv', hliteral, hread, hm, hfloat, hexact⟩ := exists_literal hn hj
  cases hv.symm.trans hv'
  have hparameter : ∀ d, Fragment.parameter d q.params i = .ok literal := fun d => by
    rw [Fragment.parameter, hparam]
    simp only [hliteral]
  refine ⟨literal, μ, m, hread, hm, hfloat, hexact, hparameter, ?_⟩
  intro d before digits after b bound hd hne hdigits hindex hbefore hbound
  obtain ⟨text, rest, htext, hrest, rfl⟩ :=
    Fragment.exists_of_bind_marker hd hbefore hne hdigits hbound
  rw [hindex, hparameter, Except.ok.injEq] at htext
  exact ⟨rest, hrest, htext ▸ rfl⟩

/-! ### Single integers -/

theorem fields?_values (values : Raw) :
    Record.fields? fieldNames false (.object [("question_mark_values".toList.map .char, values)]) =
      some [none, none, none, some values] := by
  rfl

/-- A document that gives one number as a parameter, and nothing else. -/
theorem ofJson_of_number {document : String} {ν : Numeral} {j : Json} {v : Value}
    (hraw : Raw.read? document.toList =
      some (.object [("question_mark_values".toList.map .char, .array [.number ν])]))
    (hj : ν.json? = some j) (hv : j.value? = some v) :
    ofJson document = .ok ⟨"", [], [], [v]⟩ ∧ written document = [.number ν] := by
  have hdocuments : Record.documents? (.array [.number ν]) = some [j] := by
    simp [Record.documents?, Record.maxNesting, Raw.json?, Raw.jsonAll?, hj]
  constructor
  · unfold ofJson fields?
    simp only [hraw, fields?_values, Record.withDefault?, hdocuments]
    simp [parameters, hv, Except.map]
  · unfold written
    simp only [hraw, fields?_values]

/-- An integer that is no floating-point number reaches the statement as it is. -/
theorem integer_parameter_bound_odd :
    let document := "\x7b\"question_mark_values\":[9007199254740993]\x7d"
    let ν : Numeral := ⟨false, "9007199254740993".toList, none, none⟩
    ∃ q literal rest, ofJson document = .ok q ∧ (written document)[0]? = some (.number ν) ∧
      ν.int? = some 9007199254740993 ∧
      Fragment.parameter .generic q.params 0 = .ok literal ∧ literal = "9007199254740993".toList ∧
      Fragment.bind .generic q.params [] = .ok rest ∧
      "id=9007199254740993".toList = "id=".toList ++ literal ++ rest := by
  have hraw : Raw.read? "\x7b\"question_mark_values\":[9007199254740993]\x7d".toList =
      some (.object [("question_mark_values".toList.map .char,
        .array [.number ⟨false, "9007199254740993".toList, none, none⟩])]) := by
    rfl
  have hvalue : Digits.value "9007199254740993".toList = 9007199254740993 := by decide +kernel
  have hint : Numeral.int? ⟨false, "9007199254740993".toList, none, none⟩ =
      some 9007199254740993 := by
    rw [Numeral.int?, hvalue]
    rfl
  have hj : Numeral.json? ⟨false, "9007199254740993".toList, none, none⟩ =
      some (.int 9007199254740993) := by
    have hlt : 9007199254740993 < twoPow 63 := by decide +kernel
    simp only [Numeral.json?, hvalue]
    simp [hlt]
  obtain ⟨hq, hwritten⟩ := ofJson_of_number hraw hj rfl
  have hfirst := congrArg (·[0]?) hwritten
  obtain ⟨literal, μ, m, -, -, -, -, hparameter, hbind⟩ :=
    integer_parameter_bound hq hfirst hint
  have hliteral : literal = "9007199254740993".toList := by
    have hconcrete : Fragment.parameter .generic [.int 9007199254740993] 0 =
        .ok "9007199254740993".toList := by decide +kernel
    exact Except.ok.inj ((hparameter .generic).symm.trans hconcrete)
  obtain ⟨rest, hrest, hbound⟩ :=
    hbind .generic "id=".toList "0".toList [] "id=".toList "id=9007199254740993".toList
      (by decide) (by decide) (by decide) (by decide) (by decide +kernel) (by decide +kernel)
  exact ⟨_, literal, rest, hq, hfirst, hint, hparameter .generic, hliteral, hrest, hbound⟩

/-- The least integer beyond 64 bits reaches the statement as another one. -/
theorem integer_parameter_rounded :
    let document := "\x7b\"question_mark_values\":[18446744073709551616]\x7d"
    let ν : Numeral := ⟨false, "18446744073709551616".toList, none, none⟩
    ∃ q, ofJson document = .ok q ∧ written document = [.number ν] ∧
      ν.int? = some 18446744073709551616 ∧
      Fragment.parameter .generic q.params 0 = .ok "18446744073709552000".toList ∧
      (Numeral.read? "18446744073709552000".toList).bind Numeral.int? =
        some 18446744073709552000 ∧
      Fragment.bind .generic q.params "id=\x7b0\x7d".toList =
        .ok "id=18446744073709552000".toList := by
  have hraw : Raw.read? "\x7b\"question_mark_values\":[18446744073709551616]\x7d".toList =
      some (.object [("question_mark_values".toList.map .char,
        .array [.number ⟨false, "18446744073709551616".toList, none, none⟩])]) := by
    rfl
  have hvalue : Digits.value "18446744073709551616".toList = 18446744073709551616 := by
    decide +kernel
  have hword : ¬ FitsWord (withSign false 18446744073709551616) := by
    unfold FitsWord
    decide +kernel
  have hj : Numeral.json? ⟨false, "18446744073709551616".toList, none, none⟩ =
      some (.float 4895412794951729152) := by
    have hnearest : nearestDouble? 18446744073709551616 0 0 = some 4895412794951729152 := by
      decide +kernel
    have hsigned : signed false 4895412794951729152 = 4895412794951729152 := by decide +kernel
    rw [(json?_eq_float? (fun h => hword (hvalue ▸ h.1))).1, float?_whole, hvalue, hnearest,
      Option.map_some, hsigned]
  obtain ⟨hq, hwritten⟩ := ofJson_of_number hraw hj rfl
  refine ⟨_, hq, hwritten, ?_, by decide +kernel, by decide +kernel, by decide +kernel⟩
  rw [Numeral.int?, hvalue]
  rfl

end Request

end Scan

end ExternalTable
