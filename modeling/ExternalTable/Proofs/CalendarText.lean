import Mathlib.Data.List.Basic
import Mathlib.Tactic.NormNum
import ExternalTable.Column.Conform
import ExternalTable.Proofs.Numeral

/-!
# Calendar values in columns of text

The text of a calendar value tells the value, whatever the year and the nanosecond, and in a leap
second too.

Years and fractions of a second have no fixed width.  Both are read back by a function of the text
alone, and everything else stands at a fixed place, counted from the front in a time and from the
end in a date.

* `padded_append_inj`: numbers of a fixed width are told by the text in front of anything;
* `Date.yearOf`, `Date.chars_inj`: years, and dates;
* `TimeOfDay.nanosOf`, `TimeOfDay.chars_inj`: fractions of a second, and times of day;
* `calendar_text_inj`: the main statement.
-/

namespace ExternalTable

open Fragment (isDigit_padded)

/-! ### Numbers of a fixed width -/

theorem length_padded {width n : Nat} (hwidth : 0 < width) (hn : n < 10 ^ width) :
    (Digits.padded width n).length = width := by
  have hle : (Digits.ofNat n).length ≤ width :=
    (Nat.length_toDigits_le_iff (by decide) hwidth).2 hn
  rw [Digits.padded, List.length_append, List.length_replicate]
  omega

theorem padded_inj {width m n : Nat} (h : Digits.padded width m = Digits.padded width n) :
    m = n := by
  have hvalue := congrArg Digits.value h
  rwa [Digits.value_padded, Digits.value_padded] at hvalue

/-- A number of a fixed width is told by a text that begins with it. -/
theorem padded_append_inj {width m n : Nat} {s t : List Char} (hwidth : 0 < width)
    (hm : m < 10 ^ width) (hn : n < 10 ^ width)
    (h : Digits.padded width m ++ s = Digits.padded width n ++ t) : m = n ∧ s = t := by
  have hlength : (Digits.padded width m).length = (Digits.padded width n).length := by
    rw [length_padded hwidth hm, length_padded hwidth hn]
  obtain ⟨hdigits, hrest⟩ := List.append_inj h hlength
  exact ⟨padded_inj hdigits, hrest⟩

/-! ### Dates -/

namespace Date

/-- The year that digits say, after a sign or without one. -/
def yearOf : List Char → Int
  | '-' :: digits => -(Digits.value digits : Int)
  | '+' :: digits => Digits.value digits
  | digits => Digits.value digits

theorem yearOf_of_isDigit {digits : List Char} (h : ∀ c ∈ digits, c.isDigit = true) :
    yearOf digits = Digits.value digits := by
  unfold yearOf
  split
  · exact absurd (h '-' List.mem_cons_self) (by decide)
  · exact absurd (h '+' List.mem_cons_self) (by decide)
  · rfl

/-- Every year is read back, of any length and any sign. -/
theorem yearOf_yearChars (year : Int) : yearOf (yearChars year) = year := by
  unfold yearChars
  split
  · rw [yearOf_of_isDigit fun c hc => isDigit_padded hc, Digits.value_padded]
    omega
  · split
    · rw [yearOf, Digits.value_padded]
      omega
    · rw [yearOf, Digits.value_padded]
      omega

theorem char_cases {d : Date} {c : Char} (hc : c ∈ d.chars) :
    c.isDigit = true ∨ c = '-' ∨ c = '+' := by
  have hyear : c ∈ yearChars d.year → c.isDigit = true ∨ c = '-' ∨ c = '+' := by
    unfold yearChars
    intro h
    split at h
    · exact .inl (isDigit_padded h)
    · rcases List.mem_cons.1 h with hsign | h
      · split at hsign
        · exact .inr (.inl hsign)
        · exact .inr (.inr hsign)
      · exact .inl (isDigit_padded h)
  simp only [chars, List.mem_append, List.mem_cons] at hc
  rcases hc with (h | rfl | h) | rfl | h
  · exact hyear h
  · exact .inr (.inl rfl)
  · exact .inl (isDigit_padded h)
  · exact .inr (.inl rfl)
  · exact .inl (isDigit_padded h)

theorem month_lt (d : Date) : d.month < 10 ^ 2 := by
  have := d.month_range
  omega

theorem day_lt (d : Date) : d.day < 10 ^ 2 := by
  have := d.day_range
  have := daysInMonth_le d.year d.month
  omega

/-- The text of a date tells the date. -/
theorem chars_inj {d e : Date} (h : d.chars = e.chars) : d = e := by
  -- The month and the day have a fixed width, so the text is cut from its end.
  obtain ⟨hfront, hday⟩ := List.append_inj' h (by
    simp only [List.length_cons, length_padded Nat.two_pos (day_lt _)])
  obtain ⟨hyear, hmonth⟩ := List.append_inj' hfront (by
    simp only [List.length_cons, length_padded Nat.two_pos (month_lt _)])
  have hyears := congrArg yearOf hyear
  rw [yearOf_yearChars, yearOf_yearChars] at hyears
  obtain ⟨year, month, day, hm, hd⟩ := d
  obtain ⟨year', month', day', hm', hd'⟩ := e
  cases hyears
  cases padded_inj (List.cons.inj hmonth).2
  cases padded_inj (List.cons.inj hday).2
  rfl

end Date

/-! ### Times of day -/

namespace TimeOfDay

/-- The nanoseconds that a fraction of a second says, of whatever length. -/
def nanosOf (fraction : List Char) : Nat :=
  let digits := fraction.tail
  Digits.value digits * 10 ^ (9 - digits.length)

/-- Every fraction of a second is read back. -/
theorem nanosOf_fractionChars {nanos : Nat} (h : nanos < 10 ^ 9) :
    nanosOf (fractionChars nanos) = nanos := by
  have hread : ∀ {width n : Nat}, 0 < width → n < 10 ^ width →
      nanosOf ('.' :: Digits.padded width n) = n * 10 ^ (9 - width) := by
    intro width n hwidth hn
    rw [nanosOf, List.tail_cons, Digits.value_padded, length_padded hwidth hn]
  unfold fractionChars
  split
  · next hzero => rw [hzero]; rfl
  · split
    · rw [hread (by decide) (by omega)]
      omega
    · split
      · rw [hread (by decide) (by omega)]
        omega
      · rw [hread (by decide) h]
        omega

/-- A time shows its second and its nanoseconds, or second 60 and the nanoseconds beyond the first
thousand million. -/
theorem second_cases (t : TimeOfDay) :
    (t.nanos < 10 ^ 9 ∧ t.second = t.seconds % 60 ∧ t.subsecond = t.nanos) ∨
      (10 ^ 9 ≤ t.nanos ∧ t.seconds % 60 = 59 ∧ t.second = 60 ∧
        t.subsecond = t.nanos - 10 ^ 9) := by
  unfold second subsecond
  cases hleap : t.isLeapSecond with
  | false =>
    have hnanos : ¬ 1000000000 ≤ t.nanos := of_decide_eq_false hleap
    exact .inl ⟨by omega, by simp, by simp⟩
  | true =>
    have hnanos : 1000000000 ≤ t.nanos := of_decide_eq_true hleap
    have hlast := t.leap_second hnanos
    exact .inr ⟨by omega, hlast, by simp [hlast], by simp⟩

/-- What a time shows tells the time, in a leap second too: no other time shows second 60. -/
theorem eq_of_shown {t u : TimeOfDay} (hhour : t.seconds / 3600 = u.seconds / 3600)
    (hminute : t.seconds / 60 % 60 = u.seconds / 60 % 60) (hsecond : t.second = u.second)
    (hsubsecond : t.subsecond = u.subsecond) : t = u := by
  have hnanos : t.nanos = u.nanos ∧ t.seconds % 60 = u.seconds % 60 := by
    have := t.second_cases
    have := u.second_cases
    omega
  obtain ⟨hnanos, hsame⟩ := hnanos
  have hseconds : t.seconds = u.seconds := by omega
  obtain ⟨seconds, nanos, hs, hn, hl⟩ := t
  obtain ⟨seconds', nanos', hs', hn', hl'⟩ := u
  cases hseconds
  cases hnanos
  rfl

/-- The text of a time of day tells the time. -/
theorem chars_inj {t u : TimeOfDay} (h : t.chars = u.chars) : t = u := by
  have hhour : ∀ t : TimeOfDay, t.seconds / 3600 < 10 ^ 2 := fun t => by
    have := t.seconds_lt
    omega
  have hminute : ∀ t : TimeOfDay, t.seconds / 60 % 60 < 10 ^ 2 := fun t => by omega
  have hsecond : ∀ t : TimeOfDay, t.second < 10 ^ 2 := fun t => by
    have := t.second_cases
    omega
  have hsubsecond : ∀ t : TimeOfDay, t.subsecond < 10 ^ 9 := fun t => by
    have := t.second_cases
    have := t.nanos_lt
    omega
  simp only [chars, List.append_assoc, List.cons_append] at h
  obtain ⟨hhours, h⟩ := padded_append_inj Nat.two_pos (hhour t) (hhour u) h
  obtain ⟨hminutes, h⟩ :=
    padded_append_inj Nat.two_pos (hminute t) (hminute u) (List.cons.inj h).2
  obtain ⟨hseconds, h⟩ :=
    padded_append_inj Nat.two_pos (hsecond t) (hsecond u) (List.cons.inj h).2
  have hfractions := congrArg nanosOf h
  rw [nanosOf_fractionChars (hsubsecond t), nanosOf_fractionChars (hsubsecond u)] at hfractions
  exact eq_of_shown hhours hminutes hseconds hfractions

theorem char_cases {t : TimeOfDay} {c : Char} (hc : c ∈ t.chars) :
    c.isDigit = true ∨ c = ':' ∨ c = '.' := by
  have hfraction : c ∈ fractionChars t.subsecond → c.isDigit = true ∨ c = '.' := by
    unfold fractionChars
    intro h
    split at h
    · cases h
    · repeat' split at h
      all_goals
        rcases List.mem_cons.1 h with hpoint | h
        · exact .inr hpoint
        · exact .inl (isDigit_padded h)
  simp only [chars, List.mem_append, List.mem_cons] at hc
  rcases hc with ((h | rfl | h) | rfl | h) | h
  · exact .inl (isDigit_padded h)
  · exact .inr (.inl rfl)
  · exact .inl (isDigit_padded h)
  · exact .inr (.inl rfl)
  · exact .inl (isDigit_padded h)
  · exact (hfraction h).imp_right .inr

end TimeOfDay

/-! ### Timestamps -/

theorem Date.notMem_chars (d : Date) : ' ' ∉ d.chars ∧ ':' ∉ d.chars :=
  ⟨fun h => by simpa using Date.char_cases h, fun h => by simpa using Date.char_cases h⟩

theorem TimeOfDay.notMem_chars (t : TimeOfDay) : ' ' ∉ t.chars :=
  fun h => by simpa using TimeOfDay.char_cases h

theorem TimeOfDay.mem_chars (t : TimeOfDay) : ':' ∈ t.chars := by
  simp [chars]

/-- The text of a timestamp tells the date and the time. -/
theorem Timestamp.chars_inj {t u : Timestamp} (h : t.chars = u.chars) : t = u := by
  -- The only space stands between the date and the time.
  have hparts := (List.append_cons_inj_of_notMem t.date.notMem_chars.1 t.time.notMem_chars).1 h
  obtain ⟨hdate, -, htime⟩ := hparts
  obtain ⟨date, time⟩ := t
  obtain ⟨date', time'⟩ := u
  cases Date.chars_inj hdate
  cases TimeOfDay.chars_inj htime
  rfl

theorem Timestamp.mem_chars (t : Timestamp) : ' ' ∈ t.chars :=
  List.mem_append_right _ List.mem_cons_self

/-! ### Values -/

theorem Date.chars_ne_time (d : Date) (t : TimeOfDay) : d.chars ≠ t.chars :=
  fun h => d.notMem_chars.2 (h ▸ t.mem_chars)

theorem Date.chars_ne_timestamp (d : Date) (t : Timestamp) : d.chars ≠ t.chars :=
  fun h => d.notMem_chars.1 (h ▸ t.mem_chars)

theorem TimeOfDay.chars_ne_timestamp (t : TimeOfDay) (u : Timestamp) : t.chars ≠ u.chars :=
  fun h => t.notMem_chars (h ▸ u.mem_chars)

namespace Value

/-- The calendar values. -/
inductive IsCalendar : Value → Prop
  | date (d : Date) : IsCalendar (.date d)
  | time (t : TimeOfDay) : IsCalendar (.time t)
  | timestamp (t : Timestamp) : IsCalendar (.timestamp t)

theorem conform?_utf8_inj {v w : Value} {s t : List Char}
    (hv : v.conform? .utf8 = some (.text (String.ofList s)))
    (hw : w.conform? .utf8 = some (.text (String.ofList t)))
    (h : v.conform? .utf8 = w.conform? .utf8) : s = t := by
  rw [hv, hw, Option.some.injEq, Value.text.injEq] at h
  exact String.ofList_injective h

/-- **Calendar values travel as text without loss.**  A column of text takes every date, every time
of day and every timestamp, with any year, any nanosecond and leap seconds, and two of them come as
the same text only if they are the same value. -/
theorem calendar_text_inj {v w : Value} (hv : v.IsCalendar) (hw : w.IsCalendar) :
    (∃ text, v.conform? .utf8 = some (.text text)) ∧
      (v.conform? .utf8 = w.conform? .utf8 ↔ v = w) := by
  have htext : ∃ text, v.conform? .utf8 = some (.text text) := by
    cases hv <;> exact ⟨_, rfl⟩
  refine ⟨htext, fun h => ?_, fun h => h ▸ rfl⟩
  cases hv with
  | date d =>
    cases hw with
    | date e => rw [Date.chars_inj (conform?_utf8_inj rfl rfl h)]
    | time u => exact absurd (conform?_utf8_inj rfl rfl h) (d.chars_ne_time u)
    | timestamp u => exact absurd (conform?_utf8_inj rfl rfl h) (d.chars_ne_timestamp u)
  | time t =>
    cases hw with
    | date e => exact absurd (conform?_utf8_inj rfl rfl h) (e.chars_ne_time t).symm
    | time u => rw [TimeOfDay.chars_inj (conform?_utf8_inj rfl rfl h)]
    | timestamp u => exact absurd (conform?_utf8_inj rfl rfl h) (t.chars_ne_timestamp u)
  | timestamp t =>
    cases hw with
    | date e => exact absurd (conform?_utf8_inj rfl rfl h) (e.chars_ne_timestamp t).symm
    | time u => exact absurd (conform?_utf8_inj rfl rfl h) (u.chars_ne_timestamp t).symm
    | timestamp u => rw [Timestamp.chars_inj (conform?_utf8_inj rfl rfl h)]

/-- A moment in the leap second at the end of the year before zero, and the same moment of the second
before. -/
theorem calendar_text_inj_leap :
    let date : Date := ⟨-1, 12, 31, by decide, by decide⟩
    let t : Timestamp := ⟨date, ⟨86399, 1500000000, by decide, by decide, by decide⟩⟩
    let u : Timestamp := ⟨date, ⟨86399, 500000000, by decide, by decide, by decide⟩⟩
    (timestamp t).IsCalendar ∧ (timestamp u).IsCalendar ∧
      t.chars = "-0001-12-31 23:59:60.500".toList ∧ u.chars = "-0001-12-31 23:59:59.500".toList ∧
      (∃ text, (timestamp t).conform? .utf8 = some (.text text)) ∧
      (timestamp t).conform? .utf8 ≠ (timestamp u).conform? .utf8 := by
  intro date t u
  obtain ⟨htext, hinj⟩ := calendar_text_inj (.timestamp t) (.timestamp u)
  refine ⟨.timestamp t, .timestamp u, by decide +kernel, by decide +kernel, htext, fun h => ?_⟩
  exact absurd (Value.timestamp.inj (hinj.1 h)) (by decide)

end Value

end ExternalTable
