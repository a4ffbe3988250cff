import ExternalTable.Text.Digits

/-!
# Calendar values

Dates of the proleptic Gregorian calendar, times of day with nanoseconds, and timestamps, together
with the text under which they travel.

* `Date`, `TimeOfDay`, `Timestamp`: valid by construction; `ofYearMonthDay?` and `ofSeconds?` check;
* `Date.chars`: year, month and day, joined by hyphens;
* `TimeOfDay.chars`: hours, minutes and seconds, and a fraction of three, six or nine digits if any;
* `Timestamp.chars`: the date and the time with a space between them.

A leap second is the last second of its minute with a thousand million nanoseconds or more; it is
written as second 60.
-/

namespace ExternalTable

/-- Whether a year of the proleptic Gregorian calendar has a 29th of February. -/
def isLeapYear (year : Int) : Bool :=
  year % 4 == 0 && (year % 100 != 0 || year % 400 == 0)

/-- How many days a month has. -/
def daysInMonth (year : Int) : Nat → Nat
  | 2 => if isLeapYear year then 29 else 28
  | 4 | 6 | 9 | 11 => 30
  | _ => 31

/-- No month has more than 31 days. -/
theorem daysInMonth_le (year : Int) (month : Nat) : daysInMonth year month ≤ 31 := by
  unfold daysInMonth
  split <;> (try split) <;> decide

/-- A day of the calendar.  Years count through zero into negative numbers. -/
structure Date where
  year : Int
  month : Nat
  day : Nat
  month_range : 1 ≤ month ∧ month ≤ 12
  day_range : 1 ≤ day ∧ day ≤ daysInMonth year month
  deriving DecidableEq

/-- A time of day: whole seconds since midnight, and nanoseconds.  Nanoseconds reach beyond one
second only in the last second of a minute. -/
structure TimeOfDay where
  seconds : Nat
  nanos : Nat
  seconds_lt : seconds < 86400
  nanos_lt : nanos < 2000000000
  leap_second : 1000000000 ≤ nanos → seconds % 60 = 59
  deriving DecidableEq

/-- A date with a time of day. -/
structure Timestamp where
  date : Date
  time : TimeOfDay
  deriving DecidableEq

namespace Date

/-- The date of a year, a month and a day, if the calendar has it. -/
def ofYearMonthDay? (year : Int) (month day : Nat) : Option Date :=
  if hm : 1 ≤ month ∧ month ≤ 12 then
    if hd : 1 ≤ day ∧ day ≤ daysInMonth year month then
      some ⟨year, month, day, hm, hd⟩
    else
      none
  else
    none

/-- A year: four digits from 0 to 9999, and otherwise a sign and at least four digits. -/
def yearChars (year : Int) : List Char :=
  if 0 ≤ year ∧ year ≤ 9999 then
    Digits.padded 4 year.toNat
  else
    (if year < 0 then '-' else '+') :: Digits.padded 4 year.natAbs

/-- The text of a date. -/
def chars (d : Date) : List Char :=
  yearChars d.year ++ '-' :: Digits.padded 2 d.month ++ '-' :: Digits.padded 2 d.day

end Date

namespace TimeOfDay

/-- The time of day of a count of seconds and nanoseconds, if the clock shows it. -/
def ofSeconds? (seconds nanos : Nat) : Option TimeOfDay :=
  if hs : seconds < 86400 then
    if hn : nanos < 2000000000 then
      if hl : 1000000000 ≤ nanos → seconds % 60 = 59 then
        some ⟨seconds, nanos, hs, hn, hl⟩
      else
        none
    else
      none
  else
    none

/-- Whether the time lies in a leap second. -/
def isLeapSecond (t : TimeOfDay) : Bool :=
  decide (1000000000 ≤ t.nanos)

/-- The second within its minute, 60 in a leap second. -/
def second (t : TimeOfDay) : Nat :=
  t.seconds % 60 + if t.isLeapSecond then 1 else 0

/-- The nanoseconds within the second, leap or not. -/
def subsecond (t : TimeOfDay) : Nat :=
  if t.isLeapSecond then t.nanos - 1000000000 else t.nanos

/-- A fraction of a second: nothing for none, and otherwise as few groups of three digits as show
every nanosecond. -/
def fractionChars (nanos : Nat) : List Char :=
  if nanos = 0 then
    []
  else if nanos % 1000000 = 0 then
    '.' :: Digits.padded 3 (nanos / 1000000)
  else if nanos % 1000 = 0 then
    '.' :: Digits.padded 6 (nanos / 1000)
  else
    '.' :: Digits.padded 9 nanos

/-- The text of a time of day. -/
def chars (t : TimeOfDay) : List Char :=
  Digits.padded 2 (t.seconds / 3600) ++ ':' :: Digits.padded 2 (t.seconds / 60 % 60)
    ++ ':' :: Digits.padded 2 t.second ++ fractionChars t.subsecond

end TimeOfDay

/-- The text of a timestamp. -/
def Timestamp.chars (t : Timestamp) : List Char :=
  t.date.chars ++ ' ' :: t.time.chars

end ExternalTable
