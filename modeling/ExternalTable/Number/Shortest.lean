import ExternalTable.Number.Binary
import ExternalTable.Number.Decimal

/-!
# Shortest decimal text of a binary number

A binary floating-point number is written with the fewest digits that read back as the same number,
and of those texts with the one nearest to it.

Every finite binary number is an integer over a power of ten, and so are the ends of the interval of
reals that round to it.  The search therefore runs over natural numbers only: `exactly` gives the
number and the two ends on one decimal scale, and `shortest` looks for a multiple of a power of ten
among the two neighbours of the number, from the coarsest power down.

* `Interval`: a number and the ends of its interval, on one scale;
* `Interval.nearest?`: the nearest multiple of a step within the interval;
* `Interval.shortest`: the result on the coarsest grid of powers of ten that has one;
* `floatChars`: the text of a finite number, always positional.
-/

namespace ExternalTable

/-- A positive number between the ends of the interval that rounds to it.  All three are counted in
units of `10 ^ (-scale)`. -/
structure Interval where
  lower : Nat
  number : Nat
  upper : Nat
  /-- Whether the ends themselves round to the number. -/
  closed : Bool
  scale : Nat
  deriving DecidableEq

namespace Interval

/-- The interval of a finite nonzero number, in quarters of its last place brought to decimal.  An
even significand attracts the ends of its interval. -/
def exactly (f : BinaryFormat) (bits : Nat) : Interval :=
  let quarters := 4 * f.significand bits
  let place := f.place bits - 2
  let grow : Nat → Nat := fun n =>
    if 0 ≤ place then n * twoPow place.toNat else n * fivePow (-place).toNat
  { lower := grow (quarters - if f.isNarrowBelow bits then 1 else 2)
    number := grow quarters
    upper := grow (quarters + 2)
    closed := f.significand bits % 2 == 0
    scale := (-place).toNat }

/-- Whether a number of the interval's units rounds to the interval's number. -/
def holds (i : Interval) (n : Nat) : Bool :=
  if i.closed then decide (i.lower ≤ n ∧ n ≤ i.upper) else decide (i.lower < n ∧ n < i.upper)

/-- How many steps the nearest multiple of `step` in the interval is.  Only the two neighbours of
the number come into question, and of two at the same distance the greater is taken. -/
def nearest? (i : Interval) (step : Nat) : Option Nat :=
  let below := i.number / step
  let above := below + 1
  match i.holds (below * step), i.holds (above * step) with
  | false, false => none
  | true, false => some below
  | false, true => some above
  | true, true =>
      if i.number - below * step < above * step - i.number then some below else some above

/-- The coarsest grid of at most `10 ^ places` with a multiple in the interval: the multiple counted
in steps of the grid, and the exponent of the grid.  The number itself is on the finest grid. -/
def shortestFrom (i : Interval) : Nat → Nat × Nat
  | 0 => (i.number, 0)
  | places + 1 =>
      match i.nearest? (tenPow (places + 1)) with
      | some steps => (steps, places + 1)
      | none => i.shortestFrom places

/-- The shortest decimal of the interval as digits and an exponent of ten. -/
def shortest (i : Interval) : Nat × Int :=
  let (steps, places) := i.shortestFrom ((Digits.ofNat i.number).length - 1)
  if steps % 10 = 0 then
    (steps / 10, (places + 1 : Int) - i.scale)
  else
    (steps, (places : Int) - i.scale)

end Interval

/-- The plain text of a natural number times a power of ten. -/
def positionalChars (digits : Nat) (exponent : Int) : List Char :=
  if 0 ≤ exponent then
    Decimal.magnitude (digits * tenPow exponent.toNat) 0
  else
    Decimal.magnitude digits (-exponent).toNat

/-- The text of a finite binary number: the sign, then the shortest digits, written out without an
exponent.  Whole numbers have no point, and the negative zero keeps its sign. -/
def floatChars (f : BinaryFormat) (bits : Nat) : List Char :=
  let magnitude :=
    if f.significand bits = 0 then
      ['0']
    else
      let (digits, exponent) := (Interval.exactly f bits).shortest
      positionalChars digits exponent
  if f.isNegative bits then '-' :: magnitude else magnitude

end ExternalTable
