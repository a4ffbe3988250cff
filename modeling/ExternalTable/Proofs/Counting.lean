import Mathlib.Algebra.Order.Ring.Nat
import ExternalTable.Metrics.Scope

/-!
# Counters

Every counter shows what the events recorded so far add up to, as long as a counter can show it.

* `Counter`: one of the counters, for the whole engine or for a table;
* `Counter.read`, `Counter.amount`: what it shows, and what an event adds to it;
* `Counter.total`: the amount of several events;
* `Counter.read_recordAll`: a counter shows the total, or the limit beyond it.
-/

namespace ExternalTable.Metrics

theorem bump_zero {n : Nat} (h : n ≤ counterLimit) : bump n 0 = n :=
  Nat.min_eq_right h

/-- The counters of a table, which are zero where nothing was counted. -/
def Totals.ofTable (t : Totals) (table : String) : TableTotals :=
  (t.tables.get? table).getD .zero

theorem Totals.ofTable_onTable (t : Totals) (name table : String)
    (f : TableTotals → TableTotals) :
    (t.onTable name f).ofTable table =
      if name = table then f (t.ofTable table) else t.ofTable table := by
  rw [ofTable, onTable]
  split
  · next h => rw [h, Dictionary.get?_update_self, Option.getD_some, ofTable]
  · next h => rw [Dictionary.get?_update_of_ne _ _ (Ne.symm h), ofTable]

/-- One of the counters. -/
inductive Counter where
  | filtersOffered
  | filtersAccepted
  | filtersDeclined
  | filtersFailed
  | scansOpened
  | scansClosed
  | scanErrors
  | batchesFetched
  | rowsFetched
  | bytesFetched
  | tableScans (table : String)
  | tableRows (table : String)
  | tableBytes (table : String)

namespace Counter

/-- What a counter shows. -/
def read (t : Totals) : Counter → Nat
  | filtersOffered => t.filtersOffered
  | filtersAccepted => t.filtersAccepted
  | filtersDeclined => t.filtersDeclined
  | filtersFailed => t.filtersFailed
  | scansOpened => t.scansOpened
  | scansClosed => t.scansClosed
  | scanErrors => t.scanErrors
  | batchesFetched => t.batchesFetched
  | rowsFetched => t.rowsFetched
  | bytesFetched => t.bytesFetched
  | tableScans table => (t.ofTable table).scansOpened
  | tableRows table => (t.ofTable table).rowsFetched
  | tableBytes table => (t.ofTable table).bytesFetched

/-- What an event adds to a counter. -/
def amount : Counter → Event → Nat
  | filtersOffered, .pushdown _ => 1
  | filtersAccepted, .pushdown .accepted => 1
  | filtersDeclined, .pushdown .declined => 1
  | filtersFailed, .pushdown .failed => 1
  | scansOpened, .scanOpened _ _ => 1
  | scansClosed, .scanClosed _ => 1
  | scanErrors, .scanFailed _ => 1
  | batchesFetched, .batchFetched _ _ _ => 1
  | rowsFetched, .batchFetched _ rows _ => rows
  | bytesFetched, .batchFetched _ _ bytes => bytes
  | tableScans table, .scanOpened name _ => if name = table then 1 else 0
  | tableRows table, .batchFetched name rows _ => if name = table then rows else 0
  | tableBytes table, .batchFetched name _ bytes => if name = table then bytes else 0
  | _, _ => 0

/-- What several events add to a counter. -/
def total (c : Counter) (events : List Event) : Nat :=
  (events.map c.amount).sum

@[simp] theorem total_nil (c : Counter) : c.total [] = 0 := rfl

@[simp] theorem total_cons (c : Counter) (e : Event) (es : List Event) :
    c.total (e :: es) = c.amount e + c.total es := rfl

@[simp] theorem total_append (c : Counter) (es fs : List Event) :
    c.total (es ++ fs) = c.total es + c.total fs := by
  simp [total]

theorem read_zero (c : Counter) : c.read .zero = 0 := by
  cases c <;> rfl

/-- An event adds its amount to a counter. -/
theorem read_record (c : Counter) {t : Totals} (h : c.read t ≤ counterLimit) (e : Event) :
    c.read (t.record e) = bump (c.read t) (c.amount e) := by
  have hsame : c.read t = bump (c.read t) 0 := (bump_zero h).symm
  cases e with
  | pushdown outcome => cases outcome <;> cases c <;> first | rfl | exact hsame
  | scanFailed table => cases c <;> first | rfl | exact hsame
  | scanClosed table => cases c <;> first | rfl | exact hsame
  | scanOpened name size =>
    cases c with
    | scansOpened => rfl
    | tableScans table | tableRows table | tableBytes table =>
      simp only [read, amount, Totals.record, Totals.ofTable_onTable]
      split
      · first | rfl | exact hsame
      · exact hsame
    | _ => exact hsame
  | batchFetched name rows bytes =>
    cases c with
    | batchesFetched | rowsFetched | bytesFetched => rfl
    | tableScans table | tableRows table | tableBytes table =>
      simp only [read, amount, Totals.record, Totals.ofTable_onTable]
      split
      · first | rfl | exact hsame
      · exact hsame
    | _ => exact hsame

/-- One event after another: a counter that was stopped by the limit stays there. -/
theorem read_recordAll_of_eq (c : Counter) {t : Totals} {n : Nat}
    (h : c.read t = min counterLimit n) (events : List Event) :
    c.read (t.recordAll events) = min counterLimit (n + c.total events) := by
  induction events generalizing t n with
  | nil => exact h
  | cons e events ih =>
    have hstep : c.read (t.record e) = min counterLimit (n + c.amount e) := by
      rw [c.read_record (h ▸ Nat.min_le_left _ _), h, bump]
      omega
    rw [Totals.recordAll_cons, ih hstep, total_cons, Nat.add_assoc]

/-- A counter shows the total of all events, or the limit beyond it. -/
theorem read_recordAll (c : Counter) (events : List Event) :
    c.read (Totals.zero.recordAll events) = min counterLimit (c.total events) := by
  have hzero : c.read .zero = min counterLimit 0 := by rw [c.read_zero, Nat.min_zero]
  rw [c.read_recordAll_of_eq hzero, Nat.zero_add]

end Counter

/-- Where no scope is in force, the board passes every event on to the totals. -/
theorem Board.recordAll_of_none {b : Board} (h : b.active = none) (events : List Event) :
    b.recordAll events = { b with totals := b.totals.recordAll events } := by
  induction events generalizing b with
  | nil => rfl
  | cons e events ih =>
    have hrecord : b.record e = { b with totals := b.totals.record e } := by rw [record, h]
    rw [recordAll_cons, hrecord]
    exact ih h

end ExternalTable.Metrics
