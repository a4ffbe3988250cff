import ExternalTable.Dictionary
import ExternalTable.Metrics.Event
import ExternalTable.Number.Power

/-!
# Totals

Counters over events, for the whole engine and for each table.  A counter that reaches the greatest
64-bit number stays there.

* `Totals`, `TableTotals`: the counters;
* `Totals.record`: counts one event, and `Totals.recordAll` several.
-/

namespace ExternalTable.Metrics

/-- The greatest value of a counter. -/
def counterLimit : Nat := twoPow 64 - 1

/-- A counter after some more occurrences. -/
def bump (counter amount : Nat) : Nat :=
  min counterLimit (counter + amount)

/-- The counters of one table. -/
structure TableTotals where
  scansOpened : Nat
  rowsFetched : Nat
  bytesFetched : Nat
  deriving DecidableEq

/-- The counters of a table before its first event. -/
def TableTotals.zero : TableTotals := ⟨0, 0, 0⟩

/-- All counters. -/
structure Totals where
  filtersOffered : Nat
  filtersAccepted : Nat
  filtersDeclined : Nat
  filtersFailed : Nat
  scansOpened : Nat
  scansClosed : Nat
  scanErrors : Nat
  batchesFetched : Nat
  rowsFetched : Nat
  bytesFetched : Nat
  tables : Dictionary TableTotals
  deriving DecidableEq

namespace Totals

/-- The counters before the first event. -/
def zero : Totals := ⟨0, 0, 0, 0, 0, 0, 0, 0, 0, 0, .empty⟩

/-- Changes the counters of a table, which begin at zero. -/
def onTable (t : Totals) (table : String) (f : TableTotals → TableTotals) : Totals :=
  { t with tables := t.tables.update table fun before => f (before.getD .zero) }

/-- Counts one event. -/
def record (t : Totals) : Event → Totals
  | .pushdown outcome =>
      let t := { t with filtersOffered := bump t.filtersOffered 1 }
      match outcome with
      | .accepted => { t with filtersAccepted := bump t.filtersAccepted 1 }
      | .declined => { t with filtersDeclined := bump t.filtersDeclined 1 }
      | .failed => { t with filtersFailed := bump t.filtersFailed 1 }
  | .scanOpened table _ =>
      onTable { t with scansOpened := bump t.scansOpened 1 } table fun c =>
        { c with scansOpened := bump c.scansOpened 1 }
  | .batchFetched table rows bytes =>
      onTable
        { t with
          batchesFetched := bump t.batchesFetched 1
          rowsFetched := bump t.rowsFetched rows
          bytesFetched := bump t.bytesFetched bytes }
        table fun c =>
        { c with
          rowsFetched := bump c.rowsFetched rows
          bytesFetched := bump c.bytesFetched bytes }
  | .scanFailed _ => { t with scanErrors := bump t.scanErrors 1 }
  | .scanClosed _ => { t with scansClosed := bump t.scansClosed 1 }

/-- Counts several events in order. -/
def recordAll (t : Totals) (events : List Event) : Totals :=
  events.foldl record t

@[simp] theorem recordAll_nil (t : Totals) : t.recordAll [] = t := rfl

@[simp] theorem recordAll_cons (t : Totals) (e : Event) (es : List Event) :
    t.recordAll (e :: es) = (t.record e).recordAll es := rfl

theorem recordAll_append (t : Totals) (es fs : List Event) :
    t.recordAll (es ++ fs) = (t.recordAll es).recordAll fs := by
  simp [recordAll]

end Totals

end ExternalTable.Metrics
