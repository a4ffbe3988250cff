import Mathlib.Algebra.Order.BigOperators.Group.List
import Mathlib.Algebra.Order.Ring.Nat
import Mathlib.Data.List.DropRight
import Mathlib.Data.List.Nodup
import Mathlib.Data.String.Basic
import ExternalTable.Proofs.Counting

/-!
# The report of the counters

The counters may be set back at any time.  What is reported then depends on nothing but the events
since the last reset, and not on their order.

* `Change`, `Board.report`: events and resets, and what is reported after them;
* `sinceReset`, `report_eq`: the events that still count;
* `Totals.eq_of_read_eq`: totals are told by their counters and by the tables that they list;
* `Splits`, `Splits.read_eq_sum`: counters that are kept for every table too;
* `report_saturated`: the main statement.
-/

namespace ExternalTable

namespace Dictionary

variable {α : Type}

theorem isSome_get?_update (d : Dictionary α) (key other : String) (f : Option α → α) :
    ((d.update key f).get? other).isSome ↔ key = other ∨ (d.get? other).isSome := by
  by_cases h : key = other
  · rw [h, get?_update_self]
    simp
  · rw [get?_update_of_ne d f (Ne.symm h)]
    simp [h]

theorem exists_mem_of_isSome_get? {d : Dictionary α} {key : String} (h : (d.get? key).isSome) :
    ∃ e ∈ d.entries, e.1 = key := by
  obtain ⟨e, he, hkey⟩ := List.lookup_isSome_iff.1 h
  exact ⟨e, he, (eq_of_beq hkey).symm⟩

theorem nodup_keys (d : Dictionary α) : (d.entries.map Prod.fst).Nodup :=
  List.pairwise_map.2 (d.increasing.imp fun hlt => ne_of_lt hlt)

/-- An entry is found under its key. -/
theorem get?_of_mem {d : Dictionary α} {e : String × α} (h : e ∈ d.entries) :
    d.get? e.1 = some e.2 := by
  obtain ⟨before, after, hentries⟩ := List.append_of_mem h
  refine List.lookup_eq_some_iff.2 ⟨before, after, hentries, fun e' he' => ?_⟩
  have hincreasing := d.increasing
  rw [hentries] at hincreasing
  have hlt : e'.1 < e.1 := (List.pairwise_append.1 hincreasing).2.2 e' he' e List.mem_cons_self
  exact bne_iff_ne.2 (ne_of_gt hlt)

end Dictionary

namespace Metrics

/-! ### Changes -/

/-- What is done to the counters. -/
inductive Change where
  | event (e : Event)
  | reset

/-- The event of a change that is no reset. -/
def Change.event? : Change → Option Event
  | .event e => some e
  | .reset => none

/-- The events since the last reset, in order. -/
def sinceReset (changes : List Change) : List Event :=
  (changes.rtakeWhile fun c => c.event?.isSome).filterMap Change.event?

namespace Board

/-- Takes one change. -/
def change (b : Board) : Change → Board
  | .event e => b.record e
  | .reset => b.reset

/-- Takes several changes in order. -/
def changeAll (b : Board) (changes : List Change) : Board :=
  changes.foldl change b

/-- What is reported after some changes. -/
def report (changes : List Change) : Totals :=
  (start.changeAll changes).totals

theorem changeAll_concat (b : Board) (changes : List Change) (c : Change) :
    b.changeAll (changes ++ [c]) = (b.changeAll changes).change c := by
  simp [changeAll]

/-- Changes open no scope. -/
theorem active_changeAll (b : Board) (changes : List Change) :
    (b.changeAll changes).active = b.active := by
  induction changes generalizing b with
  | nil => rfl
  | cons c changes ih =>
    have hchange : (b.change c).active = b.active := by
      cases c with
      | event e =>
        rw [change, record]
        split <;> rfl
      | reset => rfl
    rw [changeAll, List.foldl_cons]
    exact (ih (b.change c)).trans hchange

end Board

theorem sinceReset_concat_event (changes : List Change) (e : Event) :
    sinceReset (changes ++ [.event e]) = sinceReset changes ++ [e] := by
  rw [sinceReset, List.rtakeWhile_concat_pos _ _ _ rfl, List.filterMap_append]
  rfl

theorem sinceReset_concat_reset (changes : List Change) :
    sinceReset (changes ++ [.reset]) = [] := by
  rw [sinceReset, List.rtakeWhile_concat_neg _ _ _ (by simp [Change.event?])]
  rfl

/-- The report counts the events since the last reset. -/
theorem report_eq (changes : List Change) :
    Board.report changes = Totals.zero.recordAll (sinceReset changes) := by
  induction changes using List.reverseRecOn with
  | nil => rfl
  | append_singleton changes c ih =>
    rw [Board.report] at ih ⊢
    rw [Board.changeAll_concat]
    cases c with
    | reset =>
      rw [sinceReset_concat_reset]
      rfl
    | event e =>
      have hactive := Board.start.active_changeAll changes
      rw [sinceReset_concat_event, Totals.recordAll_append, ← ih, Board.change, Board.record,
        hactive]
      rfl

/-! ### Tables -/

/-- The table that an event enters into the report. -/
def Event.entered? : Event → Option String
  | .scanOpened table _ => some table
  | .batchFetched table _ _ => some table
  | _ => none

theorem isSome_get?_record (t : Totals) (e : Event) (table : String) :
    ((t.record e).tables.get? table).isSome ↔
      e.entered? = some table ∨ (t.tables.get? table).isSome := by
  cases e with
  | scanOpened name size | batchFetched name rows bytes =>
    simp [Totals.record, Totals.onTable, Dictionary.isSome_get?_update, Event.entered?]
  | pushdown outcome => cases outcome <;> simp [Totals.record, Event.entered?]
  | scanFailed name | scanClosed name => simp [Totals.record, Event.entered?]

/-- A table is listed exactly if an event has entered it. -/
theorem isSome_get?_recordAll (t : Totals) (events : List Event) (table : String) :
    ((t.recordAll events).tables.get? table).isSome ↔
      (∃ e ∈ events, e.entered? = some table) ∨ (t.tables.get? table).isSome := by
  induction events generalizing t with
  | nil => simp
  | cons e events ih =>
    rw [Totals.recordAll_cons, ih, isSome_get?_record]
    simp only [List.mem_cons, exists_eq_or_imp, or_assoc]
    exact or_left_comm

theorem Totals.ofTable_eq {t : Totals} {table : String} {counters : TableTotals}
    (h : t.tables.get? table = some counters) : t.ofTable table = counters := by
  rw [ofTable, h, Option.getD_some]

theorem exists_entered_iff {events : List Event} {table : String} :
    (∃ e ∈ events, e.entered? = some table) ↔
      (∃ size, .scanOpened table size ∈ events) ∨
        ∃ rows bytes, .batchFetched table rows bytes ∈ events := by
  constructor
  · rintro ⟨e, he, hentered⟩
    cases e with
    | scanOpened name size =>
      cases hentered
      exact .inl ⟨size, he⟩
    | batchFetched name rows bytes =>
      cases hentered
      exact .inr ⟨rows, bytes, he⟩
    | _ => cases hentered
  · rintro (⟨size, he⟩ | ⟨rows, bytes, he⟩)
    · exact ⟨_, he, rfl⟩
    · exact ⟨_, he, rfl⟩

/-- Totals are told by what the counters show, and by the tables that are listed. -/
theorem Totals.eq_of_read_eq {t u : Totals} (hread : ∀ c : Counter, c.read t = c.read u)
    (htables : ∀ table, (t.tables.get? table).isSome ↔ (u.tables.get? table).isSome) : t = u := by
  have hofTable : ∀ table, t.ofTable table = u.ofTable table := fun table =>
    calc t.ofTable table
      _ = ⟨Counter.read t (.tableScans table), Counter.read t (.tableRows table),
            Counter.read t (.tableBytes table)⟩ := rfl
      _ = u.ofTable table := by rw [hread, hread, hread]; rfl
  have hget : t.tables = u.tables := by
    refine Dictionary.eq_of_get?_eq fun table => ?_
    have hsome := htables table
    cases ht : t.tables.get? table with
    | none =>
      rw [ht] at hsome
      exact (Option.not_isSome_iff_eq_none.1 fun hu => by simpa using hsome.2 hu).symm
    | some counters =>
      rw [ht] at hsome
      obtain ⟨counters', hu⟩ := Option.isSome_iff_exists.1 (hsome.1 rfl)
      rw [hu, ← ofTable_eq ht, ← ofTable_eq hu, hofTable]
  cases t
  cases u
  rw [Totals.mk.injEq]
  exact ⟨hread .filtersOffered, hread .filtersAccepted, hread .filtersDeclined,
    hread .filtersFailed, hread .scansOpened, hread .scansClosed, hread .scanErrors,
    hread .batchesFetched, hread .rowsFetched, hread .bytesFetched, hget⟩

/-- The order of events leaves no trace. -/
theorem recordAll_perm {es fs : List Event} (h : es.Perm fs) :
    Totals.zero.recordAll es = Totals.zero.recordAll fs := by
  refine Totals.eq_of_read_eq (fun c => ?_) fun table => ?_
  · rw [Counter.read_recordAll, Counter.read_recordAll, Counter.total, Counter.total,
      (h.map c.amount).sum_eq]
  · rw [isSome_get?_recordAll, isSome_get?_recordAll]
    simp only [h.mem_iff]

/-! ### Sums -/

theorem counterLimit_eq : counterLimit = 2 ^ 64 - 1 := by
  decide

/-- Within the limit a counter shows the total. -/
theorem read_recordAll_of_lt (c : Counter) (events : List Event)
    (h : c.total events < 2 ^ 64) : c.read (Totals.zero.recordAll events) = c.total events := by
  rw [c.read_recordAll, counterLimit_eq]
  omega

/-- Every filter that was offered was accepted, declined, or failed. -/
theorem total_filtersOffered (events : List Event) :
    Counter.filtersOffered.total events =
      Counter.filtersAccepted.total events + Counter.filtersDeclined.total events +
        Counter.filtersFailed.total events := by
  induction events with
  | nil => rfl
  | cons e events ih =>
    have hamount : Counter.filtersOffered.amount e =
        Counter.filtersAccepted.amount e + Counter.filtersDeclined.amount e +
          Counter.filtersFailed.amount e := by
      cases e with
      | pushdown outcome => cases outcome <;> rfl
      | _ => rfl
    simp only [Counter.total_cons]
    omega

/-- The counters that are kept for every table as well, with the counter of a table and where it
stands. -/
inductive Splits : Counter → (String → Counter) → (TableTotals → Nat) → Prop
  | scans : Splits .scansOpened .tableScans TableTotals.scansOpened
  | rows : Splits .rowsFetched .tableRows TableTotals.rowsFetched
  | bytes : Splits .bytesFetched .tableBytes TableTotals.bytesFetched

namespace Splits

variable {c : Counter} {ofTable : String → Counter} {shown : TableTotals → Nat}

/-- An event counts for the table that it enters, and for no other. -/
theorem amount_eq (h : Splits c ofTable shown) (e : Event) (table : String) :
    (ofTable table).amount e = if e.entered? = some table then c.amount e else 0 := by
  cases h <;> cases e <;> simp [Counter.amount, Event.entered?]

theorem amount_eq_zero (h : Splits c ofTable shown) {e : Event} (he : e.entered? = none) :
    c.amount e = 0 := by
  cases h <;> cases e <;> first | rfl | cases he

theorem sum_amount (h : Splits c ofTable shown) {tables : List String} (hnodup : tables.Nodup)
    {e : Event} (he : ∀ table, e.entered? = some table → table ∈ tables) :
    (tables.map fun table => (ofTable table).amount e).sum = c.amount e := by
  cases hentered : e.entered? with
  | none => simp [h.amount_eq, hentered, h.amount_eq_zero hentered]
  | some table =>
    have hself : (ofTable table).amount e = c.amount e := by rw [h.amount_eq, if_pos hentered]
    rw [List.sum_map_eq_nsmul_single table, List.count_eq_one_of_mem hnodup (he table hentered),
      one_nsmul, hself]
    intro other hne _
    rw [h.amount_eq, if_neg fun heq => hne (Option.some.inj (heq.symm.trans hentered))]

/-- The totals of all tables that events enter add up to the total of the engine. -/
theorem sum_total (h : Splits c ofTable shown) {tables : List String} (hnodup : tables.Nodup)
    {events : List Event}
    (hentered : ∀ e ∈ events, ∀ table, e.entered? = some table → table ∈ tables) :
    (tables.map fun table => (ofTable table).total events).sum = c.total events := by
  induction events with
  | nil => simp
  | cons e events ih =>
    obtain ⟨he, hevents⟩ := List.forall_mem_cons.1 hentered
    simp only [Counter.total_cons]
    rw [List.sum_map_add, h.sum_amount hnodup he, ih hevents]

theorem amount_le (h : Splits c ofTable shown) (e : Event) (table : String) :
    (ofTable table).amount e ≤ c.amount e := by
  rw [h.amount_eq]
  split
  · exact le_rfl
  · exact Nat.zero_le _

theorem total_le (h : Splits c ofTable shown) (events : List Event) (table : String) :
    (ofTable table).total events ≤ c.total events :=
  List.sum_le_sum fun e _ => h.amount_le e table

/-- What an entry of the report shows is what the counter of its table shows. -/
theorem read_of_mem (h : Splits c ofTable shown) {t : Totals} {entry : String × TableTotals}
    (hentry : entry ∈ t.tables.entries) : (ofTable entry.1).read t = shown entry.2 := by
  have htable := Totals.ofTable_eq (Dictionary.get?_of_mem hentry)
  cases h <;> rw [← htable] <;> rfl

/-- Within the limit the counter of the engine shows the sum of the counters of all tables. -/
theorem read_eq_sum (h : Splits c ofTable shown) {events : List Event}
    (hlt : c.total events < 2 ^ 64) :
    c.read (Totals.zero.recordAll events) =
      ((Totals.zero.recordAll events).tables.entries.map fun entry => shown entry.2).sum := by
  obtain ⟨tables, htables⟩ : ∃ tables, tables = (Totals.zero.recordAll events).tables := ⟨_, rfl⟩
  have hentered : ∀ e ∈ events, ∀ table, e.entered? = some table →
      table ∈ tables.entries.map Prod.fst := by
    intro e he table htable
    have hlisted := (isSome_get?_recordAll .zero events table).2 (.inl ⟨e, he, htable⟩)
    obtain ⟨entry, hentry, rfl⟩ := Dictionary.exists_mem_of_isSome_get? hlisted
    exact List.mem_map_of_mem (htables ▸ hentry)
  have hshown : ∀ entry ∈ tables.entries, shown entry.2 = (ofTable entry.1).total events := by
    intro entry hentry
    rw [← h.read_of_mem (htables ▸ hentry)]
    exact read_recordAll_of_lt _ _ ((h.total_le events entry.1).trans_lt hlt)
  rw [read_recordAll_of_lt c events hlt, ← htables, List.map_congr_left hshown,
    ← h.sum_total tables.nodup_keys hentered, List.map_map]
  rfl

end Splits

/-! ### The report -/

/-- **The report is the saturated total of the events, in any order.**  After any events and resets
every counter shows the total of the events since the last reset, or the greatest number of 64 bits
beyond it.  A table is listed exactly if one of these events has opened a scan of it or fetched a
batch from it, and the same events in another order give the same report.  As long as the totals are
within 64 bits, the filters offered are those accepted, declined and failed, and the scans opened,
the rows and the bytes are those of all tables together. -/
theorem report_saturated (changes : List Change) :
    let events := sinceReset changes
    let report := Board.report changes
    (∀ c : Counter, c.read report = min (2 ^ 64 - 1) (c.total events)) ∧
      (∀ table, (report.tables.get? table).isSome ↔
        (∃ size, .scanOpened table size ∈ events) ∨
          ∃ rows bytes, .batchFetched table rows bytes ∈ events) ∧
      (∀ changes', (sinceReset changes').Perm events → Board.report changes' = report) ∧
      (Counter.filtersOffered.total events < 2 ^ 64 → report.filtersOffered =
        report.filtersAccepted + report.filtersDeclined + report.filtersFailed) ∧
      (Counter.scansOpened.total events < 2 ^ 64 → report.scansOpened =
        (report.tables.entries.map fun entry => entry.2.scansOpened).sum) ∧
      (Counter.rowsFetched.total events < 2 ^ 64 → report.rowsFetched =
        (report.tables.entries.map fun entry => entry.2.rowsFetched).sum) ∧
      (Counter.bytesFetched.total events < 2 ^ 64 → report.bytesFetched =
        (report.tables.entries.map fun entry => entry.2.bytesFetched).sum) := by
  intro events report
  have hreport : report = Totals.zero.recordAll events := report_eq changes
  rw [hreport]
  refine ⟨fun c => ?_, fun table => ?_, fun changes' hperm => ?_, fun hlt => ?_,
    Splits.scans.read_eq_sum, Splits.rows.read_eq_sum, Splits.bytes.read_eq_sum⟩
  · rw [c.read_recordAll, counterLimit_eq]
  · rw [isSome_get?_recordAll, exists_entered_iff]
    exact or_iff_left (by simp [Totals.zero])
  · rw [report_eq, recordAll_perm hperm]
  · have hsum := total_filtersOffered events
    have hoffered := read_recordAll_of_lt .filtersOffered events hlt
    have haccepted := read_recordAll_of_lt .filtersAccepted events (by omega)
    have hdeclined := read_recordAll_of_lt .filtersDeclined events (by omega)
    have hfailed := read_recordAll_of_lt .filtersFailed events (by omega)
    simp only [Counter.read] at hoffered haccepted hdeclined hfailed
    omega

/-- After a reset, two scans of one table and a batch of another.  The rows reach the greatest number
and the other counters do not; without the largest batch the rows of both tables add up. -/
theorem report_saturated_rows :
    let small : List Event := [.pushdown .declined, .scanOpened "t" 256, .scanOpened "t" 1,
      .pushdown .accepted, .batchFetched "u" 1 2]
    let events := small ++ [.batchFetched "t" 18446744073709551615 40]
    let changes : List Change := [.event (.scanOpened "v" 256), .reset] ++ events.map .event
    let report := Board.report changes
    let smallReport := Board.report (small.map .event)
    report.rowsFetched = 2 ^ 64 - 1 ∧ (report.tables.get? "u").isSome = true ∧
      Board.report (events.reverse.map .event) = report ∧
      report.filtersOffered =
        report.filtersAccepted + report.filtersDeclined + report.filtersFailed ∧
      report.scansOpened = (report.tables.entries.map fun entry => entry.2.scansOpened).sum ∧
      report.bytesFetched = (report.tables.entries.map fun entry => entry.2.bytesFetched).sum ∧
      smallReport.rowsFetched =
        (smallReport.tables.entries.map fun entry => entry.2.rowsFetched).sum := by
  intro small events changes report smallReport
  obtain ⟨hread, hlisted, hperm, hfilters, hscans, -, hbytes⟩ := report_saturated changes
  obtain ⟨-, -, -, -, -, hrows, -⟩ := report_saturated (small.map .event)
  have hevents : sinceReset changes = events := by decide
  have hreversed : sinceReset (events.reverse.map .event) = events.reverse := by decide
  have htotal : Counter.rowsFetched.total (sinceReset changes) = 2 ^ 64 := by decide +kernel
  refine ⟨?_, (hlisted "u").2 (.inr ⟨1, 2, by decide⟩), hperm _ ?_, hfilters (by decide +kernel),
    hscans (by decide +kernel), hbytes (by decide +kernel), hrows (by decide +kernel)⟩
  · have hrowsRead := hread .rowsFetched
    rw [htotal] at hrowsRead
    exact hrowsRead
  · rw [hreversed, hevents]
    exact events.reverse_perm

end Metrics

end ExternalTable
