import Mathlib.Algebra.Order.BigOperators.Group.List
import Mathlib.Algebra.Order.Ring.Nat
import ExternalTable.Proofs.Counting
import ExternalTable.Proofs.Delivery
import ExternalTable.Proofs.Opening

/-!
# The counters account for every scan

Any number of scans are opened and asked in turn, each against a source of its own or one that it
shares with others.  At any time the counters agree with what the scans have answered and with the
handles that they still hold.

* `Opened`: an opened scan with its answers, and `Opened.ask`;
* `Operation`, `Engine`, `Engine.run`: the scans of a program;
* `Responds`: what can become of a scan at a command;
* `Opened.share`, `Engine.share`: what a counter owes to a scan, and to a whole program;
* `Engine.Fits`, `Engine.Balanced`, `run_balanced`: the main statement.
-/

namespace ExternalTable.Scan

open Metrics

variable {σ : Type}

/-! ### Programs -/

/-- A scan that was opened, and what came of it. -/
structure Opened (σ : Type) where
  remote : Remote σ
  scan : Scan
  /-- What `next` has answered, in order. -/
  answers : List (Option (Except ScanError Batch))
  dropped : Bool

/-- Whether `next` has answered with an error. -/
def isFailure : Option (Except ScanError Batch) → Bool
  | some (.error _) => true
  | _ => false

namespace Opened

/-- Whether a scan still holds its handles. -/
def holds (x : Opened σ) : Bool :=
  !x.dropped && !x.scan.isClosed

/-- The batches that a scan has handed out. -/
def yielded (x : Opened σ) : List Batch :=
  x.answers.filterMap batch?

/-- How often a scan has answered with an error. -/
def errors (x : Opened σ) : Nat :=
  x.answers.countP isFailure

/-- Asks something of a scan. -/
def ask (x : Opened σ) : Command → Exec σ (Opened σ)
  | .next => do
      let (answer, s) ← next x.remote x.scan
      return { x with scan := s, answers := x.answers ++ [answer] }
  | .close => do
      let (_, s) ← close x.remote x.scan
      return { x with scan := s }
  | .drop => do
      drop x.remote x.scan
      return { x with dropped := true }

end Opened

/-- One operation of a program: a scan is opened, or one of the opened scans is asked something. -/
inductive Operation (σ : Type) where
  | start (remote : Remote σ) (dialect : Dialect) (options : ConnectOptions) (request : Request)
  | ask (index : Nat) (command : Command)

/-- A source as one of several that share nothing. -/
def among {τ : Type} (r : Remote τ) (index : Nat) : Remote (Nat → τ) where
  connect options := only (r.connect options)
  createStatement := only r.createStatement
  execute statement := only (r.execute statement)
  nextRow := only r.nextRow
  close h := only (r.close h)
  isClosed w h := r.isClosed (w index) h
where
  /-- A call that changes the state of this source alone. -/
  only {α : Type} (answer : τ → α × τ) (w : Nat → τ) : α × (Nat → τ) :=
    let (value, t) := answer (w index)
    (value, fun i => if i = index then t else w i)

/-- A program at some point of its course. -/
structure Engine (σ : Type) where
  source : σ
  board : Board
  /-- Every scan that was opened, in order. -/
  scans : List (Opened σ)
  /-- The errors of the scans that could not be opened. -/
  refusals : List ScanError

namespace Engine

/-- A program before its first operation. -/
def new (w : σ) : Engine σ := ⟨w, .start, [], []⟩

/-- Performs an operation.  There is nothing to ask of a scan that was dropped or never opened. -/
def perform (e : Engine σ) : Operation σ → Engine σ
  | .start r d options q =>
      let ran := start r d options q e.source
      let e := { e with source := ran.source, board := e.board.recordAll ran.events }
      match ran.value with
      | .ok s => { e with scans := e.scans ++ [⟨r, s, [], false⟩] }
      | .error cause => { e with refusals := e.refusals ++ [cause] }
  | .ask index command =>
      match e.scans[index]? with
      | none => e
      | some x =>
          if x.dropped then
            e
          else
            let ran := x.ask command e.source
            { e with
              source := ran.source
              board := e.board.recordAll ran.events
              scans := e.scans.set index ran.value }

/-- Performs the operations of a program in order. -/
def run (e : Engine σ) (program : List (Operation σ)) : Engine σ :=
  program.foldl perform e

end Engine

/-! ### What a scan records -/

/-- Fetching rows records nothing. -/
theorem events_pull (r : Remote σ) (wanted : Nat) (w : σ) :
    (pull r wanted w).actions.filterMap Action.event? = [] := by
  induction wanted generalizing w with
  | zero => rfl
  | succ wanted ih =>
    have hrest := ih (r.nextRow w).2
    rw [pull]
    simp only [Exec.bind_apply, Exec.call_apply]
    cases (r.nextRow w).1 with
    | error e => rfl
    | ok row? =>
      cases row? with
      | none => rfl
      | some row =>
        simp only [Exec.bind_apply]
        cases (pull r wanted (r.nextRow w).2).value with
        | error e => simpa [Action.event?] using hrest
        | ok rows => simpa [Action.event?] using hrest

/-- A batch is recorded when it is fetched. -/
theorem Fetched.events {r : Remote σ} {s : Scan} {w : σ}
    {ran : Ran σ (Except ScanError (Option Batch) × Scan)} (h : Fetched r s w ran) :
    ran.events =
      match ran.value.1 with
      | .ok (some b) => [.batchFetched s.table b.rowCount b.byteLength]
      | _ => [] := by
  have hpull := events_pull r s.batchSize w
  cases h with
  | idle => rfl
  | lost | exhausted | unfit => exact hpull
  | batch => simp [Ran.events, hpull, Action.event?]

theorem Advances.table {r : Remote σ} {s : Scan} {w : σ}
    {ran : Ran σ (Option (Except ScanError Batch) × Scan)} (h : Advances r s w ran) :
    ran.value.2.table = s.table := by
  cases h with
  | idle | ended | failed => rfl
  | batch _ hfetch =>
    cases hfetch ▸ fetched r s w
    rfl

/-- A call of `next` records the batch that it hands out, or else its failure and the closing of the
scan. -/
theorem Advances.events {r : Remote σ} {s : Scan} {w : σ}
    {ran : Ran σ (Option (Except ScanError Batch) × Scan)} (h : Advances r s w ran) :
    ran.events =
      match ran.value.1 with
      | some (.ok b) => [.batchFetched s.table b.rowCount b.byteLength]
      | some (.error _) => [.scanFailed s.table, .scanClosed s.table]
      | none => if s.isClosed then [] else [.scanClosed s.table] := by
  cases h with
  | idle hs => simp [Ran.events, isClosed, hs]
  | batch _ hfetch => exact (hfetch ▸ fetched r s w).events
  | @ended _ actions hs hfetch =>
    have hactions : actions.filterMap Action.event? = [] := (hfetch ▸ fetched r s w).events
    simp [Ran.events, isClosed, hs, hactions, Action.event?]
  | @failed _ _ actions hs hfetch =>
    have hactions : actions.filterMap Action.event? = [] := (hfetch ▸ fetched r s w).events
    simp [Ran.events, hactions, Action.event?]

/-- Closing a scan that holds its handles is recorded once. -/
theorem events_close (r : Remote σ) {s : Scan} (hs : s.phase ≠ .closed) (w : σ) :
    (close r s w).events = [.scanClosed s.table] := by
  simp [close_apply r hs, Ran.events, Action.event?]

/-- What a scan has handed out more than before. -/
structure Gains (x x' : Opened σ) (batches : List Batch) (errors : Nat) : Prop where
  table : x'.scan.table = x.scan.table
  counted : Counted x.scan x.yielded → Counted x'.scan x'.yielded
  yielded : x'.yielded = x.yielded ++ batches
  errors : x'.errors = x.errors + errors

/-- What can become of a scan at a command, and the events of it. -/
inductive Responds (x x' : Opened σ) : List Event → Prop
  | batch {b : Batch} (h : Gains x x' [b] 0) (hx : x.holds = true) (hx' : x'.holds = true) :
      Responds x x' [.batchFetched x.scan.table b.rowCount b.byteLength]
  | failed (h : Gains x x' [] 1) (hx : x.holds = true) (hx' : x'.holds = false) :
      Responds x x' [.scanFailed x.scan.table, .scanClosed x.scan.table]
  | ended (h : Gains x x' [] 0) (hx : x.holds = true) (hx' : x'.holds = false) :
      Responds x x' [.scanClosed x.scan.table]
  | idle (h : Gains x x' [] 0) (hx : x.holds = false) (hx' : x'.holds = false) :
      Responds x x' []

/-- An answer of `next` adds its batch or its error. -/
theorem gains_answer (x : Opened σ) {s : Scan} {answer : Option (Except ScanError Batch)}
    (htable : s.table = x.scan.table)
    (hcounted : Counted x.scan x.yielded → Counted s (x.yielded ++ (batch? answer).toList)) :
    Gains x { x with scan := s, answers := x.answers ++ [answer] } (batch? answer).toList
      (if isFailure answer then 1 else 0) := by
  have hyielded : Opened.yielded { x with scan := s, answers := x.answers ++ [answer] } =
      x.yielded ++ (batch? answer).toList := by
    rw [Opened.yielded, Opened.yielded, List.filterMap_append]
    cases h : batch? answer <;> simp [h]
  refine ⟨htable, fun h => hyielded ▸ hcounted h, hyielded, ?_⟩
  rw [Opened.errors, Opened.errors, List.countP_append, List.countP_singleton]

theorem holds_eq_true {x : Opened σ} (hx : x.dropped = false) (h : x.scan.phase ≠ .closed) :
    x.holds = true := by
  simp [Opened.holds, isClosed, hx, h]

theorem holds_eq_false {x : Opened σ} (h : x.scan.phase = .closed) : x.holds = false := by
  simp [Opened.holds, isClosed, h]

theorem responds_next {x : Opened σ} (hx : x.dropped = false) (w : σ) :
    Responds x (x.ask .next w).value (x.ask .next w).events := by
  have hadvances := advances x.remote x.scan w
  have hvalue : (x.ask .next w).value =
      { x with
        scan := (next x.remote x.scan w).value.2
        answers := x.answers ++ [(next x.remote x.scan w).value.1] } := rfl
  have hevents : (x.ask .next w).events = (next x.remote x.scan w).events := by
    simp [Opened.ask, Ran.events]
  rw [hvalue, hevents]
  generalize next x.remote x.scan w = ran at hadvances ⊢
  have hgains := gains_answer x hadvances.table hadvances.counted
  rw [hadvances.events]
  cases hadvances with
  | idle hs =>
    rw [show x.scan.isClosed = true by simp [isClosed, hs]]
    exact .idle hgains (holds_eq_false hs) (holds_eq_false hs)
  | batch hs hfetch =>
    cases hfetch ▸ fetched x.remote x.scan w
    exact .batch hgains (holds_eq_true hx hs) (holds_eq_true hx (phase_account_ne _ _ _))
  | ended hs =>
    rw [show x.scan.isClosed = false by simp [isClosed, hs]]
    exact .ended hgains (holds_eq_true hx hs) (holds_eq_false rfl)
  | failed hs => exact .failed hgains (holds_eq_true hx hs) (holds_eq_false rfl)

theorem responds_close {x : Opened σ} (hx : x.dropped = false) (w : σ) :
    Responds x (x.ask .close w).value (x.ask .close w).events := by
  have hvalue : (x.ask .close w).value = { x with scan := (close x.remote x.scan w).value.2 } := rfl
  have hevents : (x.ask .close w).events = (close x.remote x.scan w).events := by
    simp [Opened.ask, Ran.events]
  rw [hvalue, hevents]
  by_cases hs : x.scan.phase = .closed
  · rw [close_closed x.remote hs]
    exact .idle ⟨rfl, id, (List.append_nil _).symm, rfl⟩ (holds_eq_false hs) (holds_eq_false hs)
  · rw [events_close x.remote hs, close_apply x.remote hs]
    exact .ended ⟨rfl, Counted.closed, (List.append_nil _).symm, rfl⟩ (holds_eq_true hx hs)
      (holds_eq_false rfl)

theorem responds_drop {x : Opened σ} (hx : x.dropped = false) (w : σ) :
    Responds x (x.ask .drop w).value (x.ask .drop w).events := by
  have hvalue : (x.ask .drop w).value = { x with dropped := true } := rfl
  have hevents : (x.ask .drop w).events = (close x.remote x.scan w).events := by
    simp [Opened.ask, drop, Ran.events]
  have hgains : Gains x { x with dropped := true } [] 0 :=
    ⟨rfl, id, (List.append_nil _).symm, rfl⟩
  rw [hvalue, hevents]
  by_cases hs : x.scan.phase = .closed
  · rw [close_closed x.remote hs]
    exact .idle hgains (holds_eq_false hs) rfl
  · rw [events_close x.remote hs]
    exact .ended hgains (holds_eq_true hx hs) rfl

/-- A command does one of four things to a scan that was not dropped. -/
theorem responds_ask {x : Opened σ} (hx : x.dropped = false) (command : Command) (w : σ) :
    Responds x (x.ask command w).value (x.ask command w).events := by
  cases command with
  | next => exact responds_next hx w
  | close => exact responds_close hx w
  | drop => exact responds_drop hx w

/-- Whether a scan failed with its statement built. -/
def isAttempt : ScanError → Bool
  | .statement _ => false
  | _ => true

/-- An opened scan is recorded, and so is every failure to open one, unless there was no
statement. -/
theorem events_start (r : Remote σ) (d : Dialect) (options : ConnectOptions) (q : Request) (w : σ) :
    (start r d options q w).events =
      match (start r d options q w).value with
      | .ok s => [.scanOpened q.table s.batchSize]
      | .error cause => if isAttempt cause then [.scanFailed q.table] else [] := by
  cases hsql : selectBound d q.table q.columns (q.filters.map String.toList) q.params with
  | error e =>
    rw [start_of_error hsql]
    rfl
  | ok statement =>
    rcases fails_or_executes r options statement w with ⟨e, held, calls, h⟩ | ⟨columns, h, hall⟩
    · rw [events_of_fails hsql h, start_of_fails hsql h]
      cases h <;> rfl
    · obtain ⟨schema, hschema, -⟩ := schemaOf_of_isSome hall
      rw [start_of_executes hsql h hschema]
      rfl

/-! ### Shares -/

/-- What a counter owes to a scan. -/
def Opened.share (x : Opened σ) : Counter → Nat
  | .scansOpened => 1
  | .scansClosed => if x.holds then 0 else 1
  | .scanErrors => x.errors
  | .batchesFetched => x.yielded.length
  | .rowsFetched => rowTotal x.yielded
  | .bytesFetched => byteTotal x.yielded
  | .tableScans table => if x.scan.table = table then 1 else 0
  | .tableRows table => if x.scan.table = table then rowTotal x.yielded else 0
  | .tableBytes table => if x.scan.table = table then byteTotal x.yielded else 0
  | _ => 0

/-- What a counter owes to a scan that could not be opened. -/
def refusalShare (cause : ScanError) : Counter → Nat
  | .scanErrors => if isAttempt cause then 1 else 0
  | _ => 0

/-- What a counter owes to a program. -/
def Engine.share (e : Engine σ) (c : Counter) : Nat :=
  (e.scans.map (·.share c)).sum + (e.refusals.map (refusalShare · c)).sum

theorem Responds.counted {x x' : Opened σ} {events : List Event} (h : Responds x x' events) :
    Counted x.scan x.yielded → Counted x'.scan x'.yielded := by
  cases h with
  | batch h | failed h | ended h | idle h => exact h.counted

/-- The events of a command add to every counter what its scan gains. -/
theorem share_of_responds {x x' : Opened σ} {events : List Event} (h : Responds x x' events)
    (c : Counter) : x'.share c = x.share c + c.total events := by
  -- Every counter looks at one feature of the scan, and `Gains` says how each of them changes.
  cases h with
  | batch h hx hx' | failed h hx hx' | ended h hx hx' | idle h hx hx' =>
    cases c <;> simp [Opened.share, Counter.amount, h.table, h.yielded, h.errors, hx, hx'] <;>
      split <;> rfl

/-- The events of an opening add what is owed to the new scan, or to its failure. -/
theorem share_of_start (r : Remote σ) (d : Dialect) (options : ConnectOptions) (q : Request) (w : σ)
    (c : Counter) :
    c.total (start r d options q w).events =
      match (start r d options q w).value with
      | .ok s => Opened.share ⟨r, s, [], false⟩ c
      | .error cause => refusalShare cause c := by
  rw [events_start]
  cases hvalue : (start r d options q w).value with
  | error cause =>
    cases hcause : isAttempt cause <;>
      cases c <;> simp [refusalShare, Counter.amount, hcause]
  | ok s =>
    obtain ⟨columns, schema, -, -, hs⟩ := opened_of_start hvalue
    rw [hs]
    cases c <;> simp [Opened.share, Opened.holds, Opened.errors, Opened.yielded, isClosed,
      Counter.amount]

/-- Replacing one item of a list replaces its part of a sum. -/
theorem sum_map_set {α : Type} (f : α → Nat) {items : List α} {i : Nat} {a b : α}
    (h : items[i]? = some a) {gain : Nat} (hgain : f b = f a + gain) :
    ((items.set i b).map f).sum = (items.map f).sum + gain := by
  induction items generalizing i with
  | nil => cases h
  | cons item items ih =>
    cases i with
    | zero =>
      cases h
      simp only [List.set_cons_zero, List.map_cons, List.sum_cons, hgain]
      omega
    | succ i =>
      simp only [List.set_cons_succ, List.map_cons, List.sum_cons,
        ih (by simpa using h), Nat.add_assoc]

/-! ### The course of a program -/

namespace Engine

/-- The counters of every scan show the batches that it has handed out. -/
def IsCounted (e : Engine σ) : Prop :=
  ∀ x ∈ e.scans, Counted x.scan x.yielded

/-- The events between two points of a program: they reach the totals, and add to every counter what
is owed to the scans.  The counters of the scans themselves keep up. -/
structure Records (e e' : Engine σ) (events : List Event) : Prop where
  board : e'.board = { e.board with totals := e.board.totals.recordAll events }
  share : ∀ c, e'.share c = e.share c + c.total events
  counted : e.IsCounted → e'.IsCounted

theorem Records.refl (e : Engine σ) : Records e e [] := ⟨rfl, fun _ => rfl, id⟩

theorem Records.trans {e e' e'' : Engine σ} {es fs : List Event} (h : Records e e' es)
    (h' : Records e' e'' fs) : Records e e'' (es ++ fs) where
  board := by rw [h'.board, h.board, Totals.recordAll_append]
  share c := by rw [h'.share, h.share, Counter.total_append, Nat.add_assoc]
  counted he := h'.counted (h.counted he)

theorem isCounted_start {e : Engine σ} (he : e.IsCounted) (r : Remote σ) (d : Dialect)
    (options : ConnectOptions) (q : Request) : (e.perform (.start r d options q)).IsCounted := by
  rw [perform]
  cases hvalue : (Scan.start r d options q e.source).value with
  | error cause => exact he
  | ok s =>
    exact List.forall_mem_append.2 ⟨he, List.forall_mem_singleton.2 (counted_of_start hvalue)⟩

theorem isCounted_set {e : Engine σ} (he : e.IsCounted) {index : Nat} {x x' : Opened σ}
    (hx : e.scans[index]? = some x) {events : List Event} (h : Responds x x' events) :
    ∀ y ∈ e.scans.set index x', Counted y.scan y.yielded := by
  intro y hy
  rcases List.mem_or_eq_of_mem_set hy with hy | rfl
  · exact he y hy
  · exact h.counted (he x (List.mem_of_getElem? hx))

/-- What one operation records. -/
theorem exists_records_perform {e : Engine σ} (h : e.board.active = none) (o : Operation σ) :
    ∃ events, Records e (e.perform o) events := by
  cases o with
  | start r d options q =>
    refine ⟨(Scan.start r d options q e.source).events, ?_, fun c => ?_,
      fun he => isCounted_start he r d options q⟩
    · rw [← Board.recordAll_of_none h, perform]
      cases (Scan.start r d options q e.source).value <;> rfl
    · rw [share_of_start, perform]
      cases (Scan.start r d options q e.source).value <;>
        simp only [share, List.map_append, List.sum_append, List.map_cons, List.map_nil,
          List.sum_cons, List.sum_nil] <;> omega
  | ask index command =>
    cases hx : e.scans[index]? with
    | none => exact ⟨[], by rw [perform, hx]; exact .refl e⟩
    | some x =>
      cases hdropped : x.dropped with
      | true => exact ⟨[], by rw [perform, hx]; simp only [hdropped, if_pos]; exact .refl e⟩
      | false =>
        have hresponds := responds_ask hdropped command e.source
        refine ⟨(x.ask command e.source).events, ?_, fun c => ?_, fun he => ?_⟩
        · simp [perform, hx, hdropped, Board.recordAll_of_none h]
        · have hscans := sum_map_set (·.share c) hx (share_of_responds hresponds c)
          simp only [perform, hx, hdropped, share, Bool.false_eq_true, if_false, hscans]
          omega
        · simp only [perform, hx, hdropped, Bool.false_eq_true, if_false]
          exact isCounted_set he hx hresponds

/-- What a whole program records. -/
theorem exists_records_run {e : Engine σ} (h : e.board.active = none)
    (program : List (Operation σ)) : ∃ events, Records e (e.run program) events := by
  induction program generalizing e with
  | nil => exact ⟨[], .refl e⟩
  | cons o program ih =>
    obtain ⟨es, hes⟩ := exists_records_perform h o
    obtain ⟨fs, hfs⟩ := ih (e := e.perform o) (by rw [hes.board]; exact h)
    exact ⟨es ++ fs, hes.trans hfs⟩

/-- At any time a counter shows what it owes to the scans of the program, or the limit beyond it. -/
theorem read_run (w : σ) (program : List (Operation σ)) (c : Counter) :
    c.read ((new w).run program).board.totals =
      min counterLimit (((new w).run program).share c) := by
  obtain ⟨events, h⟩ := exists_records_run (e := new w) rfl program
  have hzero : (new w).share c = 0 := rfl
  rw [h.board, h.share, hzero, Nat.zero_add]
  exact c.read_recordAll events

/-- At any time the counters of a scan show the batches that it has handed out. -/
theorem isCounted_run (w : σ) (program : List (Operation σ)) :
    ((new w).run program).IsCounted := by
  obtain ⟨events, h⟩ := exists_records_run (e := new w) rfl program
  exact h.counted fun x hx => absurd hx List.not_mem_nil

/-! ### The balance -/

/-- The counters of a program. -/
def totals (e : Engine σ) : Totals :=
  e.board.totals

/-- The scans of a table. -/
def scansOf (e : Engine σ) (table : String) : List (Opened σ) :=
  e.scans.filter (·.scan.table = table)

/-- No total is too great for a counter. -/
structure Fits (e : Engine σ) : Prop where
  scans : e.scans.length < twoPow 64
  errors : e.refusals.countP isAttempt + (e.scans.map Opened.errors).sum < twoPow 64
  batches : (e.scans.map (·.yielded.length)).sum < twoPow 64
  rows : (e.scans.map (rowTotal ·.yielded)).sum < twoPow 64
  bytes : (e.scans.map (byteTotal ·.yielded)).sum < twoPow 64

/-- The counters agree with the scans. -/
structure Balanced (e : Engine σ) : Prop where
  opened : e.totals.scansOpened = e.scans.length
  held : e.totals.scansOpened = e.totals.scansClosed + e.scans.countP Opened.holds
  errors : e.totals.scanErrors = e.refusals.countP isAttempt + (e.scans.map Opened.errors).sum
  batches : e.totals.batchesFetched = (e.scans.map (·.yielded.length)).sum
  rows : e.totals.rowsFetched = (e.scans.map (·.scan.rowsRead)).sum
  bytes : e.totals.bytesFetched = (e.scans.map (·.scan.bytesRead)).sum
  table : ∀ table, e.totals.ofTable table =
    { scansOpened := (e.scansOf table).length
      rowsFetched := ((e.scansOf table).map (·.scan.rowsRead)).sum
      bytesFetched := ((e.scansOf table).map (·.scan.bytesRead)).sum }

theorem share_scansOpened (e : Engine σ) : e.share .scansOpened = e.scans.length := by
  simp [share, Opened.share, refusalShare]

theorem share_scansClosed (e : Engine σ) :
    e.share .scansClosed + e.scans.countP Opened.holds = e.scans.length := by
  have hclosed : e.share .scansClosed = e.scans.countP fun x => ¬ x.holds := by
    simp [share, Opened.share, refusalShare, List.sum_map_ite, List.countP_eq_length_filter]
  rw [hclosed, Nat.add_comm]
  exact (List.length_eq_countP_add_countP _).symm

theorem share_scanErrors (e : Engine σ) :
    e.share .scanErrors = e.refusals.countP isAttempt + (e.scans.map Opened.errors).sum := by
  have hrefusals : (e.refusals.map (refusalShare · .scanErrors)).sum =
      e.refusals.countP isAttempt := by
    simp [refusalShare, List.sum_map_ite, List.countP_eq_length_filter]
  rw [share, hrefusals, Nat.add_comm]
  rfl

/-- The other counters are owed to opened scans alone. -/
theorem share_eq_sum (e : Engine σ) {c : Counter} (h : ∀ cause, refusalShare cause c = 0) :
    e.share c = (e.scans.map (·.share c)).sum := by
  simp [share, h]

theorem sum_scansOf (e : Engine σ) (table : String) (f : Opened σ → Nat) :
    (e.scans.map fun x => if x.scan.table = table then f x else 0).sum =
      ((e.scansOf table).map f).sum := by
  simp [List.sum_map_ite, scansOf]

/-- The counters of a table are owed to the scans of this table. -/
theorem share_table (e : Engine σ) (table : String) :
    e.share (.tableScans table) = (e.scansOf table).length ∧
      e.share (.tableRows table) = ((e.scansOf table).map (rowTotal ·.yielded)).sum ∧
      e.share (.tableBytes table) = ((e.scansOf table).map (byteTotal ·.yielded)).sum := by
  refine ⟨?_, ?_, ?_⟩
  · rw [share_eq_sum e fun _ => rfl]
    exact (sum_scansOf e table fun _ => 1).trans (by simp)
  · rw [share_eq_sum e fun _ => rfl]
    exact sum_scansOf e table (rowTotal ·.yielded)
  · rw [share_eq_sum e fun _ => rfl]
    exact sum_scansOf e table (byteTotal ·.yielded)

/-- A counter is owed no more than one that is owed at least as much to every scan. -/
theorem share_le {c c' : Counter} (e : Engine σ) (hc : ∀ cause, refusalShare cause c = 0)
    (h : ∀ x : Opened σ, x.share c ≤ x.share c') : e.share c ≤ e.share c' := by
  rw [share_eq_sum e hc, share]
  exact Nat.le_add_right_of_le (List.sum_le_sum fun x _ => h x)

/-- A counter of a table is owed no more than the same counter of the whole engine. -/
theorem share_table_le (e : Engine σ) (table : String) :
    e.share (.tableScans table) ≤ e.share .scansOpened ∧
      e.share (.tableRows table) ≤ e.share .rowsFetched ∧
      e.share (.tableBytes table) ≤ e.share .bytesFetched := by
  have hle : ∀ (x : Opened σ) (n : Nat), (if x.scan.table = table then n else 0) ≤ n := by
    intro x n
    split
    · exact Nat.le_refl n
    · exact Nat.zero_le n
  exact ⟨share_le e (fun _ => rfl) fun x => hle x _, share_le e (fun _ => rfl) fun x => hle x _,
    share_le e (fun _ => rfl) fun x => hle x _⟩

/-- A total that a counter can show is shown. -/
theorem read_run_of_lt {w : σ} {program : List (Operation σ)} {c : Counter} {n : Nat}
    (h : ((new w).run program).share c = n) (hn : n < twoPow 64) :
    c.read ((new w).run program).totals = n := by
  have hlimit : n ≤ counterLimit := Nat.le_sub_one_of_lt hn
  rw [totals, read_run, h]
  exact Nat.min_eq_right hlimit

/-- Where no total is too great, every scan has counted what it has handed out. -/
theorem Fits.scan_eq {e : Engine σ} (h : e.Fits) (hcounted : e.IsCounted) {x : Opened σ}
    (hx : x ∈ e.scans) :
    x.scan.rowsRead = rowTotal x.yielded ∧ x.scan.bytesRead = byteTotal x.yielded := by
  have hle : ∀ f : Opened σ → Nat, f x ≤ (e.scans.map f).sum := fun f =>
    List.le_sum_of_mem (List.mem_map_of_mem hx)
  exact ⟨(hcounted x hx).rowsRead_eq (Nat.lt_of_le_of_lt (hle (rowTotal ·.yielded)) h.rows),
    (hcounted x hx).bytesRead_eq (Nat.lt_of_le_of_lt (hle (byteTotal ·.yielded)) h.bytes)⟩

theorem Fits.sum_eq {e : Engine σ} (h : e.Fits) (hcounted : e.IsCounted)
    {scans : List (Opened σ)} (hscans : ∀ x ∈ scans, x ∈ e.scans) :
    (scans.map (·.scan.rowsRead)).sum = (scans.map (rowTotal ·.yielded)).sum ∧
      (scans.map (·.scan.bytesRead)).sum = (scans.map (byteTotal ·.yielded)).sum := by
  constructor
  · exact congrArg List.sum (List.map_congr_left fun x hx => (h.scan_eq hcounted (hscans x hx)).1)
  · exact congrArg List.sum (List.map_congr_left fun x hx => (h.scan_eq hcounted (hscans x hx)).2)

/-- **The counters account for every scan.**  Take any program that opens scans, some of them without
success, and asks each of them for batches, to close, or drops it, in any order and against any
sources.  As long as no total is too great for a counter, the scans opened are those closed and those
that still hold their handles; the batches, the rows and the payload are those of all scans ever
opened, for the whole engine and for every table; and the errors are those of the scans that could
not be opened though they had a statement, and those that scans have answered. -/
theorem run_balanced (w : σ) (program : List (Operation σ)) (h : ((new w).run program).Fits) :
    ((new w).run program).Balanced := by
  have hcounted := isCounted_run w program
  generalize he : (new w).run program = e at h hcounted ⊢
  have hread : ∀ c n, e.share c = n → n < twoPow 64 → c.read e.totals = n := by
    rw [← he]
    exact fun c n => read_run_of_lt
  have hopened := share_scansOpened e
  have hclosed := share_scansClosed e
  have hrows : e.share .rowsFetched = (e.scans.map (rowTotal ·.yielded)).sum :=
    share_eq_sum e fun _ => rfl
  have hbytes : e.share .bytesFetched = (e.scans.map (byteTotal ·.yielded)).sum :=
    share_eq_sum e fun _ => rfl
  obtain ⟨hrowsRead, hbytesRead⟩ := h.sum_eq hcounted fun _ hx => hx
  have hscans := h.scans
  refine ⟨hread .scansOpened _ hopened hscans, ?_,
    hread .scanErrors _ (share_scanErrors e) h.errors,
    hread .batchesFetched _ (share_eq_sum e fun _ => rfl) h.batches,
    (hread .rowsFetched _ hrows h.rows).trans hrowsRead.symm,
    (hread .bytesFetched _ hbytes h.bytes).trans hbytesRead.symm, fun table => ?_⟩
  · have hread : e.totals.scansOpened = e.scans.length ∧ e.totals.scansClosed = _ :=
      ⟨hread .scansOpened _ hopened hscans, hread .scansClosed _ rfl (by omega)⟩
    rw [hread.1, hread.2, hclosed]
  · obtain ⟨hscansOf, hrowsOf, hbytesOf⟩ := share_table e table
    obtain ⟨hleScans, hleRows, hleBytes⟩ := share_table_le e table
    obtain ⟨hrowsReadOf, hbytesReadOf⟩ :=
      h.sum_eq hcounted fun x (hx : x ∈ e.scansOf table) => List.mem_of_mem_filter hx
    rw [hrowsReadOf, hbytesReadOf]
    calc e.totals.ofTable table
      _ = ⟨Counter.read e.totals (.tableScans table), Counter.read e.totals (.tableRows table),
            Counter.read e.totals (.tableBytes table)⟩ := rfl
      _ = _ := by
        rw [hread _ _ hscansOf (by omega),
          hread _ _ hrowsOf (Nat.lt_of_le_of_lt (hrowsOf ▸ hrows ▸ hleRows) h.rows),
          hread _ _ hbytesOf (Nat.lt_of_le_of_lt (hbytesOf ▸ hbytes ▸ hleBytes) h.bytes)]

/-- Two scans in turn, one of which loses its source after its first row, beside one that lacks a
statement and one that is refused by its source. -/
theorem run_balanced_interleaved :
    let script : Script :=
      { columns := [⟨"a", .integer, 10, 0, true⟩]
        rows := #[[.int 7], [.int 8]]
        connectFailure := none
        statementFailure := none
        executeFailure := none
        fetchFailure := none
        closeFailure := fun _ => none
        bornClosed := []
        autoClose := true }
    let lost := { script with fetchFailure := some (1, .fetch "gone") }
    let missing := { script with executeFailure := some (.query "no such table") }
    let options := ConnectOptions.ofUrl "url"
    let e := (new fun _ => Script.State.start).run [
      .start (among script.remote 0) .generic options ⟨"t", ["a"], [], []⟩,
      .start (among script.remote 1) .generic options ⟨"", ["a"], [], []⟩,
      .start (among lost.remote 1) .generic options ⟨"u", ["a"], [], []⟩,
      .start (among missing.remote 2) .generic options ⟨"v", ["a"], [], []⟩,
      .ask 0 .next,
      .ask 1 .next,
      .ask 1 .drop]
    e.totals =
        { Totals.zero with
          scansOpened := 2
          scansClosed := 1
          scanErrors := 2
          batchesFetched := 1
          rowsFetched := 2
          bytesFetched := 16
          tables := .ofList [("t", ⟨1, 2, 16⟩), ("u", ⟨1, 0, 0⟩)] } ∧
      e.scans.map Opened.holds = [true, false] ∧ e.Balanced := by
  intro script lost missing options e
  refine ⟨by decide +kernel, by decide +kernel, run_balanced _ _ ⟨?_, ?_, ?_, ?_, ?_⟩⟩ <;>
    decide +kernel

end Engine

end ExternalTable.Scan
