import ExternalTable.Metrics.Totals
import ExternalTable.Scan.Action
import ExternalTable.Scan.Batch
import ExternalTable.Scan.Request
import ExternalTable.Statement

/-!
# Scans

A scan executes one statement at a remote source and hands out its rows in batches, each fetched
when it is asked for.

* `ScanError`: what can go wrong;
* `Scan`: an open scan, and `Phase` how far it is;
* `Scan.start`: opens a scan;
* `Scan.next`: the next batch;
* `Scan.close`: ends a scan early.

The handles of the remote source are released once: when the result is exhausted, when a batch
fails, or when the scan is closed, whichever comes first.  They are released from the innermost
out, and every one of them even when one before it fails.
-/

namespace ExternalTable

open Scan Metrics

/-- What can go wrong with a scan. -/
inductive ScanError where
  | statement (cause : StatementError)
  | openFailed (cause : RemoteError)
  | fetchFailed (cause : RemoteError)
  | schema (cause : SchemaError)
  | closeFailed (cause : RemoteError)
  deriving DecidableEq

namespace ScanError

/-- The stable name of the kind of an error. -/
def kind : ScanError → String
  | .statement _ => "query"
  | .openFailed _ | .fetchFailed _ => "execution"
  | .schema _ => "schema"
  | .closeFailed _ => "close"

/-- The message of an error. -/
def message : ScanError → String
  | .statement cause => "failed to build scan statement: " ++ cause.message
  | .openFailed cause => "failed to open remote cursor: " ++ cause.message
  | .fetchFailed cause => "failed to fetch from remote cursor: " ++ cause.message
  | .schema cause => cause.message
  | .closeFailed cause => "failed to release remote resources: " ++ cause.message

end ScanError

/-- How far a scan is. -/
inductive Scan.Phase where
  /-- There may be more rows. -/
  | reading
  /-- The result is exhausted, and the handles are still held. -/
  | drained
  /-- The handles are released. -/
  | closed
  deriving DecidableEq

/-- A scan that was opened. -/
structure Scan where
  table : String
  statement : Sql
  schema : List Field
  batchSize : Nat
  rowsRead : Nat
  bytesRead : Nat
  phase : Scan.Phase

namespace Scan

variable {σ : Type}

/-- Whether the handles of a scan are released. -/
def isClosed (s : Scan) : Bool :=
  s.phase == .closed

/-- Releases handles in order, except those that are closed already.  The answer is the first
failure. -/
def release (r : Remote σ) : List Handle → Exec σ (Option RemoteError)
  | [] => pure none
  | h :: rest => do
      if (← Exec.observe (r.isClosed · h)) then
        release r rest
      else
        match (← Exec.call (.close h) (r.close h)) with
        | .ok () => release r rest
        | .error e =>
            let _ ← release r rest
            return some e

/-- The handles of a scan, innermost first. -/
def handles : List Handle :=
  [.cursor, .statement, .connection]

/-- Executes a statement on a new connection.  The answer is the columns of the result, or the first
failure with the handles that are held by then, innermost first. -/
def acquire (r : Remote σ) (options : ConnectOptions) (statement : Sql) :
    Exec σ (Except (RemoteError × List Handle) (List Column)) := do
  match (← Exec.call (.connect options) (r.connect options)) with
  | .error e => return .error (e, [])
  | .ok () =>
      match (← Exec.call .createStatement r.createStatement) with
      | .error e => return .error (e, [.connection])
      | .ok () =>
          match (← Exec.call (.execute statement) (r.execute statement)) with
          | .error e => return .error (e, [.statement, .connection])
          | .ok columns => return .ok columns

/-- Gives up on a scan that could not be opened, and releases what is held. -/
def abandon (r : Remote σ) (table : String) (held : List Handle) (e : ScanError) :
    Exec σ (Except ScanError Scan) := do
  Exec.record (.scanFailed table)
  let _ ← release r held
  return .error e

/-- Opens the scan of a request.  Where this fails nothing stays open, and the error is the cause of
the failure, whatever happens on the way out. -/
def start (r : Remote σ) (d : Dialect) (options : ConnectOptions) (q : Request) :
    Exec σ (Except ScanError Scan) := do
  match selectBound d q.table q.columns (q.filters.map String.toList) q.params with
  | .error e => return .error (.statement e)
  | .ok statement =>
      match (← acquire r options statement) with
      | .error (e, held) => abandon r q.table held (.openFailed e)
      | .ok columns =>
          match schemaOf columns with
          | .error e => abandon r q.table handles (.schema e)
          | .ok schema =>
              Exec.record (.scanOpened q.table (rowsPerBatch columns))
              return .ok ⟨q.table, statement, schema, rowsPerBatch columns, 0, 0, .reading⟩

/-- Releases the handles of a scan, unless they are released already. -/
def close (r : Remote σ) (s : Scan) : Exec σ (Except ScanError Unit × Scan) := do
  match s.phase with
  | .closed => return (.ok (), s)
  | _ =>
      let failure ← release r handles
      Exec.record (.scanClosed s.table)
      match failure with
      | none => return (.ok (), { s with phase := .closed })
      | some e => return (.error (.closeFailed e), { s with phase := .closed })

/-- Fetches at most so many rows.  The answer tells whether the result is exhausted. -/
def pull (r : Remote σ) : Nat → Exec σ (Except RemoteError (List Row × Bool))
  | 0 => return .ok ([], false)
  | wanted + 1 => do
      match (← Exec.call .nextRow r.nextRow) with
      | .error e => return .error e
      | .ok none => return .ok ([], true)
      | .ok (some row) =>
          match (← pull r wanted) with
          | .error e => return .error e
          | .ok (rows, exhausted) => return .ok (row :: rows, exhausted)

/-- The scan after it handed out a batch.  Its counters have 64 bits: that of the rows stays at the
greatest number, and that of the payload starts again from zero beyond it. -/
def account (s : Scan) (batch : Batch) (exhausted : Bool) : Scan :=
  { s with
    rowsRead := bump s.rowsRead batch.rowCount
    bytesRead := (s.bytesRead + batch.byteLength) % twoPow 64
    phase := if exhausted then .drained else .reading }

/-- Fetches the rows of a batch and assembles them.  There is no batch of no rows. -/
def fetch (r : Remote σ) (s : Scan) : Exec σ (Except ScanError (Option Batch) × Scan) := do
  match s.phase with
  | .reading =>
      match (← pull r s.batchSize) with
      | .error e => return (.error (.fetchFailed e), s)
      | .ok (rows, exhausted) =>
          if rows.isEmpty then
            return (.ok none, s)
          else
            match Batch.ofRows s.schema rows with
            | .error e => return (.error (.schema e), s)
            | .ok batch =>
                Exec.record (.batchFetched s.table batch.rowCount batch.byteLength)
                return (.ok (some batch), s.account batch exhausted)
  | _ => return (.ok none, s)

/-- The next batch, or none at the end.  The end and every failure close the scan, and a failure to
release the handles is not reported then. -/
def next (r : Remote σ) (s : Scan) : Exec σ (Option (Except ScanError Batch) × Scan) := do
  match s.phase with
  | .closed => return (none, s)
  | _ =>
      let (fetched, s) ← fetch r s
      match fetched with
      | .ok (some batch) => return (some (.ok batch), s)
      | .ok none =>
          let (_, s) ← close r s
          return (none, s)
      | .error e =>
          Exec.record (.scanFailed s.table)
          let (_, s) ← close r s
          return (some (.error e), s)

/-- Lets go of a scan: closes it, and forgets a failure to do so. -/
def drop (r : Remote σ) (s : Scan) : Exec σ Unit := do
  let _ ← close r s
  return ()

end Scan

end ExternalTable
