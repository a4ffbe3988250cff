import ExternalTable.Remote.Basic

/-!
# Scripted sources

A remote source that follows a script: the columns and rows of its one result, and the calls that
fail.

* `Script`: the script;
* `Script.State`: the position of the cursor and the handles that were closed;
* `Script.remote`: the source.
-/

namespace ExternalTable

/-- The course of a remote source. -/
structure Script where
  columns : List Column
  rows : Array Row
  connectFailure : Option RemoteError
  statementFailure : Option RemoteError
  executeFailure : Option RemoteError
  /-- The position at which fetching a row fails, and the error. -/
  fetchFailure : Option (Nat × RemoteError)
  closeFailure : Handle → Option RemoteError
  /-- The handles that report themselves closed from the start. -/
  bornClosed : List Handle
  /-- Whether the cursor closes itself at the end of the result. -/
  autoClose : Bool

namespace Script

/-- Where a scripted source stands. -/
structure State where
  position : Nat
  closed : List Handle
  deriving DecidableEq

/-- The state before the first call. -/
def State.start : State := ⟨0, []⟩

/-- The answer of a call that fails if a failure is given. -/
def answer {α : Type} (failure : Option RemoteError) (value : α) : Except RemoteError α :=
  match failure with
  | some e => .error e
  | none => .ok value

/-- The failure of fetching at a position. -/
def fetchFailureAt? (script : Script) (position : Nat) : Option RemoteError :=
  match script.fetchFailure with
  | some (failing, e) => if failing = position then some e else none
  | none => none

/-- Fetches the row at the position and moves on, past the end too.  A failure leaves the position
where it is. -/
def nextRow (script : Script) (s : State) : Except RemoteError (Option Row) × State :=
  match script.fetchFailureAt? s.position with
  | some e => (.error e, s)
  | none =>
      match script.rows[s.position]? with
      | some row => (.ok (some row), { s with position := s.position + 1 })
      | none =>
          (.ok none,
            { position := s.position + 1
              closed := if script.autoClose then .cursor :: s.closed else s.closed })

/-- The source that follows a script. -/
def remote (script : Script) : Remote State where
  connect _ s := (answer script.connectFailure (), s)
  createStatement s := (answer script.statementFailure (), s)
  execute _ s := (answer script.executeFailure script.columns, s)
  nextRow := script.nextRow
  close h s := (answer (script.closeFailure h) (), { s with closed := h :: s.closed })
  isClosed s h := script.bornClosed.contains h || s.closed.contains h

end Script

end ExternalTable
