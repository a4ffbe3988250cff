import ExternalTable.Fragment.Pushdown

/-!
# Events

What the engine reports about itself: one event per filter offered, and the events of a scan's life.

* `Event`: the events;
* `Logged`: a result together with the events that its computation recorded.
-/

namespace ExternalTable.Metrics

/-- An event. -/
inductive Event where
  | pushdown (outcome : Fragment.Outcome)
  | scanOpened (table : String) (batchSize : Nat)
  | batchFetched (table : String) (rows bytes : Nat)
  | scanFailed (table : String)
  | scanClosed (table : String)
  deriving DecidableEq

/-- A result and the events recorded on the way to it, in order. -/
structure Logged (α : Type) where
  value : α
  events : List Event

/-- The answers for filters that are offered one after the other, each with its event. -/
def pushdownAll (d : Dialect) (filters : List Filter) : Logged (List Fragment.Pushdown) :=
  let answers := filters.map (Fragment.pushdown d)
  ⟨answers, answers.map fun p => .pushdown p.outcome⟩

end ExternalTable.Metrics
