import ExternalTable.Metrics.Totals

/-!
# Scopes of sinks

Events go to the totals, or, within a scope, to the sink of the innermost scope alone.

* `Board`: the totals, the sink in force, and what every sink has received;
* `Board.record`: takes one event;
* `Exit`: how a scope is left, by returning or by unwinding;
* `Board.scoped`: runs a body with another sink in force, and restores the one before it however the
  body is left.
-/

namespace ExternalTable.Metrics

/-- A sink, by its number. -/
abbrev SinkId := Nat

/-- Where events go, and where they went. -/
structure Board where
  totals : Totals
  /-- The sink of the innermost scope, if there is a scope. -/
  active : Option SinkId
  /-- What each sink has received, in order. -/
  received : SinkId → List Event

namespace Board

/-- The board before the first event. -/
def start : Board := ⟨.zero, none, fun _ => []⟩

/-- Takes one event: into the sink in force, or into the totals where there is none. -/
def record (b : Board) (e : Event) : Board :=
  match b.active with
  | none => { b with totals := b.totals.record e }
  | some sink =>
      { b with received := fun s => if s = sink then b.received s ++ [e] else b.received s }

/-- Takes several events in order. -/
def recordAll (b : Board) (events : List Event) : Board :=
  events.foldl record b

/-- Sets the totals back to zero. -/
def reset (b : Board) : Board :=
  { b with totals := .zero }

end Board

/-- How a computation is left. -/
inductive Exit (α : Type) where
  | returned (value : α)
  | unwound
  deriving DecidableEq

/-- Runs a body within a scope of the given sink.  The sink in force before the scope is in force
after it, whether the body returns or unwinds. -/
def Board.scoped {α σ : Type} (sink : SinkId) (body : Board → σ → Exit α × Board × σ)
    (b : Board) (s : σ) : Exit α × Board × σ :=
  let (exit, inner, s) := body { b with active := some sink } s
  (exit, { inner with active := b.active }, s)

@[simp] theorem Board.active_scoped {α σ : Type} (sink : SinkId)
    (body : Board → σ → Exit α × Board × σ) (b : Board) (s : σ) :
    (b.scoped sink body s).2.1.active = b.active := rfl

@[simp] theorem Board.recordAll_nil (b : Board) : b.recordAll [] = b := rfl

@[simp] theorem Board.recordAll_cons (b : Board) (e : Event) (es : List Event) :
    b.recordAll (e :: es) = (b.record e).recordAll es := rfl

end ExternalTable.Metrics
