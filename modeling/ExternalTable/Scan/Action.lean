import ExternalTable.Metrics.Event
import ExternalTable.Remote.Basic

/-!
# Actions of scans

Everything that a scan does to the world is an action: a call to the remote source, or an event.

* `Action`: the actions;
* `Exec`: computations against a remote source that keep account of their actions;
* `Exec.call`, `Exec.record`, `Exec.observe`: the computations of which all others consist.
-/

namespace ExternalTable.Scan

/-- One thing that a scan does. -/
inductive Action where
  | connect (options : ConnectOptions)
  | createStatement
  | execute (statement : Sql)
  | nextRow
  | close (handle : Handle)
  | record (event : Metrics.Event)
  deriving DecidableEq

/-- The event that an action records, if it does. -/
def Action.event? : Action → Option Metrics.Event
  | .record e => some e
  | _ => none

/-- The end of a computation: its value, the state of the source, and the actions in order. -/
structure Ran (σ α : Type) where
  value : α
  source : σ
  actions : List Action

/-- The events among the actions of a computation, in order. -/
def Ran.events {σ α : Type} (r : Ran σ α) : List Metrics.Event :=
  r.actions.filterMap Action.event?

/-- A computation against a remote source with states `σ`. -/
def Exec (σ α : Type) : Type := σ → Ran σ α

namespace Exec

variable {σ α β : Type}

/-- The computation that does nothing. -/
def done (a : α) : Exec σ α := fun s => ⟨a, s, []⟩

/-- One computation after another. -/
def andThen (m : Exec σ α) (f : α → Exec σ β) : Exec σ β := fun s =>
  let first := m s
  let second := f first.value first.source
  ⟨second.value, second.source, first.actions ++ second.actions⟩

instance : Monad (Exec σ) where
  pure := done
  bind := andThen

/-- Calls the source. -/
def call (a : Action) (answer : σ → α × σ) : Exec σ α := fun s =>
  let (value, s) := answer s
  ⟨value, s, [a]⟩

/-- Records an event. -/
def record (e : Metrics.Event) : Exec σ Unit := fun s => ⟨(), s, [.record e]⟩

/-- Looks at the source without a call. -/
def observe (look : σ → α) : Exec σ α := fun s => ⟨look s, s, []⟩

@[simp] theorem pure_apply (a : α) (s : σ) : (pure a : Exec σ α) s = ⟨a, s, []⟩ := rfl

@[simp] theorem bind_apply (m : Exec σ α) (f : α → Exec σ β) (s : σ) :
    (m >>= f) s =
      ⟨(f (m s).value (m s).source).value, (f (m s).value (m s).source).source,
        (m s).actions ++ (f (m s).value (m s).source).actions⟩ := rfl

@[simp] theorem call_apply (a : Action) (answer : σ → α × σ) (s : σ) :
    call a answer s = ⟨(answer s).1, (answer s).2, [a]⟩ := rfl

@[simp] theorem record_apply (e : Metrics.Event) (s : σ) :
    (record e : Exec σ Unit) s = ⟨(), s, [.record e]⟩ := rfl

@[simp] theorem observe_apply (look : σ → α) (s : σ) : observe look s = ⟨look s, s, []⟩ := rfl

end Exec

end ExternalTable.Scan
