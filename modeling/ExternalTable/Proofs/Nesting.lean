import Mathlib.Data.List.Dedup
import ExternalTable.Metrics.Scope
import ExternalTable.Scan.Action

/-!
# Nested scopes

Scopes of sinks nest to any depth, the same sink may be installed by several of them, and any of
them may be left by unwinding, alone or together with those around it.  All the same, an event goes
to the sink of the innermost scope around it and nowhere else.

The board knows only which sink is in force.  What should happen is told without it: the course of a
program is read off the program, with each event and the scopes that stand around it.

* `Program`, `Program.run`: programs with scopes, and what they do to a board;
* `Occurrence`, `Course`, `Program.course`: the events of a program, each with the sinks of the
  scopes around it;
* `sentTo`, `Board.deliver`: the events of one recipient, and the board once all have been received;
* `Program.run_eq`: running a program delivers its course;
* `events_reach_innermost`: the main statement.
-/

namespace ExternalTable.Metrics

open Scan

variable {σ : Type}

/-! ### Programs -/

/-- A program that works against a source with states `σ`. -/
inductive Program (σ : Type) where
  /-- Work that may record events, and may begin to unwind. -/
  | work (body : Exec σ (Exit Unit))
  /-- A scope of a sink. -/
  | scope (sink : SinkId) (body : List (Program σ))
  /-- The cleanup comes after the body however that is left. -/
  | ensure (body cleanup : List (Program σ))
  /-- Unwinding within the body ends here. -/
  | recover (body : List (Program σ))

/-- How two programs are left of which the second runs in any case. -/
def Exit.both : Exit Unit → Exit Unit → Exit Unit
  | .returned _, second => second
  | .unwound, _ => .unwound

namespace Program

mutual

/-- Runs a program.  The board takes the events of its work as they come. -/
def run : Program σ → Board → σ → Exit Unit × Board × σ
  | .work body, b, s => ((body s).value, b.recordAll (body s).events, (body s).source)
  | .scope sink body, b, s => b.scoped sink (runAll body) s
  | .ensure body cleanup, b, s =>
      let (first, b, s) := runAll body b s
      let (second, b, s) := runAll cleanup b s
      (first.both second, b, s)
  | .recover body, b, s =>
      let (_, b, s) := runAll body b s
      (.returned (), b, s)

/-- Runs programs one after the other.  Those after one that unwinds are not reached. -/
def runAll : List (Program σ) → Board → σ → Exit Unit × Board × σ
  | [], b, s => (.returned (), b, s)
  | p :: ps, b, s =>
      match p.run b s with
      | (.returned _, b, s) => runAll ps b s
      | (.unwound, b, s) => (.unwound, b, s)

end

end Program

/-- An event at its place in a program. -/
structure Occurrence where
  event : Event
  /-- The sinks of the scopes around the place, innermost first. -/
  scopes : List SinkId

/-- The sink that an event should reach.  An event outside all scopes goes to the totals. -/
def Occurrence.recipient (o : Occurrence) : Option SinkId :=
  o.scopes.head?

/-- How a program is left, and in which state of the source, with the events recorded until then. -/
structure Course (σ : Type) where
  exit : Exit Unit
  source : σ
  events : List Occurrence

namespace Program

mutual

/-- The course of a program that stands within scopes of the given sinks. -/
def course (around : List SinkId) : Program σ → σ → Course σ
  | .work body, s => ⟨(body s).value, (body s).source, (body s).events.map (⟨·, around⟩)⟩
  | .scope sink body, s => courseAll (sink :: around) body s
  | .ensure body cleanup, s =>
      let first := courseAll around body s
      let second := courseAll around cleanup first.source
      ⟨first.exit.both second.exit, second.source, first.events ++ second.events⟩
  | .recover body, s => { courseAll around body s with exit := .returned () }

/-- The course of programs one after the other. -/
def courseAll (around : List SinkId) : List (Program σ) → σ → Course σ
  | [], s => ⟨.returned (), s, []⟩
  | p :: ps, s =>
      let first := p.course around s
      match first.exit with
      | .returned _ =>
          let rest := courseAll around ps first.source
          { rest with events := first.events ++ rest.events }
      | .unwound => first

end

end Program

/-! ### Delivery -/

/-- The events with the given recipient, in order. -/
def sentTo (recipient : Option SinkId) (events : List Occurrence) : List Event :=
  (events.filter fun o => o.recipient = recipient).map Occurrence.event

/-- The board after each event has reached its recipient. -/
def Board.deliver (b : Board) (events : List Occurrence) : Board where
  totals := b.totals.recordAll (sentTo none events)
  active := b.active
  received := fun sink => b.received sink ++ sentTo (some sink) events

theorem sentTo_append (recipient : Option SinkId) (es fs : List Occurrence) :
    sentTo recipient (es ++ fs) = sentTo recipient es ++ sentTo recipient fs := by
  simp [sentTo]

theorem sentTo_singleton (recipient : Option SinkId) (o : Occurrence) :
    sentTo recipient [o] = if o.recipient = recipient then [o.event] else [] := by
  by_cases h : o.recipient = recipient
  · simp [sentTo, h]
  · simp [sentTo, h]

theorem Board.deliver_nil (b : Board) : b.deliver [] = b := by
  simp [deliver, sentTo]

theorem Board.deliver_append (b : Board) (es fs : List Occurrence) :
    b.deliver (es ++ fs) = (b.deliver es).deliver fs := by
  simp [deliver, sentTo_append, Totals.recordAll_append]

/-- One event, where the innermost of the scopes around it is in force. -/
theorem Board.record_eq_deliver {b : Board} {around : List SinkId} (h : around.head? = b.active)
    (e : Event) : b.record e = b.deliver [⟨e, around⟩] := by
  have hrecipient : (⟨e, around⟩ : Occurrence).recipient = b.active := h
  obtain ⟨totals, active, received⟩ := b
  simp only [deliver, sentTo_singleton, hrecipient]
  cases active with
  | none => simp [record]
  | some sink =>
    simp only [record, Option.some.injEq, reduceCtorEq, if_false, Totals.recordAll_nil]
    congr 1
    funext k
    by_cases hk : sink = k
    · simp [hk]
    · simp [hk, Ne.symm hk]

theorem Board.recordAll_eq_deliver {b : Board} {around : List SinkId} (h : around.head? = b.active)
    (events : List Event) : b.recordAll events = b.deliver (events.map (⟨·, around⟩)) := by
  induction events generalizing b with
  | nil => rw [List.map_nil, deliver_nil, recordAll_nil]
  | cons e events ih =>
    have hrest : around.head? = (b.deliver [⟨e, around⟩]).active := h
    rw [recordAll_cons, record_eq_deliver h, ih hrest, ← deliver_append]
    rfl

/-- No recipient is missed, and no event has two. -/
theorem perm_flatMap_sentTo {recipients : List (Option SinkId)} (hdistinct : recipients.Nodup)
    (events : List Occurrence) (hall : ∀ o ∈ events, o.recipient ∈ recipients) :
    (events.map Occurrence.event).Perm (recipients.flatMap fun r => sentTo r events) := by
  induction recipients generalizing events with
  | nil =>
    have hnone : events = [] := by
      refine List.eq_nil_iff_forall_not_mem.mpr fun o ho => ?_
      simpa using hall o ho
    rw [hnone]
    rfl
  | cons r recipients ih =>
    -- The events of the first recipient are set apart, and no other recipient misses them.
    obtain ⟨hfresh, hdistinct⟩ := List.nodup_cons.mp hdistinct
    let others := events.filter fun o => !decide (o.recipient = r)
    have hothers : ∀ o ∈ others, o.recipient ∈ recipients := by
      intro o ho
      obtain ⟨hmem, hne⟩ := List.mem_filter.mp ho
      exact (List.mem_cons.mp (hall o hmem)).resolve_left (by simpa using hne)
    have hsame : ∀ r' ∈ recipients, sentTo r' others = sentTo r' events := by
      intro r' hr'
      have hne : r' ≠ r := fun h => hfresh (h ▸ hr')
      unfold sentTo
      rw [List.filter_filter]
      congr 1
      refine List.filter_congr fun o _ => ?_
      by_cases ho : o.recipient = r'
      · simp [ho, hne]
      · simp [ho]
    have hparts := (List.filter_append_perm (fun o => decide (o.recipient = r)) events).symm
    refine (hparts.map Occurrence.event).trans ?_
    rw [List.map_append, List.flatMap_cons, ← List.flatMap_congr hsame]
    exact (ih hdistinct others hothers).append_left _

/-! ### Running delivers the course -/

namespace Program

mutual

/-- Where the innermost of the scopes around a program is in force, running the program delivers its
course. -/
theorem run_eq (p : Program σ) {b : Board} {around : List SinkId} (h : around.head? = b.active)
    (s : σ) :
    p.run b s = ((p.course around s).exit, b.deliver (p.course around s).events,
      (p.course around s).source) := by
  cases p with
  | work body =>
    rw [run, course, Board.recordAll_eq_deliver h]
  | scope sink body =>
    have hinner : (sink :: around).head? = ({ b with active := some sink } : Board).active := rfl
    rw [run, course]
    unfold Board.scoped
    rw [runAll_eq body hinner]
    rfl
  | ensure body cleanup =>
    have hrest : around.head? = (b.deliver (courseAll around body s).events).active := h
    rw [run, course, runAll_eq body h]
    simp only
    rw [runAll_eq cleanup hrest, Board.deliver_append]
  | recover body => rw [run, course, runAll_eq body h]

theorem runAll_eq (ps : List (Program σ)) {b : Board} {around : List SinkId}
    (h : around.head? = b.active) (s : σ) :
    runAll ps b s = ((courseAll around ps s).exit, b.deliver (courseAll around ps s).events,
      (courseAll around ps s).source) := by
  cases ps with
  | nil => rw [runAll, courseAll, Board.deliver_nil]
  | cons p ps =>
    rw [runAll, courseAll, run_eq p h]
    cases hexit : (p.course around s).exit with
    | unwound => simp [hexit]
    | returned =>
      have hrest : around.head? = (b.deliver (p.course around s).events).active := h
      simp only [runAll_eq ps hrest, Board.deliver_append]

end

end Program

/-- Events reach the innermost scope.  However programs nest scopes and unwind through them, the
sink in force afterwards is the one before.  The totals take the events outside all scopes, each
sink takes those of which it is the innermost sink, in order and nothing else, and this gives every
event to one recipient. -/
theorem events_reach_innermost (ps : List (Program σ)) (b : Board) (s : σ) :
    let course := Program.courseAll b.active.toList ps s
    let (exit, after, source) := Program.runAll ps b s
    exit = course.exit ∧ source = course.source ∧
      after.active = b.active ∧
      after.totals = b.totals.recordAll (sentTo none course.events) ∧
      (∀ sink, after.received sink = b.received sink ++ sentTo (some sink) course.events) ∧
      (course.events.map Occurrence.event).Perm
        ((course.events.map Occurrence.recipient).dedup.flatMap fun r =>
          sentTo r course.events) := by
  have haround : b.active.toList.head? = b.active := by cases b.active <;> rfl
  have hrecipients : ∀ events : List Occurrence, ∀ o ∈ events,
      o.recipient ∈ (events.map Occurrence.recipient).dedup := fun _ o ho =>
    List.mem_dedup.mpr (List.mem_map_of_mem ho)
  rw [Program.runAll_eq ps haround s]
  exact ⟨rfl, rfl, rfl, rfl, fun _ => rfl,
    perm_flatMap_sentTo (List.nodup_dedup _) _ (hrecipients _)⟩

/-- Two scopes of one sink are left together, and a third one around them stays. -/
example :
    let fails : Program Unit := .work fun s => ⟨.unwound, s, [.record (.scanFailed "t")]⟩
    let closes : Program Unit := .work fun s => ⟨.returned (), s, [.record (.scanClosed "t")]⟩
    let after := (Program.runAll
      [.scope 1 [.recover [.scope 0 [.ensure [.scope 0 [fails, closes]] [closes]]], closes]]
      .start ()).2.1
    after.received 0 = [.scanFailed "t", .scanClosed "t"] ∧
      after.received 1 = [.scanClosed "t"] ∧ after.active = none ∧ after.totals = .zero :=
  ⟨rfl, rfl, rfl, rfl⟩

end ExternalTable.Metrics
