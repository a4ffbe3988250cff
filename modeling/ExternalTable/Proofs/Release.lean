import Mathlib.Data.List.Basic
import Mathlib.Tactic.Common
import ExternalTable.Remote.Script
import ExternalTable.Scan.Basic

/-!
# Releasing the handles of a scan

Whatever is asked of an open scan, in whatever order, the handles of the remote source are released
at one step, and nothing reaches the source after it.

* `Command`, `session`: what can be asked of a scan, and the steps in which it answers;
* `after`: the state of a source after given calls;
* `closings`, `failures`: the calls that release handles, and those of them that fail;
* `Step.Keeps`, `Step.Releases`, `Step.IsIdle`: the steps before, at and after the release;
* `session_releases_once`: the main statement.
-/

namespace ExternalTable.Scan

variable {σ : Type}

/-! ### Sessions -/

/-- What can be asked of a scan.  A scan that was dropped can be asked nothing more. -/
inductive Command where
  | next
  | close
  | drop
  deriving DecidableEq

/-- What a scan answers. -/
inductive Answer where
  | batch (next : Option (Except ScanError Batch))
  | closed (result : Except ScanError Unit)
  | dropped

/-- One command to a scan, the state of the source before it, the answer, and what was done. -/
structure Step (σ : Type) where
  command : Command
  source : σ
  answer : Answer
  actions : List Action

/-- The steps in which a scan answers to commands. -/
def session (r : Remote σ) : List Command → Scan → σ → List (Step σ)
  | [], _, _ => []
  | .next :: rest, s, w =>
      let ran := next r s w
      ⟨.next, w, .batch ran.value.1, ran.actions⟩ :: session r rest ran.value.2 ran.source
  | .close :: rest, s, w =>
      let ran := close r s w
      ⟨.close, w, .closed ran.value.1, ran.actions⟩ :: session r rest ran.value.2 ran.source
  | .drop :: _, s, w => [⟨.drop, w, .dropped, (drop r s w).actions⟩]

/-! ### Calls -/

/-- Whether an action fetches rows or records an event, so that every handle stays as it is. -/
def Action.keeps : Action → Bool
  | .nextRow | .record _ => true
  | _ => false

/-- The state of a source after an action. -/
def Action.effect (r : Remote σ) (w : σ) : Action → σ
  | .connect options => (r.connect options w).2
  | .createStatement => (r.createStatement w).2
  | .execute statement => (r.execute statement w).2
  | .nextRow => (r.nextRow w).2
  | .close h => (r.close h w).2
  | .record _ => w

/-- The state of a source after several actions. -/
def after (r : Remote σ) (actions : List Action) (w : σ) : σ :=
  actions.foldl (Action.effect r) w

@[simp] theorem after_nil (r : Remote σ) (w : σ) : after r [] w = w := rfl

@[simp] theorem after_cons (r : Remote σ) (a : Action) (actions : List Action) (w : σ) :
    after r (a :: actions) w = after r actions (a.effect r w) := rfl

@[simp] theorem after_append (r : Remote σ) (as bs : List Action) (w : σ) :
    after r (as ++ bs) w = after r bs (after r as w) :=
  List.foldl_append

/-- The calls that release handles: one for each handle that does not report itself closed when its
turn comes. -/
def closings (r : Remote σ) : List Handle → σ → List Action
  | [], _ => []
  | h :: rest, w =>
      if r.isClosed w h then closings r rest w else .close h :: closings r rest (r.close h w).2

/-- The errors of these calls. -/
def failures (r : Remote σ) : List Handle → σ → List RemoteError
  | [], _ => []
  | h :: rest, w =>
      if r.isClosed w h then
        failures r rest w
      else
        match (r.close h w).1 with
        | .ok () => failures r rest (r.close h w).2
        | .error e => e :: failures r rest (r.close h w).2

/-- Every handle is attempted, whatever fails before it. -/
theorem release_apply (r : Remote σ) (hs : List Handle) (w : σ) :
    release r hs w = ⟨(failures r hs w).head?, after r (closings r hs w) w, closings r hs w⟩ := by
  induction hs generalizing w with
  | nil => rfl
  | cons h hs ih =>
    rw [release, closings, failures]
    by_cases hclosed : r.isClosed w h = true
    · simp [hclosed, ih]
    · cases hclose : (r.close h w).1 with
      | ok u => simp [hclosed, hclose, ih, Action.effect]
      | error e => simp [hclosed, hclose, ih, Action.effect]

/-- Every handle is closed at most once. -/
theorem closings_sublist (r : Remote σ) (hs : List Handle) (w : σ) :
    (closings r hs w).Sublist (hs.map Action.close) := by
  induction hs generalizing w with
  | nil => exact .slnil
  | cons h hs ih =>
    rw [closings]
    split
    · exact (ih w).cons _
    · exact (ih _).cons_cons _

/-- What closing answers, given the first failure. -/
def closeResult (failure : Option RemoteError) : Except ScanError Unit :=
  match failure with
  | none => .ok ()
  | some e => .error (.closeFailed e)

/-- Closing a scan that holds its handles releases them. -/
theorem close_apply (r : Remote σ) {s : Scan} (hs : s.phase ≠ .closed) (w : σ) :
    close r s w =
      ⟨(closeResult (failures r handles w).head?, { s with phase := .closed }),
        after r (closings r handles w) w,
        closings r handles w ++ [.record (.scanClosed s.table)]⟩ := by
  rw [close]
  cases hphase : s.phase with
  | closed => exact absurd hphase hs
  | reading | drained =>
    simp only [Exec.bind_apply, release_apply, Exec.record_apply]
    cases (failures r handles w).head? <;> simp [closeResult]

theorem close_closed (r : Remote σ) {s : Scan} (hs : s.phase = .closed) (w : σ) :
    close r s w = ⟨(.ok (), s), w, []⟩ := by
  rw [close, hs]
  rfl

/-! ### Fetching -/

/-- A computation that only fetches and records, and calls the source as it says. -/
structure Fetches {α : Type} (r : Remote σ) (w : σ) (ran : Ran σ α) : Prop where
  keeps : ∀ a ∈ ran.actions, a.keeps = true
  source_eq : ran.source = after r ran.actions w

theorem fetches_pull (r : Remote σ) (wanted : Nat) (w : σ) : Fetches r w (pull r wanted w) := by
  induction wanted generalizing w with
  | zero => exact ⟨by simp [pull], rfl⟩
  | succ wanted ih =>
    rw [pull]
    simp only [Exec.bind_apply, Exec.call_apply]
    cases hrow : (r.nextRow w).1 with
    | error e => exact ⟨by simp [Action.keeps], rfl⟩
    | ok row? =>
      cases row? with
      | none => exact ⟨by simp [Action.keeps], rfl⟩
      | some row =>
        have hpull := ih (r.nextRow w).2
        simp only [Exec.bind_apply]
        cases hrows : (pull r wanted (r.nextRow w).2).value with
        | error e =>
          refine ⟨?_, ?_⟩
          · simpa [Action.keeps] using hpull.keeps
          · simpa [Action.effect] using hpull.source_eq
        | ok rows =>
          refine ⟨?_, ?_⟩
          · simpa [Action.keeps] using hpull.keeps
          · simpa [Action.effect] using hpull.source_eq

/-- What fetching a batch can come to: nothing is fetched any more, the source fails, there are no
more rows, a row does not fit the schema, or there is a batch. -/
inductive Fetched (r : Remote σ) (s : Scan) (w : σ) :
    Ran σ (Except ScanError (Option Batch) × Scan) → Prop
  | idle (hphase : s.phase ≠ .reading) : Fetched r s w ⟨(.ok none, s), w, []⟩
  | lost {e : RemoteError} (hphase : s.phase = .reading)
      (hpull : (pull r s.batchSize w).value = .error e) :
      Fetched r s w ⟨(.error (.fetchFailed e), s), (pull r s.batchSize w).source,
        (pull r s.batchSize w).actions⟩
  | exhausted {exhausted : Bool} (hphase : s.phase = .reading)
      (hpull : (pull r s.batchSize w).value = .ok ([], exhausted)) :
      Fetched r s w ⟨(.ok none, s), (pull r s.batchSize w).source,
        (pull r s.batchSize w).actions⟩
  | unfit {rows : List Row} {exhausted : Bool} {e : SchemaError} (hphase : s.phase = .reading)
      (hpull : (pull r s.batchSize w).value = .ok (rows, exhausted))
      (hrows : Batch.ofRows s.schema rows = .error e) :
      Fetched r s w ⟨(.error (.schema e), s), (pull r s.batchSize w).source,
        (pull r s.batchSize w).actions⟩
  | batch {rows : List Row} {exhausted : Bool} {b : Batch} (hphase : s.phase = .reading)
      (hpull : (pull r s.batchSize w).value = .ok (rows, exhausted)) (hne : rows ≠ [])
      (hrows : Batch.ofRows s.schema rows = .ok b) :
      Fetched r s w ⟨(.ok (some b), s.account b exhausted), (pull r s.batchSize w).source,
        (pull r s.batchSize w).actions ++
          [.record (.batchFetched s.table b.rowCount b.byteLength)]⟩

theorem fetched (r : Remote σ) (s : Scan) (w : σ) : Fetched r s w (fetch r s w) := by
  rw [fetch]
  cases hphase : s.phase with
  | drained => exact .idle (by rw [hphase]; exact Phase.noConfusion)
  | closed => exact .idle (by rw [hphase]; exact Phase.noConfusion)
  | reading =>
    simp only [Exec.bind_apply]
    cases hpull : (pull r s.batchSize w).value with
    | error e => simpa using Fetched.lost hphase hpull
    | ok pulled =>
      obtain ⟨rows, exhausted⟩ := pulled
      simp only [List.isEmpty_iff]
      split
      · next hnil => simpa using Fetched.exhausted hphase (hnil ▸ hpull)
      · next hne =>
        cases hrows : Batch.ofRows s.schema rows with
        | error e => simpa using Fetched.unfit hphase hpull hrows
        | ok b => simpa using Fetched.batch hphase hpull hne hrows

/-- A scan that handed out a batch still holds its handles. -/
theorem phase_account_ne (s : Scan) (b : Batch) (exhausted : Bool) :
    (s.account b exhausted).phase ≠ .closed := by
  cases exhausted <;> exact Phase.noConfusion

/-- Fetching a batch does not release the handles. -/
theorem Fetched.fetches {r : Remote σ} {s : Scan} {w : σ}
    {ran : Ran σ (Except ScanError (Option Batch) × Scan)} (h : Fetched r s w ran) :
    Fetches r w ran := by
  have hpull := fetches_pull r s.batchSize w
  cases h with
  | idle => exact ⟨fun a ha => absurd ha List.not_mem_nil, rfl⟩
  | lost | exhausted | unfit => exact ⟨hpull.keeps, hpull.source_eq⟩
  | batch =>
    refine ⟨fun a ha => ?_, ?_⟩
    · rcases List.mem_append.1 ha with ha | ha
      · exact hpull.keeps a ha
      · rw [List.mem_singleton.1 ha]
        rfl
    · simpa [Action.effect] using hpull.source_eq

/-- What a call of `next` can come to.  The end of the result and every failure release the
handles. -/
inductive Advances (r : Remote σ) (s : Scan) (w : σ) :
    Ran σ (Option (Except ScanError Batch) × Scan) → Prop
  | idle (hs : s.phase = .closed) : Advances r s w ⟨(none, s), w, []⟩
  | batch {b : Batch} {s' : Scan} {w' : σ} {actions : List Action} (hs : s.phase ≠ .closed)
      (hfetch : fetch r s w = ⟨(.ok (some b), s'), w', actions⟩) :
      Advances r s w ⟨(some (.ok b), s'), w', actions⟩
  | ended {w' : σ} {actions : List Action} (hs : s.phase ≠ .closed)
      (hfetch : fetch r s w = ⟨(.ok none, s), w', actions⟩) :
      Advances r s w ⟨(none, { s with phase := .closed }), after r (closings r handles w') w',
        actions ++ (closings r handles w' ++ [.record (.scanClosed s.table)])⟩
  | failed {e : ScanError} {w' : σ} {actions : List Action} (hs : s.phase ≠ .closed)
      (hfetch : fetch r s w = ⟨(.error e, s), w', actions⟩) :
      Advances r s w ⟨(some (.error e), { s with phase := .closed }),
        after r (closings r handles w') w',
        actions ++ .record (.scanFailed s.table) ::
          (closings r handles w' ++ [.record (.scanClosed s.table)])⟩

theorem next_closed (r : Remote σ) {s : Scan} (hs : s.phase = .closed) (w : σ) :
    next r s w = ⟨(none, s), w, []⟩ := by
  rw [next, hs]
  rfl

theorem advances (r : Remote σ) (s : Scan) (w : σ) : Advances r s w (next r s w) := by
  by_cases hs : s.phase = .closed
  · rw [next_closed r hs]
    exact .idle hs
  · have hfetched := fetched r s w
    generalize hfetch : fetch r s w = ran at hfetched
    rw [next]
    cases hphase : s.phase with
    | closed => exact absurd hphase hs
    | reading | drained =>
      simp only [Exec.bind_apply, hfetch]
      cases hfetched with
      | idle | exhausted => simpa [close_apply r hs] using Advances.ended hs hfetch
      | lost | unfit => simpa [close_apply r hs] using Advances.failed hs hfetch
      | batch => simpa using Advances.batch hs hfetch

/-- A batch is handed out while the scan is reading, and is made of the rows that were pulled. -/
theorem exists_pull_of_batch {r : Remote σ} {s : Scan} {w : σ} {b : Batch}
    (h : (next r s w).value.1 = some (.ok b)) :
    s.phase = .reading ∧ ∃ rows exhausted,
      (pull r s.batchSize w).value = .ok (rows, exhausted) ∧ rows ≠ [] ∧
        Batch.ofRows s.schema rows = .ok b ∧ (next r s w).value.2 = s.account b exhausted := by
  have hadvances := advances r s w
  generalize next r s w = ran at hadvances h ⊢
  cases hadvances with
  | idle | ended | failed => cases h
  | batch _ hfetch =>
    cases h
    cases hfetch ▸ fetched r s w with
    | batch hphase hpull hne hrows => exact ⟨hphase, _, _, hpull, hne, hrows, rfl⟩

/-! ### The release -/

namespace Step

/-- The step hands out a batch and leaves every handle as it is. -/
structure Keeps (x : Step σ) : Prop where
  answer : ∃ batch, x.answer = .batch (some (.ok batch))
  actions : ∀ a ∈ x.actions, a.keeps = true

/-- The step releases the cursor, the statement and the connection, in this order.  Before that it may
fetch rows, and after it nothing is done. -/
def Releases (r : Remote σ) (x : Step σ) : Prop :=
  ∃ before table, (∀ a ∈ before, a.keeps = true) ∧
    x.actions =
      before ++ closings r [.cursor, .statement, .connection] (after r before x.source)
        ++ [.record (.scanClosed table)] ∧
    match x.command with
    | .next => x.answer = .batch none ∨ ∃ e, x.answer = .batch (some (.error e))
    | .close =>
        before = [] ∧ x.answer =
          .closed (closeResult (failures r [.cursor, .statement, .connection] x.source).head?)
    | .drop => before = [] ∧ x.answer = .dropped

/-- The step finds the handles released, and does nothing. -/
def IsIdle (x : Step σ) : Prop :=
  x.actions = [] ∧
    match x.command with
    | .next => x.answer = .batch none
    | .close => x.answer = .closed (.ok ())
    | .drop => x.answer = .dropped

end Step

/-- The next batch leaves the handles held; the end and a failure release them. -/
theorem next_cases (r : Remote σ) {s : Scan} (hs : s.phase ≠ .closed) (w : σ) :
    let ran := next r s w
    let step : Step σ := ⟨.next, w, .batch ran.value.1, ran.actions⟩
    step.Keeps ∧ ran.value.2.phase ≠ .closed ∨ step.Releases r ∧ ran.value.2.phase = .closed := by
  have hadvances := advances r s w
  generalize next r s w = ran at hadvances
  intro ran step
  cases hadvances with
  | idle hclosed => exact absurd hclosed hs
  | batch _ hfetch =>
    have hfetched := hfetch ▸ fetched r s w
    refine .inl ⟨⟨⟨_, rfl⟩, hfetched.fetches.keeps⟩, ?_⟩
    cases hfetched
    exact phase_account_ne s _ _
  | @ended w' actions _ hfetch =>
    have hfetched := hfetch ▸ fetched r s w
    have hsource : w' = after r actions w := hfetched.fetches.source_eq
    refine .inr ⟨⟨actions, s.table, hfetched.fetches.keeps, ?_, .inl rfl⟩, rfl⟩
    simp [step, ran, hsource, handles]
  | @failed e w' actions _ hfetch =>
    have hfetched := hfetch ▸ fetched r s w
    have hsource : w' = after r actions w := hfetched.fetches.source_eq
    -- The failure is recorded after the rows were fetched, and before the release.
    refine .inr ⟨⟨actions ++ [.record (.scanFailed s.table)], s.table, ?_, ?_, .inr ⟨e, rfl⟩⟩, rfl⟩
    · intro a ha
      rcases List.mem_append.1 ha with ha | ha
      · exact hfetched.fetches.keeps a ha
      · rw [List.mem_singleton.1 ha]
        rfl
    · simp [step, ran, hsource, handles, Action.effect]

/-- Closing a scan that holds its handles releases them. -/
theorem close_releases (r : Remote σ) {s : Scan} (hs : s.phase ≠ .closed) (w : σ) :
    let ran := close r s w
    let step : Step σ := ⟨.close, w, .closed ran.value.1, ran.actions⟩
    step.Releases r ∧ ran.value.2.phase = .closed := by
  intro ran step
  have hran : ran = _ := close_apply r hs w
  refine ⟨⟨[], s.table, by simp, ?_, rfl, ?_⟩, ?_⟩
  · change ran.actions = _
    rw [hran]
    rfl
  · change Answer.closed ran.value.1 = _
    rw [hran]
    rfl
  · rw [hran]

/-- Dropping a scan that holds its handles releases them. -/
theorem drop_releases (r : Remote σ) {s : Scan} (hs : s.phase ≠ .closed) (w : σ) :
    (⟨.drop, w, .dropped, (drop r s w).actions⟩ : Step σ).Releases r := by
  refine ⟨[], s.table, by simp, ?_, rfl, rfl⟩
  change (close r s w).actions ++ [] = _
  rw [close_apply r hs w, List.append_nil]
  rfl

/-- Once its handles are released, a scan does nothing more. -/
theorem isIdle_session (r : Remote σ) {s : Scan} (hs : s.phase = .closed) (commands : List Command)
    (w : σ) : ∀ x ∈ session r commands s w, x.IsIdle := by
  induction commands generalizing w with
  | nil => exact fun x hx => absurd hx List.not_mem_nil
  | cons command commands ih =>
    have hclose := close_closed r hs w
    cases command with
    | next =>
      rw [session, next_closed r hs]
      exact List.forall_mem_cons.2 ⟨⟨rfl, rfl⟩, ih w⟩
    | close =>
      rw [session, hclose]
      exact List.forall_mem_cons.2 ⟨⟨rfl, rfl⟩, ih w⟩
    | drop =>
      refine List.forall_mem_singleton.2 ⟨?_, rfl⟩
      change (close r s w).actions ++ [] = _
      rw [hclose]
      rfl

/-- The handles are held through a session, or there is a step that releases them. -/
theorem session_cases (r : Remote σ) {s : Scan} (hs : s.phase ≠ .closed) (commands : List Command)
    (w : σ) :
    (∀ x ∈ session r commands s w, x.Keeps) ∨
      ∃ before x later, session r commands s w = before ++ x :: later ∧ (∀ y ∈ before, y.Keeps) ∧
        x.Releases r ∧ ∀ y ∈ later, y.IsIdle := by
  induction commands generalizing s w with
  | nil => exact .inl fun x hx => absurd hx List.not_mem_nil
  | cons command commands ih =>
    cases command with
    | next =>
      rw [session]
      rcases next_cases r hs w with ⟨hkeeps, hphase⟩ | ⟨hreleases, hphase⟩
      -- The handles are still held, so the rest is a session of the same kind.
      · rcases ih hphase (next r s w).source with
          hall | ⟨before, x, later, hsplit, hbefore, hx, hlater⟩
        · exact .inl (List.forall_mem_cons.2 ⟨hkeeps, hall⟩)
        · refine .inr ⟨_ :: before, x, later, ?_, List.forall_mem_cons.2 ⟨hkeeps, hbefore⟩, hx,
            hlater⟩
          rw [hsplit]
          rfl
      · exact .inr ⟨[], _, _, rfl, by simp, hreleases, isIdle_session r hphase _ _⟩
    | close =>
      rw [session]
      obtain ⟨hreleases, hphase⟩ := close_releases r hs w
      exact .inr ⟨[], _, _, rfl, by simp, hreleases, isIdle_session r hphase _ _⟩
    | drop => exact .inr ⟨[], _, [], rfl, by simp, drop_releases r hs w, by simp⟩

/-- A scan that was just opened has the schema and the batch size of the columns of its result, and
has counted nothing. -/
theorem opened_of_start {r : Remote σ} {d : Dialect} {options : ConnectOptions} {q : Request}
    {w : σ} {s : Scan} (h : (start r d options q w).value = .ok s) :
    ∃ columns schema, (acquire r options s.statement w).value = .ok columns ∧
      schemaOf columns = .ok schema ∧
      s = ⟨q.table, s.statement, schema, rowsPerBatch columns, 0, 0, .reading⟩ := by
  rw [start] at h
  cases hstatement : selectBound d q.table q.columns (q.filters.map String.toList) q.params with
  | error e =>
    rw [hstatement] at h
    cases h
  | ok statement =>
    rw [hstatement] at h
    simp only [Exec.bind_apply] at h
    cases hcolumns : (acquire r options statement w).value with
    | error failed =>
      rw [hcolumns] at h
      cases h
    | ok columns =>
      rw [hcolumns] at h
      simp only at h
      cases hschema : schemaOf columns with
      | error e =>
        rw [hschema] at h
        cases h
      | ok schema =>
        rw [hschema] at h
        cases h
        exact ⟨columns, schema, hcolumns, hschema, rfl⟩

/-- A scan that was just opened holds its handles. -/
theorem phase_of_start {r : Remote σ} {d : Dialect} {options : ConnectOptions} {q : Request} {w : σ}
    {s : Scan} (h : (start r d options q w).value = .ok s) : s.phase = .reading := by
  obtain ⟨_, _, -, -, hs⟩ := opened_of_start h
  rw [hs]

/-- Steps that release nothing close no handle. -/
theorem count_close_of_keeps {actions : List Action} (h : ∀ a ∈ actions, a.keeps = true)
    (handle : Handle) : actions.count (.close handle) = 0 := by
  refine List.count_eq_zero.2 fun hmem => ?_
  have := h _ hmem
  cases this

theorem count_closings_le (r : Remote σ) (handle : Handle) (w : σ) :
    (closings r [.cursor, .statement, .connection] w).count (.close handle) ≤ 1 := by
  have hcount :
      ([Handle.cursor, .statement, .connection].map Action.close).count (.close handle) = 1 := by
    cases handle <;> decide
  rw [← hcount]
  exact (closings_sublist r _ w).count_le _

/-- The calls of a whole session close every handle at most once. -/
theorem count_session_le (r : Remote σ) {s : Scan} (hs : s.phase ≠ .closed)
    (commands : List Command) (w : σ) (handle : Handle) :
    ((session r commands s w).flatMap Step.actions).count (.close handle) ≤ 1 := by
  have hkeeps : ∀ steps : List (Step σ), (∀ x ∈ steps, x.Keeps) →
      (steps.flatMap Step.actions).count (.close handle) = 0 := by
    intro steps hsteps
    refine count_close_of_keeps (fun a ha => ?_) handle
    obtain ⟨x, hx, ha⟩ := List.mem_flatMap.1 ha
    exact (hsteps x hx).actions a ha
  rcases session_cases r hs commands w with hall | ⟨before, x, later, hsplit, hbefore, hx, hlater⟩
  · rw [hkeeps _ hall]
    omega
  · obtain ⟨fetched, table, hfetched, hactions, -⟩ := hx
    have hidle : later.flatMap Step.actions = [] :=
      List.flatMap_eq_nil_iff.2 fun y hy => (hlater y hy).1
    rw [hsplit, List.flatMap_append, List.flatMap_cons, hidle, hactions, List.append_nil]
    simp only [List.count_append, hkeeps before hbefore, count_close_of_keeps hfetched]
    have hle := count_closings_le r handle (after r fetched x.source)
    have hrecord : [Action.record (.scanClosed table)].count (.close handle) = 0 := rfl
    omega

/-- **The handles of a scan are released once.**  Up to some step every command is answered with a
batch, and nothing is released.  That step, the first that answers no batch, closes the cursor, the
statement and the connection, in this order and each unless it reports itself closed by then, even
when one before it fails; the answer to a command to close is the first failure.  Later steps do
nothing.  In particular no handle is closed twice. -/
theorem session_releases_once (r : Remote σ) {d : Dialect} {options : ConnectOptions} {q : Request}
    {w : σ} {s : Scan} (hstart : (start r d options q w).value = .ok s) (commands : List Command) :
    let steps := session r commands s (start r d options q w).source
    ((∀ x ∈ steps, x.Keeps) ∨
      ∃ before x later, steps = before ++ x :: later ∧ (∀ y ∈ before, y.Keeps) ∧ x.Releases r ∧
        ∀ y ∈ later, y.IsIdle) ∧
      ∀ handle, (steps.flatMap Step.actions).count (.close handle) ≤ 1 := by
  have hs : s.phase ≠ .closed := by
    rw [phase_of_start hstart]
    exact Phase.noConfusion
  exact ⟨session_cases r hs commands _, count_session_le r hs commands _⟩

/-- The end of the result closes all three handles, and a statement that cannot be closed does not keep
the connection open. -/
theorem session_releases_once_script :
    let script : Script :=
      { columns := [⟨"a", .integer, 10, 0, true⟩]
        rows := #[[.int 7]]
        connectFailure := none
        statementFailure := none
        executeFailure := none
        fetchFailure := none
        closeFailure := fun h => if h = .statement then some (.close "busy") else none
        bornClosed := []
        autoClose := false }
    let opened := start script.remote .generic (.ofUrl "url") ⟨"t", ["a"], [], []⟩ .start
    ∃ s, opened.value = .ok s ∧
      let steps := session script.remote [.next, .next, .close, .next] s opened.source
      steps.map Step.actions = [
        [.nextRow, .nextRow, .record (.batchFetched "t" 1 8)],
        [.close .cursor, .close .statement, .close .connection, .record (.scanClosed "t")],
        [],
        []] ∧
      (∃ before x later, steps = before ++ x :: later ∧ (∀ y ∈ before, y.Keeps) ∧
        x.Releases script.remote ∧ ∀ y ∈ later, y.IsIdle) ∧
      (steps.flatMap Step.actions).count (.close .cursor) ≤ 1 := by
  intro script opened
  obtain ⟨s, hstart, hactions⟩ : ∃ s, opened.value = .ok s ∧
      (session script.remote [.next, .next, .close, .next] s opened.source).map Step.actions = [
        [.nextRow, .nextRow, .record (.batchFetched "t" 1 8)],
        [.close .cursor, .close .statement, .close .connection, .record (.scanClosed "t")],
        [],
        []] := ⟨_, rfl, by decide +kernel⟩
  obtain ⟨hcases, honce⟩ :=
    session_releases_once script.remote hstart [.next, .next, .close, .next]
  refine ⟨s, hstart, hactions, ?_, honce .cursor⟩
  rcases hcases with hall | hsplit
  -- Steps that keep the handles do not close the cursor, as the second of these does.
  · have hmem : [.close .cursor, .close .statement, .close .connection, .record (.scanClosed "t")] ∈
        (session script.remote [.next, .next, .close, .next] s opened.source).map Step.actions := by
      rw [hactions]
      exact List.mem_cons_of_mem _ List.mem_cons_self
    obtain ⟨x, hx, hclose⟩ := List.mem_map.1 hmem
    have hmem : .close .cursor ∈ x.actions := by
      rw [hclose]
      exact List.mem_cons_self
    cases (hall x hx).actions _ hmem
  · exact hsplit

end ExternalTable.Scan
