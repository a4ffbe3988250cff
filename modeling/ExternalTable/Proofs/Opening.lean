import ExternalTable.Proofs.Release

/-!
# Opening a scan

A scan that cannot be opened leaves nothing open at the source, and its error is the cause of the
failure, also where releasing what was held fails in its turn.

* `Executes`: the source executes a statement;
* `Fails`: the ways in which opening fails, with what is held then and the calls up to there;
* `start_of_fails`, `start_of_executes`: what becomes of the scan;
* `start_outcome`: the main statement.
-/

namespace ExternalTable.Scan

variable {σ : Type} {r : Remote σ} {options : ConnectOptions} {statement : Sql} {w : σ}
  {columns : List Column}

/-! ### Outcomes at the source -/

/-- The calls that execute a statement on a new connection. -/
def executing (options : ConnectOptions) (statement : Sql) : List Action :=
  [.connect options, .createStatement, .execute statement]

/-- The source executes a statement on a new connection.  The result has the given columns. -/
structure Executes (r : Remote σ) (options : ConnectOptions) (statement : Sql) (w : σ)
    (columns : List Column) : Prop where
  connect : (r.connect options w).1 = .ok ()
  createStatement : (r.createStatement (after r [.connect options] w)).1 = .ok ()
  execute :
    (r.execute statement (after r [.connect options, .createStatement] w)).1 = .ok columns

/-- Opening fails with an error, while some handles are held, innermost first, and after some calls.
Among the columns of a result the first that the host has no type for is the cause. -/
inductive Fails (r : Remote σ) (options : ConnectOptions) (statement : Sql) (w : σ) :
    ScanError → List Handle → List Action → Prop
  | connect {e : RemoteError} (h : (r.connect options w).1 = .error e) :
      Fails r options statement w (.openFailed e) [] [.connect options]
  | createStatement {e : RemoteError} (hconnect : (r.connect options w).1 = .ok ())
      (h : (r.createStatement (after r [.connect options] w)).1 = .error e) :
      Fails r options statement w (.openFailed e) [.connection] [.connect options, .createStatement]
  | execute {e : RemoteError} (hconnect : (r.connect options w).1 = .ok ())
      (hstatement : (r.createStatement (after r [.connect options] w)).1 = .ok ())
      (h : (r.execute statement (after r [.connect options, .createStatement] w)).1 = .error e) :
      Fails r options statement w (.openFailed e) [.statement, .connection]
        (executing options statement)
  | column {before later : List Column} {c : Column}
      (h : Executes r options statement w (before ++ c :: later))
      (hbefore : ∀ b ∈ before, b.outputType?.isSome) (hc : c.outputType? = none) :
      Fails r options statement w (.schema (.unsupportedColumn c.name c.type))
        [.cursor, .statement, .connection] (executing options statement)

/-! ### Columns -/

theorem fieldOf_of_isSome {c : Column} (h : c.outputType?.isSome) :
    ∃ field, fieldOf c = .ok field := by
  obtain ⟨type, htype⟩ := Option.isSome_iff_exists.1 h
  exact ⟨⟨c.name, type, c.nullable⟩, by rw [fieldOf, htype]⟩

theorem schemaOf_of_isSome (h : ∀ c ∈ columns, c.outputType?.isSome) :
    ∃ schema, schemaOf columns = .ok schema ∧
      List.Forall₂ (fun c field => fieldOf c = .ok field) columns schema := by
  induction columns with
  | nil => exact ⟨[], rfl, .nil⟩
  | cons c rest ih =>
    obtain ⟨hc, hrest⟩ := List.forall_mem_cons.1 h
    obtain ⟨field, hfield⟩ := fieldOf_of_isSome hc
    obtain ⟨schema, hschema, hall⟩ := ih hrest
    refine ⟨field :: schema, ?_, .cons hfield hall⟩
    rw [schemaOf] at hschema ⊢
    rw [List.mapM_cons, hfield, hschema]
    rfl

/-- The first column without a field is the error. -/
theorem schemaOf_of_first {before later : List Column} {c : Column}
    (hbefore : ∀ b ∈ before, b.outputType?.isSome) (hc : c.outputType? = none) :
    schemaOf (before ++ c :: later) = .error (.unsupportedColumn c.name c.type) := by
  obtain ⟨schema, hschema, -⟩ := schemaOf_of_isSome hbefore
  rw [schemaOf] at hschema ⊢
  rw [List.mapM_append, hschema, List.mapM_cons, fieldOf, hc]
  rfl

theorem exists_first_none (columns : List Column) :
    (∀ c ∈ columns, c.outputType?.isSome) ∨
      ∃ before c later, columns = before ++ c :: later ∧ (∀ b ∈ before, b.outputType?.isSome) ∧
        c.outputType? = none := by
  cases hfirst : columns.find? fun c => c.outputType?.isNone with
  | none =>
    refine .inl fun c hc => ?_
    simpa [Option.isSome_iff_ne_none] using List.find?_eq_none.1 hfirst c hc
  | some c =>
    obtain ⟨hc, before, later, hsplit, hbefore⟩ := List.find?_eq_some_iff_append.1 hfirst
    refine .inr ⟨before, c, later, hsplit, fun b hb => ?_, Option.isNone_iff_eq_none.1 hc⟩
    simpa [Option.isSome_iff_ne_none] using hbefore b hb

/-- Where opening does not fail, the statement is executed and every column has a type. -/
theorem fails_or_executes (r : Remote σ) (options : ConnectOptions) (statement : Sql) (w : σ) :
    (∃ e held calls, Fails r options statement w e held calls) ∨
      ∃ columns, Executes r options statement w columns ∧
        ∀ c ∈ columns, c.outputType?.isSome := by
  cases hconnect : (r.connect options w).1 with
  | error e => exact .inl ⟨_, _, _, .connect hconnect⟩
  | ok _ =>
    cases hstatement : (r.createStatement (after r [.connect options] w)).1 with
    | error e => exact .inl ⟨_, _, _, .createStatement hconnect hstatement⟩
    | ok _ =>
      cases hexecute :
          (r.execute statement (after r [.connect options, .createStatement] w)).1 with
      | error e => exact .inl ⟨_, _, _, .execute hconnect hstatement hexecute⟩
      | ok columns =>
        have hexecutes : Executes r options statement w columns :=
          ⟨hconnect, hstatement, hexecute⟩
        rcases exists_first_none columns with hall | ⟨before, c, later, rfl, hbefore, hc⟩
        · exact .inr ⟨columns, hexecutes, hall⟩
        · exact .inl ⟨_, _, _, .column hexecutes hbefore hc⟩

/-! ### The scan -/

theorem acquire_of_executes (h : Executes r options statement w columns) :
    acquire r options statement w =
      ⟨.ok columns, after r (executing options statement) w, executing options statement⟩ := by
  have hstatement := h.createStatement
  have hexecute := h.execute
  simp only [after_cons, after_nil, Action.effect] at hstatement hexecute
  simp [acquire, executing, Action.effect, h.connect, hstatement, hexecute]

theorem abandon_apply (r : Remote σ) (table : String) (held : List Handle) (e : ScanError) (w : σ) :
    abandon r table held e w =
      ⟨.error e, after r (closings r held w) w,
        .record (.scanFailed table) :: closings r held w⟩ := by
  simp [abandon, release_apply]

variable {d : Dialect} {q : Request}

theorem start_of_error {e : StatementError}
    (h : selectBound d q.table q.columns (q.filters.map String.toList) q.params = .error e) :
    start r d options q w = ⟨.error (.statement e), w, []⟩ := by
  rw [start, h]
  rfl

/-- A failure is recorded, and then whatever is held is released.  The error of the scan does not
depend on how that goes. -/
theorem start_of_fails
    (hsql : selectBound d q.table q.columns (q.filters.map String.toList) q.params = .ok statement)
    {e : ScanError} {held : List Handle} {calls : List Action}
    (h : Fails r options statement w e held calls) :
    start r d options q w =
      ⟨.error e, after r (closings r held (after r calls w)) (after r calls w),
        calls ++ .record (.scanFailed q.table) :: closings r held (after r calls w)⟩ := by
  rw [start, hsql]
  cases h with
  | connect h => simp [acquire, abandon_apply, Action.effect, h]
  | createStatement hconnect h =>
    simp only [after_cons, after_nil, Action.effect] at h
    simp [acquire, abandon_apply, Action.effect, hconnect, h]
  | execute hconnect hstatement h =>
    simp only [after_cons, after_nil, Action.effect] at hstatement h
    simp [acquire, abandon_apply, executing, Action.effect, hconnect, hstatement, h]
  | column h hbefore hc =>
    simp [acquire_of_executes h, schemaOf_of_first hbefore hc, abandon_apply, handles]

theorem start_of_executes
    (hsql : selectBound d q.table q.columns (q.filters.map String.toList) q.params = .ok statement)
    (h : Executes r options statement w columns) {schema : List Field}
    (hschema : schemaOf columns = .ok schema) :
    start r d options q w =
      ⟨.ok ⟨q.table, statement, schema, rowsPerBatch columns, 0, 0, .reading⟩,
        after r (executing options statement) w,
        executing options statement ++ [.record (.scanOpened q.table (rowsPerBatch columns))]⟩ := by
  rw [start, hsql]
  simp [acquire_of_executes h, hschema]

/-! ### Events -/

/-- Releasing handles records nothing. -/
@[simp] theorem filterMap_event?_closings (r : Remote σ) (held : List Handle) (w : σ) :
    (closings r held w).filterMap Action.event? = [] := by
  refine List.filterMap_eq_nil_iff.2 fun a ha => ?_
  obtain ⟨h, -, rfl⟩ := List.mem_map.1 ((closings_sublist r held w).subset ha)
  rfl

theorem Fails.filterMap_event? {e : ScanError} {held : List Handle} {calls : List Action}
    (h : Fails r options statement w e held calls) : calls.filterMap Action.event? = [] := by
  cases h <;> rfl

theorem events_of_fails
    (hsql : selectBound d q.table q.columns (q.filters.map String.toList) q.params = .ok statement)
    {e : ScanError} {held : List Handle} {calls : List Action}
    (h : Fails r options statement w e held calls) :
    (start r d options q w).events = [.scanFailed q.table] := by
  rw [start_of_fails hsql h, Ran.events, List.filterMap_append, h.filterMap_event?]
  simp [Action.event?]

/-- **A scan that cannot be opened leaves nothing behind.**  Without a statement the source is not
called and nothing is recorded.  At a failure of the source, or at the first column that the host has
no type for, the handles held by then are released, innermost first and each unless it reports itself
closed; the error is that failure, however the release goes, and one failure is recorded.  In every
other case the scan is open, nothing is released, and its opening is recorded. -/
theorem start_outcome (r : Remote σ) (d : Dialect) (options : ConnectOptions) (q : Request) (w : σ) :
    let ran := start r d options q w
    match selectBound d q.table q.columns (q.filters.map String.toList) q.params with
    | .error e => ran = ⟨.error (.statement e), w, []⟩
    | .ok statement =>
        (∀ e held calls, Fails r options statement w e held calls →
          ran.value = .error e ∧
            ran.actions =
              calls ++ .record (.scanFailed q.table) :: closings r held (after r calls w) ∧
            ran.source = after r ran.actions w ∧ ran.events = [.scanFailed q.table]) ∧
        ((¬ ∃ e held calls, Fails r options statement w e held calls) →
          ∃ columns schema, Executes r options statement w columns ∧
            List.Forall₂ (fun c field => fieldOf c = .ok field) columns schema ∧
            ran.value = .ok ⟨q.table, statement, schema, rowsPerBatch columns, 0, 0, .reading⟩ ∧
            ran.actions = executing options statement ++
              [.record (.scanOpened q.table (rowsPerBatch columns))] ∧
            ran.source = after r ran.actions w ∧
            ran.events = [.scanOpened q.table (rowsPerBatch columns)]) := by
  intro ran
  cases hsql : selectBound d q.table q.columns (q.filters.map String.toList) q.params with
  | error e => exact start_of_error hsql
  | ok statement =>
    refine ⟨fun e held calls h => ?_, fun hfails => ?_⟩
    · have hran : ran = _ := start_of_fails hsql h
      refine ⟨by rw [hran], by rw [hran], ?_, events_of_fails hsql h⟩
      rw [hran]
      simp [Action.effect]
    · obtain ⟨columns, hexecutes, hcolumns⟩ :=
        (fails_or_executes r options statement w).resolve_left hfails
      obtain ⟨schema, hschema, hfields⟩ := schemaOf_of_isSome hcolumns
      have hran : ran = _ := start_of_executes hsql hexecutes hschema
      refine ⟨columns, schema, hexecutes, hfields, by rw [hran], by rw [hran], ?_, ?_⟩
      · rw [hran]
        simp [Action.effect]
      · rw [hran]
        rfl

/-- A table that does not exist, at a source where the statement cannot be closed either: the error
is the missing table, and the connection is closed all the same. -/
theorem start_outcome_execute :
    let script : Script :=
      { columns := []
        rows := #[]
        connectFailure := none
        statementFailure := none
        executeFailure := some (.query "no such table")
        fetchFailure := none
        closeFailure := fun h => if h = .statement then some (.close "busy") else none
        bornClosed := []
        autoClose := false }
    let options := ConnectOptions.ofUrl "url"
    let statement := "SELECT a FROM t".toList
    let ran := start script.remote .generic options ⟨"t", ["a"], [], []⟩ .start
    Fails script.remote options statement .start (.openFailed (.query "no such table"))
        [.statement, .connection] (executing options statement) ∧
      ran.value = .error (.openFailed (.query "no such table")) ∧
      ran.actions = [.connect options, .createStatement, .execute statement,
        .record (.scanFailed "t"), .close .statement, .close .connection] ∧
      ran.events = [.scanFailed "t"] := by
  intro script options statement ran
  have hfails : Fails script.remote options statement .start
      (.openFailed (.query "no such table")) [.statement, .connection]
      (executing options statement) := .execute rfl rfl rfl
  obtain ⟨hvalue, hactions, -, hevents⟩ :=
    (start_outcome script.remote .generic options ⟨"t", ["a"], [], []⟩ .start).1 _ _ _ hfails
  refine ⟨hfails, hvalue, ?_, hevents⟩
  rw [hactions]
  decide +kernel

end ExternalTable.Scan
