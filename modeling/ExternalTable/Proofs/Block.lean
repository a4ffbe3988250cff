import ExternalTable.Proofs.Scale

/-!
# Batches as blocks

A batch is a block: it has one column for each field, all of one length, and a value of another kind
than its field asks for does not get into it.

* `DataType.kind?`, `DataType.Admits`: what a column of a type can hold;
* `isOf_of_schemaOf`: the fields of a schema;
* `Batch.IsBlock`: a batch whose columns fit a schema and are as long as it has rows;
* `isBlock_of_ofRows`: the rows of a batch make a block;
* `Batch.IsBlock.exists_row`: the rows of a block, read across its columns;
* `exists_rows`: every batch of a session is made of some rows, and of no more than a batch has;
* `batches_wellFormed`: the main statement.
-/

namespace ExternalTable

/-! ### Values and types -/

/-- The kind of the values of a type, apart from null. -/
def DataType.kind? : DataType → Option Value.Kind
  | .int64 => some .int
  | .decimal128 _ _ => some .decimal
  | .utf8 | .largeUtf8 => some .text
  | .binary | .largeBinary => some .binary
  | .float32 => some .float32
  | .float64 => some .float64
  | _ => none

/-- The values that a column of a type can hold. -/
def DataType.Admits (t : DataType) (v : Value) : Prop :=
  v = .null ∨ t.kind? = some v.kind

/-- Whatever value was fetched, a column gets null or a value of the kind of its type. -/
theorem DataType.admits_of_conform? {t : DataType} {v w : Value} (h : v.conform? t = some w) :
    t.Admits w := by
  revert h
  fun_cases Value.conform? v t with
  | case1 =>
    rintro ⟨⟩
    exact .inl rfl
  -- An unsigned integer and the decimal of an integer may be out of range.
  | case4 n =>
    rw [Value.int64?]
    split
    · rintro ⟨⟩
      exact .inr rfl
    · rintro ⟨⟩
  | case5 | case6 =>
    intro h
    obtain ⟨d, -, rfl⟩ := Option.map_eq_some_iff.1 h
    exact .inr rfl
  | case18 => rintro ⟨⟩
  | _ =>
    rintro ⟨⟩
    exact .inr rfl

theorem Value.byteLengthAll_eq_sum (vs : List Value) :
    Value.byteLengthAll vs = (vs.map Value.byteLength).sum := by
  induction vs with
  | nil => rw [Value.byteLengthAll, List.map_nil, List.sum_nil]
  | cons v vs ih => rw [Value.byteLengthAll, List.map_cons, List.sum_cons, ih]

namespace Scan

variable {σ : Type}

/-! ### Schemas -/

/-- A field that stands for a column of a result. -/
structure Field.IsOf (c : Column) (field : Field) : Prop where
  name : field.name = c.name
  type : c.outputType? = some field.type
  nullable : field.nullable = c.nullable

theorem isOf_of_fieldOf {c : Column} {field : Field} (h : fieldOf c = .ok field) :
    field.IsOf c := by
  rw [fieldOf] at h
  cases htype : c.outputType? with
  | none =>
    rw [htype] at h
    cases h
  | some type =>
    rw [htype] at h
    cases h
    exact ⟨rfl, htype, rfl⟩

/-- A schema has the fields of its columns, in order. -/
theorem isOf_of_schemaOf {columns : List Column} {schema : List Field}
    (h : schemaOf columns = .ok schema) : List.Forall₂ Field.IsOf columns schema := by
  rcases exists_first_none columns with hall | ⟨before, c, later, rfl, hbefore, hc⟩
  · obtain ⟨schema', hschema, hfields⟩ := schemaOf_of_isSome hall
    cases h.symm.trans hschema
    exact hfields.imp fun _ _ => isOf_of_fieldOf
  · cases h.symm.trans (schemaOf_of_first hbefore hc)

/-! ### Blocks -/

/-- A column of so many values that a field can hold. -/
structure Field.IsFilled (field : Field) (count : Nat) (column : List Value) : Prop where
  length_eq : column.length = count
  admits : ∀ v ∈ column, field.type.Admits v

/-- A batch with one column for each field of a schema, in order and as long as it has rows. -/
structure Batch.IsBlock (schema : List Field) (b : Batch) : Prop where
  schema_eq : b.schema = schema
  columns : List.Forall₂ (fun field column => field.IsFilled b.rowCount column) schema b.columns

/-- The values of a conformed row are of the kinds of their fields. -/
theorem IsConformed.admits {schema : List Field} {row conformed : Row}
    (h : IsConformed schema row conformed) :
    List.Forall₂ (fun field v => field.type.Admits v) schema conformed := by
  refine List.forall₂_iff_get.2 ⟨h.length_eq.symm, fun j hschema hconformed => ?_⟩
  obtain ⟨v, w, -, hw, hconform⟩ := h.conform?_eq (List.getElem?_eq_getElem hschema)
  rw [List.getElem?_eq_getElem hconformed, Option.some.injEq] at hw
  rw [List.get_eq_getElem, List.get_eq_getElem, hw]
  exact DataType.admits_of_conform? hconform

/-- The columns of no rows. -/
theorem isFilled_replicate_nil (schema : List Field) :
    List.Forall₂ (fun field column => field.IsFilled 0 column) schema
      (List.replicate schema.length []) := by
  induction schema with
  | nil => exact .nil
  | cons field fields ih => exact .cons ⟨rfl, fun v hv => absurd hv List.not_mem_nil⟩ ih

/-- A row on top of columns makes each of them one longer. -/
theorem isFilled_zipWith {schema : List Field} {row : Row} {columns : List (List Value)}
    {count : Nat} (hrow : List.Forall₂ (fun field v => field.type.Admits v) schema row)
    (hcolumns : List.Forall₂ (fun field column => field.IsFilled count column) schema columns) :
    List.Forall₂ (fun field column => field.IsFilled (count + 1) column) schema
      (List.zipWith (· :: ·) row columns) := by
  induction hrow generalizing columns with
  | nil => exact .nil
  | cons hv _ ih =>
    cases hcolumns with
    | cons hcolumn hrest =>
      refine .cons ⟨congrArg (· + 1) hcolumn.length_eq, ?_⟩ (ih hrest)
      exact List.forall_mem_cons.2 ⟨hv, hcolumn.admits⟩

/-- The columns of conformed rows. -/
theorem isFilled_transpose {schema : List Field} {rows conformed : List Row}
    (h : List.Forall₂ (IsConformed schema) rows conformed) :
    List.Forall₂ (fun field column => field.IsFilled rows.length column) schema
      (transpose schema.length conformed) := by
  induction h with
  | nil => exact isFilled_replicate_nil schema
  | cons hrow _ ih => exact isFilled_zipWith hrow.admits ih

theorem isBlock_of_ofRows {schema : List Field} {rows : List Row} {b : Batch}
    (h : Batch.ofRows schema rows = .ok b) : b.IsBlock schema ∧ b.rowCount = rows.length := by
  cases hfault : fault? schema rows with
  | some e => cases h.symm.trans (ofRows_of_fault hfault)
  | none =>
    obtain ⟨conformed, hall, hrows⟩ := ofRows_of_fault_eq_none hfault
    cases h.symm.trans hrows
    exact ⟨⟨rfl, isFilled_transpose hall⟩, rfl⟩

/-! ### Rows of a block -/

/-- The values across columns that are long enough. -/
theorem exists_mapM_getElem? {columns : List (List Value)} {i : Nat}
    (h : ∀ column ∈ columns, i < column.length) :
    ∃ row, (columns.mapM fun column => column[i]?) = some row ∧ row.length = columns.length ∧
      ∀ j : Nat, row[j]? = columns[j]?.bind fun column => column[i]? := by
  induction columns with
  | nil => exact ⟨[], rfl, rfl, fun j => rfl⟩
  | cons column columns ih =>
    obtain ⟨hcolumn, hcolumns⟩ := List.forall_mem_cons.1 h
    obtain ⟨row, hrow, hlength, hvalues⟩ := ih hcolumns
    have hv : column[i]? = some column[i] := List.getElem?_eq_getElem hcolumn
    refine ⟨column[i] :: row, ?_, congrArg (· + 1) hlength, fun j => ?_⟩
    · rw [List.mapM_cons, hv, hrow]
      rfl
    · cases j with
      | zero => exact hv.symm
      | succ j => exact hvalues j

namespace Batch.IsBlock

variable {schema : List Field} {b : Batch}

theorem length_columns (h : b.IsBlock schema) : b.columns.length = b.schema.length := by
  rw [h.schema_eq, h.columns.length_eq]

theorem length_of_mem (h : b.IsBlock schema) {column : List Value} (hmem : column ∈ b.columns) :
    column.length = b.rowCount := by
  obtain ⟨j, hj, rfl⟩ := List.getElem_of_mem hmem
  have hschema : j < schema.length := h.columns.length_eq ▸ hj
  exact (h.columns.get hschema hj).length_eq

/-- A row of a block has a value for each field, at its place in the column of the field. -/
theorem exists_row (h : b.IsBlock schema) {i : Nat} (hi : i < b.rowCount) :
    ∃ row, b.row? i = some row ∧ row.length = b.schema.length ∧
      ∀ j, row[j]? = (b.column? j).bind fun column => column[i]? := by
  obtain ⟨row, hrow, hlength, hvalues⟩ := exists_mapM_getElem? fun column hmem => by
    rwa [h.length_of_mem hmem]
  exact ⟨row, by rw [row?, if_pos hi, hrow], hlength.trans h.length_columns, hvalues⟩

end Batch.IsBlock

/-! ### Sessions -/

/-- A batch of a call of `next` is made of some rows, and of no more than are wanted. -/
theorem exists_rows_of_next {r : Remote σ} {s : Scan} {w : σ} {b : Batch}
    (h : (next r s w).value.1 = some (.ok b)) :
    ∃ rows, rows ≠ [] ∧ rows.length ≤ s.batchSize ∧ Batch.ofRows s.schema rows = .ok b := by
  obtain ⟨-, rows, exhausted, hpull, hne, hrows, -⟩ := exists_pull_of_batch h
  have hpulled := pulled r s.batchSize w
  rw [hpull] at hpulled
  have hle := hpulled.length_le
  rw [hpulled.length_eq] at hle
  exact ⟨rows, hne, by omega, hrows⟩

/-- The same for every batch of a session. -/
theorem exists_rows {r : Remote σ} {s : Scan} {commands : List Command} {w : σ} {x : Step σ}
    (hx : x ∈ session r commands s w) {b : Batch} (hb : x.answer = .batch (some (.ok b))) :
    ∃ rows, rows ≠ [] ∧ rows.length ≤ s.batchSize ∧ Batch.ofRows s.schema rows = .ok b := by
  obtain ⟨s', hschema, hsize, hstep | hstep | hstep⟩ := step_cases hx
  · rw [hstep] at hb
    rw [← hschema, ← hsize]
    exact exists_rows_of_next (Answer.batch.inj hb)
  · rw [hstep] at hb
    cases hb
  · rw [hstep] at hb
    cases hb

/-- **Every batch is a well-formed block of the schema of its scan.**  The schema is fixed when the
scan opens: it has one field for each column of the result, in order, of the type in which the host
receives the column.  Every batch of every session has that schema, one column for each field, and
at least one row but no more than a batch of the scan may have.  Each of its columns is as long as
the batch has rows, and holds null and values of the one kind that the type of the field asks for.
A row is there up to the number of rows and not beyond, with the values at its place in the columns;
and the payload of the batch is that of its values together. -/
theorem batches_wellFormed (r : Remote σ) {d : Dialect} {options : ConnectOptions} {q : Request}
    {w : σ} {s : Scan} (hstart : (start r d options q w).value = .ok s) :
    (∃ columns, (acquire r options s.statement w).value = .ok columns ∧
      List.Forall₂ Field.IsOf columns s.schema) ∧
      ∀ commands, ∀ x ∈ session r commands s (start r d options q w).source, ∀ b,
        x.answer = .batch (some (.ok b)) →
          b.IsBlock s.schema ∧ 1 ≤ b.rowCount ∧ b.rowCount ≤ s.batchSize ∧
          (∀ i, i < b.rowCount → ∃ row, b.row? i = some row ∧ row.length = b.schema.length ∧
            ∀ j, row[j]? = (b.column? j).bind fun column => column[i]?) ∧
          (∀ i, b.rowCount ≤ i → b.row? i = none) ∧
          b.byteLength = (b.columns.flatten.map Value.byteLength).sum := by
  obtain ⟨columns, schema, hcolumns, hschema, hs⟩ := opened_of_start hstart
  have hfields : List.Forall₂ Field.IsOf columns s.schema := by
    rw [hs]
    exact isOf_of_schemaOf hschema
  refine ⟨⟨columns, hcolumns, hfields⟩, fun commands x hx b hb => ?_⟩
  obtain ⟨rows, hne, hle, hrows⟩ := exists_rows hx hb
  obtain ⟨hblock, hcount⟩ := isBlock_of_ofRows hrows
  refine ⟨hblock, ?_, hcount ▸ hle, fun i hi => hblock.exists_row hi, fun i hi => ?_, ?_⟩
  · rw [hcount]
    exact List.length_pos_iff.2 hne
  · rw [Batch.row?, if_neg (Nat.not_lt.2 hi)]
  · rw [Batch.byteLength_eq, Value.byteLengthAll_eq_sum]

/-- Three columns, with an unsigned integer, a truth value among integers, and nulls.  The batch is
read by rows up to its second, which is the last. -/
theorem batches_wellFormed_three :
    let script : Script :=
      { columns := [⟨"id", .bigInt, 0, 0, false⟩, ⟨"open", .bit, 1, 0, true⟩,
          ⟨"note", .null, 0, 0, true⟩]
        rows := #[[.uint 7, .bool true, .null], [.int 8, .null, .null]]
        connectFailure := none
        statementFailure := none
        executeFailure := none
        fetchFailure := none
        closeFailure := fun _ => none
        bornClosed := []
        autoClose := false }
    let q : Request := ⟨"t", ["id", "open", "note"], [], []⟩
    let opened := start script.remote .generic (.ofUrl "url") q .start
    ∃ s b, opened.value = .ok s ∧
      (session script.remote [.next, .next] s opened.source).map Step.answer =
        [.batch (some (.ok b)), .batch none] ∧
      b.columns = [[.decimal ⟨7, 0⟩, .decimal ⟨8, 0⟩], [.int 1, .null], [.null, .null]] ∧
      b.IsBlock s.schema ∧ b.row? 2 = none ∧ b.byteLength = 40 ∧
      ∃ row, b.row? 1 = some row ∧ row[1]? = some .null := by
  intro script q opened
  obtain ⟨s, b, hstart, hanswers, hcolumns, hcount⟩ : ∃ s b, opened.value = .ok s ∧
      (session script.remote [.next, .next] s opened.source).map Step.answer =
        [.batch (some (.ok b)), .batch none] ∧
      b.columns = [[.decimal ⟨7, 0⟩, .decimal ⟨8, 0⟩], [.int 1, .null], [.null, .null]] ∧
      b.rowCount = 2 := ⟨_, _, rfl, rfl, rfl, rfl⟩
  have hmem : .batch (some (.ok b)) ∈
      (session script.remote [.next, .next] s opened.source).map Step.answer := by
    rw [hanswers]
    exact List.mem_cons_self
  obtain ⟨x, hx, hb⟩ := List.mem_map.1 hmem
  obtain ⟨hblock, -, -, hrows, hbeyond, hlength⟩ :=
    (batches_wellFormed script.remote hstart).2 [.next, .next] x hx b hb
  obtain ⟨row, hrow, -, hvalues⟩ := hrows 1 (by omega)
  refine ⟨s, b, hstart, hanswers, hcolumns, hblock, hbeyond 2 (by omega), ?_, row, hrow, ?_⟩
  · rw [hlength, hcolumns]
    rfl
  · rw [hvalues, Batch.column?, hcolumns]
    rfl

end Scan

end ExternalTable
