import Mathlib.Data.List.Forall2
import Mathlib.Tactic.Common
import ExternalTable.Scan.Batch

/-!
# Rows and batches

A batch is made of columns, and a scan fetches rows.  A batch gives back the rows that it was made
of, with each value in the type of its field; rows that do not fit the schema make no batch, and the
error is the first in row-major order.

* `IsConformed`: a row, and the same row as the host receives it;
* `rowFault?`, `fault?`: the first error of a row, and of several rows;
* `Batch.Holds`: a batch that consists of given rows;
* `ofRows_of_fault`, `exists_ofRows`: what becomes of rows with an error and of rows without one.
-/

namespace ExternalTable.Scan

/-! ### Rows that fit a schema -/

/-- A row, and the same row with each value in the type of its field. -/
structure IsConformed (schema : List Field) (row conformed : Row) : Prop where
  width : row.length = schema.length
  values : List.zipWith (fun field v => Value.conform? v field.type) schema row =
    conformed.map some

/-- The first value of a row that its field cannot hold, as an error. -/
def firstUnfit? (schema : List Field) (row : Row) : Option SchemaError :=
  (schema.zip row).findSome? fun (field, v) =>
    if v.conform? field.type = none then some (.conversion field.name v.kind field.type) else none

/-- The error of a row: its width, or else its first value that does not fit. -/
def rowFault? (schema : List Field) (row : Row) : Option SchemaError :=
  if row.length = schema.length then
    firstUnfit? schema row
  else
    some (.rowWidth schema.length row.length)

/-- The error of the first row that has one. -/
def fault? (schema : List Field) (rows : List Row) : Option SchemaError :=
  rows.findSome? (rowFault? schema)

theorem conformValues_of_unfit {schema : List Field} {row : Row} {e : SchemaError}
    (h : firstUnfit? schema row = some e) : conformValues schema row = .error e := by
  induction schema generalizing row with
  | nil => cases h
  | cons field fields ih =>
    cases row with
    | nil => cases h
    | cons v vs =>
      rw [firstUnfit?, List.zip_cons_cons, List.findSome?_cons] at h
      rw [conformValues, conformValue]
      cases hv : v.conform? field.type with
      | none =>
        simp only [hv, if_pos, Option.some.injEq] at h ⊢
        rw [h]
      | some w =>
        simp only [hv, reduceCtorEq, if_false] at h ⊢
        rw [ih h]
        rfl

theorem exists_conformValues {schema : List Field} {row : Row}
    (h : firstUnfit? schema row = none) : ∃ conformed, conformValues schema row = .ok conformed ∧
      List.zipWith (fun field v => Value.conform? v field.type) schema row =
        conformed.map some := by
  induction schema generalizing row with
  | nil => exact ⟨[], rfl, rfl⟩
  | cons field fields ih =>
    cases row with
    | nil => exact ⟨[], rfl, rfl⟩
    | cons v vs =>
      rw [firstUnfit?, List.zip_cons_cons, List.findSome?_cons] at h
      rw [conformValues, conformValue]
      cases hv : v.conform? field.type with
      | none => simp [hv] at h
      | some w =>
        simp only [hv, reduceCtorEq, if_false] at h ⊢
        obtain ⟨conformed, hvs, heq⟩ := ih h
        refine ⟨w :: conformed, by rw [hvs]; rfl, ?_⟩
        rw [List.zipWith_cons_cons, heq, hv, List.map_cons]

theorem conformRow_of_fault {schema : List Field} {row : Row} {e : SchemaError}
    (h : rowFault? schema row = some e) : conformRow schema row = .error e := by
  rw [rowFault?] at h
  rw [conformRow]
  split at h
  · rw [if_pos ‹_›, conformValues_of_unfit h]
  · rw [if_neg ‹_›, Option.some.inj h]

theorem exists_conformRow {schema : List Field} {row : Row} (h : rowFault? schema row = none) :
    ∃ conformed, conformRow schema row = .ok conformed ∧ IsConformed schema row conformed := by
  rw [rowFault?] at h
  split at h
  · obtain ⟨conformed, hvalues, heq⟩ := exists_conformValues h
    exact ⟨conformed, by rw [conformRow, if_pos ‹_›, hvalues], ‹_›, heq⟩
  · cases h

theorem IsConformed.length_eq {schema : List Field} {row conformed : Row}
    (h : IsConformed schema row conformed) : conformed.length = schema.length := by
  have := congrArg List.length h.values
  rw [List.length_zipWith, List.length_map, h.width, Nat.min_self] at this
  exact this.symm

/-! ### Columns -/

theorem length_transpose {width : Nat} {rows : List Row} (h : ∀ row ∈ rows, row.length = width) :
    (transpose width rows).length = width := by
  induction rows with
  | nil => exact List.length_replicate
  | cons row rows ih =>
    obtain ⟨hrow, hrows⟩ := List.forall_mem_cons.1 h
    change (List.zipWith _ row (transpose width rows)).length = width
    rw [List.length_zipWith, ih hrows, hrow, Nat.min_self]

/-- The first values of columns under a row are that row. -/
theorem mapM_head_zipWith {row : Row} {columns : List (List Value)}
    (h : row.length = columns.length) :
    (List.zipWith (· :: ·) row columns).mapM (fun column => column[0]?) = some row := by
  induction row generalizing columns with
  | nil => rfl
  | cons v vs ih =>
    obtain ⟨column, columns, rfl⟩ := List.exists_cons_of_length_eq_add_one h.symm
    simp [ih (Nat.succ.inj h)]

/-- The other values are what they were without it. -/
theorem mapM_tail_zipWith {row : Row} {columns : List (List Value)}
    (h : row.length = columns.length) (i : Nat) :
    (List.zipWith (· :: ·) row columns).mapM (fun column => column[i + 1]?) =
      columns.mapM fun column => column[i]? := by
  induction row generalizing columns with
  | nil => rw [List.length_eq_zero_iff.1 h.symm]; rfl
  | cons v vs ih =>
    obtain ⟨column, columns, rfl⟩ := List.exists_cons_of_length_eq_add_one h.symm
    simp [ih (Nat.succ.inj h)]

/-- The rows can be read off the columns. -/
theorem mapM_transpose {width : Nat} {rows : List Row} (h : ∀ row ∈ rows, row.length = width)
    {i : Nat} (hi : i < rows.length) :
    (transpose width rows).mapM (fun column => column[i]?) = rows[i]? := by
  induction rows generalizing i with
  | nil => exact absurd hi (Nat.not_lt_zero i)
  | cons row rows ih =>
    obtain ⟨hrow, hrows⟩ := List.forall_mem_cons.1 h
    have hlength : row.length = (transpose width rows).length := by
      rw [hrow, length_transpose hrows]
    change (List.zipWith (· :: ·) row (transpose width rows)).mapM (fun column => column[i]?) = _
    cases i with
    | zero => exact mapM_head_zipWith hlength
    | succ i => rw [mapM_tail_zipWith hlength, ih hrows (Nat.lt_of_succ_lt_succ hi)]; rfl

theorem byteLengthAll_append (vs ws : List Value) :
    Value.byteLengthAll (vs ++ ws) = Value.byteLengthAll vs + Value.byteLengthAll ws := by
  induction vs with
  | nil => rw [List.nil_append, Value.byteLengthAll, Nat.zero_add]
  | cons v vs ih => rw [List.cons_append, Value.byteLengthAll, Value.byteLengthAll, ih, Nat.add_assoc]

/-- A row on top of columns adds its payload to theirs. -/
theorem byteLengthAll_flatten_zipWith {row : Row} {columns : List (List Value)}
    (h : row.length = columns.length) :
    Value.byteLengthAll (List.zipWith (· :: ·) row columns).flatten =
      Value.byteLengthAll row + Value.byteLengthAll columns.flatten := by
  induction row generalizing columns with
  | nil =>
    rw [List.length_eq_zero_iff.1 h.symm]
    rfl
  | cons v vs ih =>
    obtain ⟨column, columns, rfl⟩ := List.exists_cons_of_length_eq_add_one h.symm
    simp only [List.zipWith_cons_cons, List.flatten_cons, List.cons_append, Value.byteLengthAll,
      byteLengthAll_append, ih (Nat.succ.inj h)]
    omega

/-- The payload does not depend on whether it is counted by rows or by columns. -/
theorem byteLengthAll_flatten_transpose {width : Nat} {rows : List Row}
    (h : ∀ row ∈ rows, row.length = width) :
    Value.byteLengthAll (transpose width rows).flatten = Value.byteLengthAll rows.flatten := by
  induction rows with
  | nil =>
    induction width with
    | zero => rfl
    | succ width ih => exact ih (by simp)
  | cons row rows ih =>
    obtain ⟨hrow, hrows⟩ := List.forall_mem_cons.1 h
    have hlength : row.length = (transpose width rows).length := by
      rw [hrow, length_transpose hrows]
    rw [List.flatten_cons, byteLengthAll_append, ← ih hrows]
    exact byteLengthAll_flatten_zipWith hlength

/-! ### Batches -/

theorem Batch.byteLength_eq (b : Batch) : b.byteLength = Value.byteLengthAll b.columns.flatten := by
  rw [byteLength]
  induction b.columns with
  | nil => rfl
  | cons column columns ih => rw [List.foldr_cons, ih, List.flatten_cons, byteLengthAll_append]

/-- A batch that consists of given rows, each value in the type of its field.  Its payload is that
of all these values. -/
def Batch.Holds (b : Batch) (schema : List Field) (rows : List Row) : Prop :=
  b.schema = schema ∧ b.rowCount = rows.length ∧
    ∃ conformed, List.Forall₂ (IsConformed schema) rows conformed ∧
      (∀ i, b.row? i = conformed[i]?) ∧ b.byteLength = Value.byteLengthAll conformed.flatten

theorem length_of_mem_conformed {schema : List Field} {rows conformed : List Row}
    (h : List.Forall₂ (IsConformed schema) rows conformed) :
    ∀ row ∈ conformed, row.length = schema.length := by
  induction h with
  | nil => exact fun row hrow => absurd hrow List.not_mem_nil
  | cons hrow _ ih => exact List.forall_mem_cons.2 ⟨hrow.length_eq, ih⟩

/-- A block of columns made of rows of the same width holds these rows. -/
theorem holds_transpose {schema : List Field} {rows conformed : List Row}
    (h : List.Forall₂ (IsConformed schema) rows conformed) :
    (⟨schema, transpose schema.length conformed, rows.length⟩ : Batch).Holds schema rows := by
  have hwidth := length_of_mem_conformed h
  refine ⟨rfl, rfl, conformed, h, fun i => ?_, ?_⟩
  · rw [Batch.row?]
    by_cases hi : i < rows.length
    · rw [if_pos hi]
      exact mapM_transpose hwidth (h.length_eq ▸ hi)
    · rw [if_neg hi, List.getElem?_eq_none (by rw [← h.length_eq]; omega)]
  · rw [Batch.byteLength_eq]
    exact byteLengthAll_flatten_transpose hwidth

/-- Rows with an error make no batch. -/
theorem ofRows_of_fault {schema : List Field} {rows : List Row} {e : SchemaError}
    (h : fault? schema rows = some e) : Batch.ofRows schema rows = .error e := by
  have hrows : rows.mapM (conformRow schema) = .error e := by
    induction rows with
    | nil => cases h
    | cons row rows ih =>
      rw [fault?, List.findSome?_cons] at h
      rw [List.mapM_cons]
      cases hrow : rowFault? schema row with
      | some e' =>
        rw [hrow] at h
        rw [conformRow_of_fault hrow, Option.some.inj h]
        rfl
      | none =>
        rw [hrow] at h
        obtain ⟨conformed, hconform, -⟩ := exists_conformRow hrow
        rw [hconform, ih h]
        rfl
  rw [Batch.ofRows, hrows]
  rfl

/-- Rows without an error make a batch of the conformed rows. -/
theorem ofRows_of_fault_eq_none {schema : List Field} {rows : List Row}
    (h : fault? schema rows = none) :
    ∃ conformed, List.Forall₂ (IsConformed schema) rows conformed ∧
      Batch.ofRows schema rows =
        .ok ⟨schema, transpose schema.length conformed, rows.length⟩ := by
  have hrows : ∃ conformed, List.Forall₂ (IsConformed schema) rows conformed ∧
      rows.mapM (conformRow schema) = .ok conformed := by
    induction rows with
    | nil => exact ⟨[], .nil, rfl⟩
    | cons row rows ih =>
      rw [fault?, List.findSome?_cons] at h
      cases hrow : rowFault? schema row with
      | some e => simp [hrow] at h
      | none =>
        rw [hrow] at h
        obtain ⟨first, hfirst, hconformed⟩ := exists_conformRow hrow
        obtain ⟨rest, hall, hrest⟩ := ih h
        refine ⟨first :: rest, .cons hconformed hall, ?_⟩
        rw [List.mapM_cons, hfirst, hrest]
        rfl
  obtain ⟨conformed, hall, hmapM⟩ := hrows
  exact ⟨conformed, hall, by rw [Batch.ofRows, hmapM]; rfl⟩

/-- Rows without an error make a batch that holds them. -/
theorem exists_ofRows {schema : List Field} {rows : List Row} (h : fault? schema rows = none) :
    ∃ b, Batch.ofRows schema rows = .ok b ∧ b.Holds schema rows := by
  obtain ⟨conformed, hall, hrows⟩ := ofRows_of_fault_eq_none h
  exact ⟨_, hrows, holds_transpose hall⟩

end ExternalTable.Scan
