import Mathlib.Algebra.Order.Field.Rat
import Mathlib.Tactic.FieldSimp
import Mathlib.Tactic.NormNum
import ExternalTable.Proofs.Pulling

/-!
# Decimal columns

A decimal column of a batch stands for the numbers that were fetched, whichever kind of number the
source delivered.

* `Decimal.value`, `Value.number?`: the number that a decimal, and a value, stands for;
* `ofInt?_eq_some_iff`: which integers have a decimal at a scale;
* `Receives`: what becomes of a value in a decimal column;
* `Step.HasRows`, `answer_of_hasRows`: the rows of one step, and the answer made of them;
* `decimals_received`: the main statement.
-/

namespace ExternalTable

/-! ### Numbers -/

/-- The number that a decimal stands for. -/
def Decimal.value (d : Decimal) : ℚ :=
  d.unscaled / 10 ^ d.scale

/-- The number that an integer or a decimal stands for. -/
def Value.number? : Value → Option ℚ
  | .int n => some n.toInt
  | .uint n => some n.toNat
  | .decimal d => some d.value
  | _ => none

/-- The number of a value has a decimal of a given scale within 128 bits. -/
def Value.IsExpressible (v : Value) (scale : Int) : Prop :=
  ∃ d : Decimal, d.scale = scale ∧ Decimal.inRange d.unscaled = true ∧ v.number? = some d.value

namespace Decimal

/-- At a given scale a decimal stands for an integer if it is the integer followed by zeros. -/
theorem value_eq_intCast_iff (d : Decimal) (n : Int) :
    d.value = n ↔ d.unscaled = n * tenPow d.scale := by
  have hpos : (10 : ℚ) ^ d.scale ≠ 0 := pow_ne_zero _ (by norm_num)
  have hpow : ((tenPow d.scale : Int) : ℚ) = 10 ^ d.scale := by
    change (((10 : Nat) ^ d.scale : Nat) : ℚ) = _
    push_cast
    rfl
  rw [value, div_eq_iff hpos, ← hpow, ← Int.cast_mul, Int.cast_inj]

/-- The decimal of an integer at a scale, where there is one: it stands for the integer, and both the
power of ten and the result fit. -/
theorem ofInt?_eq_some_iff {n scale : Int} {d : Decimal} :
    ofInt? n scale = some d ↔ d.scale = scale ∧ d.value = n ∧
      inRange (tenPow d.scale) = true ∧ inRange d.unscaled = true := by
  rw [value_eq_intCast_iff, ofInt?]
  constructor
  · intro h
    split at h
    · next hfits =>
      obtain ⟨hscale, hfactor, hproduct⟩ := hfits
      cases h
      exact ⟨Int.toNat_of_nonneg hscale, rfl, hfactor, hproduct⟩
    · cases h
  · rintro ⟨rfl, hunscaled, hfactor, hrange⟩
    obtain ⟨unscaled, scale⟩ := d
    change unscaled = n * (tenPow scale : Int) at hunscaled
    subst hunscaled
    exact if_pos ⟨Int.natCast_nonneg _, hfactor, hrange⟩

end Decimal

namespace Scan

variable {σ : Type}

/-- What becomes of a value in a decimal column: a number is brought to the scale of the column, but
a decimal of another scale stays as it was delivered. -/
inductive Receives (scale : Int) : Value → Value → Prop
  | null : Receives scale .null .null
  | scaled {v : Value} {d : Decimal} (hvalue : v.number? = some d.value) (hscale : d.scale = scale) :
      Receives scale v (.decimal d)
  | asDelivered {d : Decimal} (hscale : d.scale ≠ scale) : Receives scale (.decimal d) (.decimal d)

theorem receives_of_conform? {v w : Value} {precision : Nat} {scale : Int}
    (h : v.conform? (.decimal128 precision scale) = some w) : Receives scale v w := by
  cases v with
  | null =>
    cases h
    exact .null
  | int n =>
    obtain ⟨d, hd, rfl⟩ := Option.map_eq_some_iff.1 h
    obtain ⟨hscale, hvalue, -⟩ := Decimal.ofInt?_eq_some_iff.1 hd
    exact .scaled (congrArg some hvalue.symm) hscale
  | uint n =>
    obtain ⟨d, hd, rfl⟩ := Option.map_eq_some_iff.1 h
    obtain ⟨hscale, hvalue, -⟩ := Decimal.ofInt?_eq_some_iff.1 hd
    exact .scaled (congrArg some (by rw [hvalue, Int.cast_natCast])) hscale
  | decimal d =>
    cases h
    by_cases hscale : d.scale = scale
    · exact .scaled rfl hscale
    · exact .asDelivered hscale
  | _ => cases h

/-- A value that is no decimal and has none at the scale of the column does not fit. -/
theorem conform?_eq_none {v : Value} {precision : Nat} {scale : Int} (hnull : v ≠ .null)
    (hdecimal : ∀ d, v ≠ .decimal d) (h : ¬ v.IsExpressible scale) :
    v.conform? (.decimal128 precision scale) = none := by
  have hnone : ∀ n : Int, v.number? = some (n : ℚ) → Decimal.ofInt? n scale = none := by
    intro n hn
    rw [Option.eq_none_iff_forall_ne_some]
    intro d hd
    obtain ⟨hscale, hvalue, -, hrange⟩ := Decimal.ofInt?_eq_some_iff.1 hd
    exact h ⟨d, hscale, hrange, by rw [hn, hvalue]⟩
  cases v with
  | null => exact absurd rfl hnull
  | decimal d => exact absurd rfl (hdecimal d)
  | int n => exact congrArg (Option.map Value.decimal) (hnone n.toInt rfl)
  | uint n =>
    exact congrArg (Option.map Value.decimal) (hnone n.toNat (congrArg some (Int.cast_natCast _).symm))
  | _ => rfl

/-! ### Columns -/

/-- A column of fetched rows. -/
def columnOf (rows : List Row) (j : Nat) : Option (List Value) :=
  rows.mapM fun row => row[j]?

/-- The columns of rows of one width are those of the block that they are turned into. -/
theorem columnOf_eq_transpose {width : Nat} {rows : List Row}
    (h : ∀ row ∈ rows, row.length = width) {j : Nat} (hj : j < width) :
    columnOf rows j = (transpose width rows)[j]? := by
  induction rows with
  | nil => simp [columnOf, transpose, hj]
  | cons row rows ih =>
    obtain ⟨hrow, hrows⟩ := List.forall_mem_cons.1 h
    have hcolumn := ih hrows
    have hrest : j < (transpose width rows).length := by rwa [length_transpose hrows]
    rw [List.getElem?_eq_getElem hrest] at hcolumn
    change rows.mapM _ = _ at hcolumn
    change _ = (List.zipWith (· :: ·) row (transpose width rows))[j]?
    rw [columnOf, List.mapM_cons, hcolumn, List.getElem?_zipWith,
      List.getElem?_eq_getElem (by omega : j < row.length), List.getElem?_eq_getElem hrest]
    rfl

/-- Each value of a conformed row is made of the value at its place. -/
theorem IsConformed.conform?_eq {schema : List Field} {row conformed : Row}
    (h : IsConformed schema row conformed) {j : Nat} {field : Field} (hfield : schema[j]? = some field) :
    ∃ v w, row[j]? = some v ∧ conformed[j]? = some w ∧ v.conform? field.type = some w := by
  obtain ⟨hj, -⟩ := List.getElem?_eq_some_iff.1 hfield
  have hrow : j < row.length := h.width.symm ▸ hj
  have hconformed : j < conformed.length := h.length_eq.symm ▸ hj
  have hvalues := congrArg (·[j]?) h.values
  simp only [List.getElem?_zipWith, hfield, List.getElem?_eq_getElem hrow, List.getElem?_map,
    List.getElem?_eq_getElem hconformed, Option.map_some, Option.some.injEq] at hvalues
  exact ⟨_, _, List.getElem?_eq_getElem hrow, List.getElem?_eq_getElem hconformed, hvalues⟩

/-- A decimal column of conformed rows receives the values of the rows. -/
theorem receives_columnOf {schema : List Field} {rows conformed : List Row}
    (h : List.Forall₂ (IsConformed schema) rows conformed) {j : Nat} {field : Field}
    {precision : Nat} {scale : Int} (hfield : schema[j]? = some field)
    (htype : field.type = .decimal128 precision scale) :
    ∃ values column, columnOf rows j = some values ∧ columnOf conformed j = some column ∧
      List.Forall₂ (Receives scale) values column := by
  induction h with
  | nil => exact ⟨[], [], rfl, rfl, .nil⟩
  | cons hrow _ ih =>
    obtain ⟨v, w, hv, hw, hconform⟩ := hrow.conform?_eq hfield
    obtain ⟨values, column, hvalues, hcolumn, hall⟩ := ih
    rw [htype] at hconform
    refine ⟨v :: values, w :: column, ?_, ?_, .cons (receives_of_conform? hconform) hall⟩
    · rw [columnOf] at hvalues ⊢
      rw [List.mapM_cons, hv, hvalues]
      rfl
    · rw [columnOf] at hcolumn ⊢
      rw [List.mapM_cons, hw, hcolumn]
      rfl

theorem schema_of_ofRows {schema : List Field} {rows : List Row} {b : Batch}
    (h : Batch.ofRows schema rows = .ok b) : b.schema = schema := by
  rw [Batch.ofRows] at h
  cases hrows : rows.mapM (conformRow schema) with
  | error e =>
    rw [hrows] at h
    cases h
  | ok conformed =>
    rw [hrows] at h
    cases h
    rfl

/-- A decimal column of a batch receives the values of the rows that it is made of. -/
theorem receives_of_ofRows {schema : List Field} {rows : List Row} {b : Batch}
    (h : Batch.ofRows schema rows = .ok b) {j : Nat} {field : Field} {precision : Nat} {scale : Int}
    (hfield : schema[j]? = some field) (htype : field.type = .decimal128 precision scale) :
    ∃ values column, columnOf rows j = some values ∧ b.column? j = some column ∧
      List.Forall₂ (Receives scale) values column := by
  cases hfault : fault? schema rows with
  | some e => cases h.symm.trans (ofRows_of_fault hfault)
  | none =>
    obtain ⟨conformed, hall, hrows⟩ := ofRows_of_fault_eq_none hfault
    obtain ⟨values, column, hvalues, hcolumn, hreceives⟩ := receives_columnOf hall hfield htype
    cases h.symm.trans hrows
    refine ⟨values, column, hvalues, ?_, hreceives⟩
    rw [← hcolumn]
    obtain ⟨hj, -⟩ := List.getElem?_eq_some_iff.1 hfield
    exact (columnOf_eq_transpose (length_of_mem_conformed hall) hj).symm

/-! ### Rows that do not fit -/

/-- The first entry with a result, given by its place. -/
theorem findSome?_of_getElem? {α β : Type} {f : α → Option β} {l : List α} {i : Nat} {a : α}
    {b : β} (hbefore : (l.take i).findSome? f = none) (ha : l[i]? = some a) (hb : f a = some b) :
    l.findSome? f = some b := by
  obtain ⟨hi, rfl⟩ := List.getElem?_eq_some_iff.1 ha
  rw [← List.take_append_drop i l, List.findSome?_append, hbefore, List.drop_eq_getElem_cons hi,
    List.findSome?_cons, hb]
  rfl

/-- A value that its field cannot hold makes its rows unfit, and it is the error where nothing before
it is wrong, row by row. -/
theorem exists_fault_of_conform?_eq_none {schema : List Field} {rows : List Row} {i j : Nat}
    {row : Row} {field : Field} {v : Value} (hrow : rows[i]? = some row)
    (hfield : schema[j]? = some field) (hv : row[j]? = some v) (h : v.conform? field.type = none) :
    ∃ e, fault? schema rows = some e ∧
      (fault? schema (rows.take i) = none → row.length = schema.length →
        firstUnfit? (schema.take j) (row.take j) = none →
        e = .conversion field.name v.kind field.type) := by
  have hunfit : (schema.zip row)[j]? = some (field, v) :=
    List.getElem?_zip_eq_some.2 ⟨hfield, hv⟩
  have hfault : rowFault? schema row ≠ none := by
    intro hnone
    rw [rowFault?] at hnone
    split at hnone
    · have hfits := List.findSome?_eq_none_iff.1 hnone _ (List.mem_of_getElem? hunfit)
      cases hfits.symm.trans (if_pos h)
    · cases hnone
  obtain ⟨e, he⟩ : ∃ e, fault? schema rows = some e := by
    refine Option.ne_none_iff_exists'.1 fun hnone => hfault ?_
    exact fault?_eq_none_iff.1 hnone row (List.mem_of_getElem? hrow)
  refine ⟨e, he, fun hbefore hwidth hfirst => ?_⟩
  have hvalue : firstUnfit? schema row = some (.conversion field.name v.kind field.type) := by
    refine findSome?_of_getElem? ?_ hunfit (if_pos h)
    rw [List.zip, List.take_zipWith]
    exact hfirst
  have hrowFault : rowFault? schema row = some (.conversion field.name v.kind field.type) := by
    rw [rowFault?, if_pos hwidth, hvalue]
  exact Option.some.inj (he.symm.trans (findSome?_of_getElem? hbefore hrow hrowFault))

/-! ### Steps -/

/-- Answers that give rows, and perhaps the end of the result, but no error. -/
def Gives (answers : List RowAnswer) (rows : List Row) : Prop :=
  answers = given rows ∨ answers = given rows ++ [.ok none]

/-- The source gives these rows in a step, and does not fail. -/
def Step.HasRows (r : Remote σ) (x : Step σ) (rows : List Row) : Prop :=
  Gives (x.rowAnswers r) rows

theorem Gives.ne_nil {answers : List RowAnswer} {rows : List Row} (h : Gives answers rows)
    (hne : rows ≠ []) : answers ≠ [] := by
  rcases h with rfl | rfl
  · exact List.map_eq_nil_iff.not.2 hne
  · exact List.append_ne_nil_of_right_ne_nil _ (List.cons_ne_nil _ _)

theorem given_injective : Function.Injective given :=
  List.map_injective_iff.2 fun _ _ h => Option.some.inj (Except.ok.inj h)

/-- Among answers that all give rows the last gives one. -/
theorem exists_row_of_given_eq {rows : List Row} {before : List RowAnswer} {a : RowAnswer}
    (h : given rows = before ++ [a]) : ∃ row, a = .ok (some row) := by
  have hmem : a ∈ given rows := h ▸ List.mem_append_right _ List.mem_cons_self
  obtain ⟨row, -, rfl⟩ := List.mem_map.1 hmem
  exact ⟨row, rfl⟩

/-- The answers of the source tell the rows that were pulled. -/
theorem Pulled.eq_ok {wanted : Nat} {value : Except RemoteError (List Row × Bool)}
    {answers : List RowAnswer} (h : Pulled wanted value answers) {rows : List Row}
    (hrows : Gives answers rows) : ∃ exhausted, value = .ok (rows, exhausted) := by
  cases h with
  | full =>
    rcases hrows with heq | heq
    · exact ⟨false, by rw [given_injective heq]⟩
    · obtain ⟨row, h⟩ := exists_row_of_given_eq heq
      cases h
  | exhausted =>
    rcases hrows with heq | heq
    · obtain ⟨row, h⟩ := exists_row_of_given_eq heq.symm
      cases h
    · exact ⟨true, by rw [given_injective (List.append_cancel_right heq)]⟩
  | lost =>
    rcases hrows with heq | heq
    · obtain ⟨row, h⟩ := exists_row_of_given_eq heq.symm
      cases h
    · cases (List.append_inj' heq rfl).2

/-- The answer that is made of the rows of a batch. -/
def answerOf (schema : List Field) (rows : List Row) : Option (Except ScanError Batch) :=
  some ((Batch.ofRows schema rows).mapError .schema)

/-- A call of `next` that gets rows answers with their batch, or with their error. -/
theorem next_of_hasRows {r : Remote σ} {s : Scan} {w : σ} {rows : List Row} (hne : rows ≠ [])
    (h : Gives (rowAnswers r (next r s w).actions w) rows) :
    (next r s w).value.1 = answerOf s.schema rows := by
  rw [rowAnswers_next] at h
  split at h
  · next hphase =>
    obtain ⟨exhausted, hpull⟩ := (pulled r s.batchSize w).eq_ok h
    have hadvances := advances r s w
    generalize next r s w = ran at hadvances ⊢
    rw [answerOf]
    cases hadvances with
    | idle hs => cases hphase.symm.trans hs
    | batch _ hfetch =>
      cases hfetch ▸ fetched r s w with
      | batch _ hpull' _ hrows =>
        cases hpull.symm.trans hpull'
        rw [hrows]
        rfl
    | ended _ hfetch =>
      cases hfetch ▸ fetched r s w with
      | idle hs => exact absurd hphase hs
      | exhausted _ hpull' =>
        cases hpull.symm.trans hpull'
        exact absurd rfl hne
    | failed _ hfetch =>
      cases hfetch ▸ fetched r s w with
      | lost _ hpull' => cases hpull.symm.trans hpull'
      | unfit _ hpull' hrows =>
        cases hpull.symm.trans hpull'
        rw [hrows]
        rfl
  · exact absurd rfl (h.ne_nil hne)

/-- Every batch that `next` hands out is made of rows that the source gave. -/
theorem exists_hasRows_of_next {r : Remote σ} {s : Scan} {w : σ} {b : Batch}
    (h : (next r s w).value.1 = some (.ok b)) :
    ∃ rows, rows ≠ [] ∧ Gives (rowAnswers r (next r s w).actions w) rows := by
  obtain ⟨hphase, rows, exhausted, hpull, hne, -, -⟩ := exists_pull_of_batch h
  have hpulled := pulled r s.batchSize w
  rw [hpull] at hpulled
  rw [rowAnswers_next, if_pos hphase]
  refine ⟨rows, hne, ?_⟩
  generalize rowAnswers r (pull r s.batchSize w).actions w = answers at hpulled
  cases hpulled with
  | full => exact .inl rfl
  | exhausted => exact .inr rfl

theorem close_keeps (r : Remote σ) (s : Scan) (w : σ) :
    (close r s w).value.2.batchSize = s.batchSize ∧ (close r s w).value.2.schema = s.schema := by
  by_cases hs : s.phase = .closed
  · rw [close_closed r hs]
    exact ⟨rfl, rfl⟩
  · rw [close_apply r hs]
    exact ⟨rfl, rfl⟩

/-- Every step of a session is a command to a scan with the same schema and batches of the same
size. -/
theorem step_cases {r : Remote σ} {s : Scan} {commands : List Command} {w : σ} {x : Step σ}
    (hx : x ∈ session r commands s w) :
    ∃ s' : Scan, s'.schema = s.schema ∧ s'.batchSize = s.batchSize ∧
      (x = ⟨.next, x.source, .batch (next r s' x.source).value.1, (next r s' x.source).actions⟩ ∨
        x = ⟨.close, x.source, .closed (close r s' x.source).value.1,
          (close r s' x.source).actions⟩ ∨
        x = ⟨.drop, x.source, .dropped, (drop r s' x.source).actions⟩) := by
  induction commands generalizing s w with
  | nil => exact absurd hx List.not_mem_nil
  | cons command commands ih =>
    cases command with
    | next =>
      rcases List.mem_cons.1 hx with rfl | hx
      · exact ⟨s, rfl, rfl, .inl rfl⟩
      · obtain ⟨hsize, hschema⟩ := next_keeps r s w
        rw [← hsize, ← hschema]
        exact ih hx
    | close =>
      rcases List.mem_cons.1 hx with rfl | hx
      · exact ⟨s, rfl, rfl, .inr (.inl rfl)⟩
      · obtain ⟨hsize, hschema⟩ := close_keeps r s w
        rw [← hsize, ← hschema]
        exact ih hx
    | drop =>
      rw [List.mem_singleton.1 hx]
      exact ⟨s, rfl, rfl, .inr (.inr rfl)⟩

/-- A step that gets rows answers with their batch, or with their error. -/
theorem answer_of_hasRows {r : Remote σ} {s : Scan} {commands : List Command} {w : σ} {x : Step σ}
    (hx : x ∈ session r commands s w) {rows : List Row} (hne : rows ≠ []) (h : x.HasRows r rows) :
    x.answer = .batch (answerOf s.schema rows) := by
  have hnil : x.rowAnswers r ≠ [] := h.ne_nil hne
  obtain ⟨s', hschema, -, hx | hx | hx⟩ := step_cases hx
  · rw [hx] at h ⊢
    rw [← hschema]
    exact congrArg Answer.batch (next_of_hasRows hne h)
  · rw [hx] at hnil
    exact absurd (rowAnswers_eq_nil (List.count_eq_zero.1 (count_nextRow_close r s' _)) _) hnil
  · rw [hx] at hnil
    exact absurd (rowAnswers_eq_nil (List.count_eq_zero.1 (count_nextRow_drop r s' _)) _) hnil

/-- Every batch of a session is made of rows that the source gave in its step. -/
theorem exists_hasRows {r : Remote σ} {s : Scan} {commands : List Command} {w : σ} {x : Step σ}
    (hx : x ∈ session r commands s w) {b : Batch} (hb : x.answer = .batch (some (.ok b))) :
    ∃ rows, x.HasRows r rows ∧ Batch.ofRows s.schema rows = .ok b := by
  obtain ⟨s', -, -, hstep | hstep | hstep⟩ := step_cases hx
  · have hvalue : (next r s' x.source).value.1 = some (.ok b) := by
      rw [hstep] at hb
      exact Answer.batch.inj hb
    obtain ⟨rows, hne, hrows⟩ := exists_hasRows_of_next hvalue
    have hhas : x.HasRows r rows := by
      rw [hstep]
      exact hrows
    refine ⟨rows, hhas, ?_⟩
    have hanswer := answer_of_hasRows hx hne hhas
    rw [hb, answerOf] at hanswer
    cases hofRows : Batch.ofRows s.schema rows with
    | error e =>
      rw [hofRows] at hanswer
      cases hanswer
    | ok b' =>
      rw [hofRows] at hanswer
      cases hanswer
      rfl
  · rw [hstep] at hb
    cases hb
  · rw [hstep] at hb
    cases hb

/-- **A decimal column holds the numbers that were fetched.**  Take any session of a scan.  A batch is
made of rows that the source gave in the same step, and each of its decimal columns receives their
values in order: null for null, and for a number a decimal of the same number, at the scale of the
column unless the source delivered a decimal of another scale.  In a step whose rows hold another
value, or an integer that 128 bits do not hold at that scale, there is no batch but an error; it is
the conversion of that value where nothing is wrong before it, row by row. -/
theorem decimals_received (r : Remote σ) (s : Scan) (commands : List Command) (w : σ) :
    ∀ x ∈ session r commands s w, ∀ (j : Nat) (field : Field) (precision : Nat) (scale : Int),
      s.schema[j]? = some field → field.type = .decimal128 precision scale →
      (∀ b, x.answer = .batch (some (.ok b)) → b.schema = s.schema ∧
        ∃ rows values column, x.HasRows r rows ∧ columnOf rows j = some values ∧
          b.column? j = some column ∧ List.Forall₂ (Receives scale) values column) ∧
      ∀ rows, x.HasRows r rows → ∀ (i : Nat) (row : Row) (v : Value), rows[i]? = some row →
        row[j]? = some v → v ≠ .null → (∀ d, v ≠ .decimal d) → ¬ v.IsExpressible scale →
        ∃ e, x.answer = .batch (some (.error (.schema e))) ∧
          (fault? s.schema (rows.take i) = none → row.length = s.schema.length →
            firstUnfit? (s.schema.take j) (row.take j) = none →
            e = .conversion field.name v.kind field.type) := by
  intro x hx j field precision scale hfield htype
  refine ⟨fun b hb => ?_, fun rows hrows i row v hrow hv hnull hdecimal hexpress => ?_⟩
  · obtain ⟨rows, hrows, hofRows⟩ := exists_hasRows hx hb
    obtain ⟨values, column, hvalues, hcolumn, hall⟩ := receives_of_ofRows hofRows hfield htype
    exact ⟨schema_of_ofRows hofRows, rows, values, column, hrows, hvalues, hcolumn, hall⟩
  · have hne : rows ≠ [] := List.ne_nil_of_mem (List.mem_of_getElem? hrow)
    have hconform : v.conform? field.type = none := by
      rw [htype]
      exact conform?_eq_none hnull hdecimal hexpress
    obtain ⟨e, hfault, hfirst⟩ := exists_fault_of_conform?_eq_none hrow hfield hv hconform
    refine ⟨e, ?_, hfirst⟩
    rw [answer_of_hasRows hx hne hrows, answerOf, ofRows_of_fault hfault]
    rfl

/-- A source of rows with one decimal column of a given scale. -/
def amounts (scale : Int) (rows : Array Row) : Script :=
  { columns := [⟨"price", .decimal, 38, scale, true⟩]
    rows
    connectFailure := none
    statementFailure := none
    executeFailure := none
    fetchFailure := none
    closeFailure := fun _ => none
    bornClosed := []
    autoClose := false }

/-- An integer, a null and a decimal are received at scale two.  At scale 38 an integer is too great
for 128 bits, and that is the error, although a null comes before it. -/
theorem decimals_received_amounts :
    let q : Request := ⟨"t", ["price"], [], []⟩
    let cents := (amounts 2 #[[.int 7], [.null], [.decimal ⟨150, 2⟩]]).remote
    let tiny := (amounts 38 #[[.null], [.int 7]]).remote
    let opened := start cents .generic (.ofUrl "url") q .start
    let opened' := start tiny .generic (.ofUrl "url") q .start
    (∃ s b values, opened.value = .ok s ∧
      (session cents [.next] s opened.source).map Step.answer = [.batch (some (.ok b))] ∧
      b.column? 0 = some [.decimal ⟨700, 2⟩, .null, .decimal ⟨150, 2⟩] ∧
      List.Forall₂ (Receives 2) values [.decimal ⟨700, 2⟩, .null, .decimal ⟨150, 2⟩]) ∧
      ∃ s, opened'.value = .ok s ∧ ∃ x ∈ session tiny [.next] s opened'.source,
        x.answer =
          .batch (some (.error (.schema (.conversion "price" .int (.decimal128 38 38))))) := by
  intro q cents tiny opened opened'
  constructor
  · obtain ⟨s, b, hstart, hschema, hanswers, hcolumn⟩ : ∃ s b, opened.value = .ok s ∧
        s.schema = [⟨"price", .decimal128 38 2, true⟩] ∧
        (session cents [.next] s opened.source).map Step.answer = [.batch (some (.ok b))] ∧
        b.column? 0 = some [.decimal ⟨700, 2⟩, .null, .decimal ⟨150, 2⟩] :=
      ⟨_, _, rfl, rfl, rfl, rfl⟩
    obtain ⟨x, hx, hb⟩ := List.mem_map.1 (hanswers ▸ List.mem_singleton_self _)
    obtain ⟨-, rows, values, column, -, -, hcolumn', hall⟩ :=
      (decimals_received cents s [.next] opened.source x hx 0 _ 38 2
        (congrArg (·[0]?) hschema) rfl).1 b hb
    cases hcolumn.symm.trans hcolumn'
    exact ⟨s, b, values, hstart, hanswers, hcolumn, hall⟩
  · obtain ⟨s, x, hstart, hschema, hsession, hsource, hactions⟩ : ∃ s x, opened'.value = .ok s ∧
        s.schema = [⟨"price", .decimal128 38 38, true⟩] ∧
        session tiny [.next] s opened'.source = [x] ∧ x.source = .start ∧
        (session tiny [.next] s opened'.source).map Step.actions = [[.nextRow, .nextRow, .nextRow,
          .record (.scanFailed "t"), .close .cursor, .close .statement, .close .connection,
          .record (.scanClosed "t")]] :=
      ⟨_, _, rfl, rfl, rfl, rfl, by decide +kernel⟩
    have hrows : x.rowAnswers tiny = given [[.null], [.int 7]] ++ [.ok none] := by
      rw [hsession] at hactions
      rw [Step.rowAnswers, hsource, List.singleton_inj.1 hactions]
      rfl
    have hx : x ∈ session tiny [.next] s opened'.source := hsession ▸ List.mem_singleton_self x
    have hgreat : ¬ (Value.int 7).IsExpressible 38 := by
      rintro ⟨d, hscale, hrange, hvalue⟩
      have hunscaled := (d.value_eq_intCast_iff 7).1 (Option.some.inj hvalue).symm
      rw [hunscaled, Int.ofNat_inj.1 hscale] at hrange
      exact absurd hrange (by decide)
    have hfield : s.schema[0]? = some ⟨"price", .decimal128 38 38, true⟩ := by
      rw [hschema]
      rfl
    obtain ⟨e, hanswer, hfirst⟩ :=
      (decimals_received tiny s [.next] opened'.source x hx 0 _ 38 38 hfield rfl).2
        [[.null], [.int 7]] (.inr hrows) 1 [.int 7] (.int 7) rfl rfl (by simp) (by simp) hgreat
    refine ⟨s, hstart, x, hx, ?_⟩
    rw [hanswer, hfirst (by rw [hschema]; rfl) (by rw [hschema]; rfl) (by rw [hschema]; rfl)]
    rfl

/-- A decimal that is delivered at scale one stays so in a column of scale two, where an integer is
brought to scale two: read by their column, the two amounts are 7.00 and 0.15. -/
theorem decimal_keeps_delivered_scale :
    let r := (amounts 2 #[[.int 7], [.decimal ⟨15, 1⟩]]).remote
    let opened := start r .generic (.ofUrl "url") ⟨"t", ["price"], [], []⟩ .start
    ∃ s b, opened.value = .ok s ∧ s.schema = [⟨"price", .decimal128 38 2, true⟩] ∧
      (session r [.next] s opened.source).map Step.answer = [.batch (some (.ok b))] ∧
      b.column? 0 = some [.decimal ⟨700, 2⟩, .decimal ⟨15, 1⟩] := by
  intro r opened
  exact ⟨_, _, rfl, rfl, rfl, rfl⟩

end Scan

end ExternalTable
