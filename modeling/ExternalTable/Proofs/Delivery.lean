import Mathlib.Data.List.Range
import Mathlib.Tactic.Common
import ExternalTable.Proofs.Assembly
import ExternalTable.Proofs.Release

/-!
# What a scan delivers

A scan that is asked for one batch after the other hands out all rows of its result, cut into chunks
of the batch size, up to the first chunk with an error.

* `Feeds`: the rows that a cursor has yet to give, and how it ends;
* `advance`, `answer`, `yielded`: repeated calls of `next`, and the batches among the answers;
* `chunk`, `chunkFault?`: the rows of one batch, and what is wrong with them;
* `Delivers`: the answer that each call of `next` has to give;
* `next_delivers`: the main statement.
-/

namespace ExternalTable.Scan

open Metrics

variable {σ : Type}

/-! ### Cursors -/

/-- The rows that a cursor gives one by one, and after them the end of the result or an error. -/
inductive Feeds (r : Remote σ) : σ → List Row → Option RemoteError → Prop
  | exhausted {w : σ} : (r.nextRow w).1 = .ok none → Feeds r w [] none
  | failing {w : σ} {e : RemoteError} : (r.nextRow w).1 = .error e → Feeds r w [] (some e)
  | row {w : σ} {row : Row} {rows : List Row} {ending : Option RemoteError} :
      (r.nextRow w).1 = .ok (some row) → Feeds r (r.nextRow w).2 rows ending →
      Feeds r w (row :: rows) ending

/-- The rows that a scripted source gives, and how it ends: with the failure, unless that lies beyond
the end of the result. -/
def course (script : Script) : List Row × Option RemoteError :=
  match script.fetchFailure with
  | some (failing, e) =>
      if failing ≤ script.rows.size then (script.rows.toList.take failing, some e)
      else (script.rows.toList, none)
  | none => (script.rows.toList, none)

theorem course_cases (script : Script) :
    (∃ failing e, script.fetchFailure = some (failing, e) ∧ failing ≤ script.rows.size ∧
      course script = (script.rows.toList.take failing, some e)) ∨
      (∀ position ≤ script.rows.size, script.fetchFailureAt? position = none) ∧
        course script = (script.rows.toList, none) := by
  cases hscript : script.fetchFailure with
  | none => exact .inr ⟨fun _ _ => by rw [Script.fetchFailureAt?, hscript], by rw [course, hscript]⟩
  | some failure =>
    obtain ⟨failing, e⟩ := failure
    by_cases h : failing ≤ script.rows.size
    · exact .inl ⟨failing, e, rfl, h, by rw [course, hscript]; exact if_pos h⟩
    · refine .inr ⟨fun position hposition => ?_, by rw [course, hscript]; exact if_neg h⟩
      rw [Script.fetchFailureAt?, hscript]
      exact if_neg (by omega)

theorem nextRow_of_getElem? {script : Script} {s : Script.State} {row : Row}
    (h : (course script).1[s.position]? = some row) :
    script.nextRow s = (.ok (some row), { s with position := s.position + 1 }) := by
  have hrow : script.fetchFailureAt? s.position = none ∧ script.rows[s.position]? = some row := by
    rcases course_cases script with ⟨failing, e, hscript, -, hcourse⟩ | ⟨hnone, hcourse⟩
    · rw [hcourse, List.getElem?_take] at h
      split at h
      · refine ⟨?_, by rw [← Array.getElem?_toList]; exact h⟩
        rw [Script.fetchFailureAt?, hscript]
        exact if_neg (by omega)
      · cases h
    · rw [hcourse, Array.getElem?_toList] at h
      obtain ⟨hlt, -⟩ := Array.getElem?_eq_some_iff.1 h
      exact ⟨hnone _ (Nat.le_of_lt hlt), h⟩
  rw [Script.nextRow, hrow.1, hrow.2]

theorem nextRow_of_length {script : Script} {s : Script.State}
    (h : s.position = (course script).1.length) :
    (script.nextRow s).1 = match (course script).2 with
      | some e => .error e
      | none => .ok none := by
  rcases course_cases script with ⟨failing, e, hscript, hle, hcourse⟩ | ⟨hnone, hcourse⟩
  · rw [hcourse, List.length_take_of_le hle] at h
    rw [Script.nextRow, Script.fetchFailureAt?, hscript, hcourse]
    simp only [h, if_pos]
  · rw [hcourse, Array.length_toList] at h
    rw [Script.nextRow, hnone _ (Nat.le_of_eq h), hcourse,
      Array.getElem?_eq_none (Nat.le_of_eq h.symm)]

/-- Every scripted source is a cursor over finitely many rows. -/
theorem feeds_script (script : Script) (s : Script.State)
    (hs : s.position ≤ (course script).1.length) :
    Feeds script.remote s ((course script).1.drop s.position) (course script).2 := by
  induction hleft : (course script).1.length - s.position generalizing s with
  | zero =>
    have heq : s.position = (course script).1.length := by omega
    have hend := nextRow_of_length heq
    rw [List.drop_of_length_le (Nat.le_of_eq heq.symm)]
    cases hending : (course script).2 with
    | some e =>
      rw [hending] at hend
      exact .failing hend
    | none =>
      rw [hending] at hend
      exact .exhausted hend
  | succ left ih =>
    have hlt : s.position < (course script).1.length := by omega
    have hnext := nextRow_of_getElem? (List.getElem?_eq_getElem hlt)
    have hrest := ih (script.nextRow s).2 (by rw [hnext]; exact hlt) (by rw [hnext]; simp only; omega)
    rw [hnext] at hrest
    rw [← List.getElem_cons_drop hlt]
    refine .row (congrArg Prod.fst hnext) ?_
    change Feeds script.remote (script.nextRow s).2 _ _
    rw [hnext]
    exact hrest

/-- As many rows as are wanted are fetched where there are so many. -/
theorem pull_of_le {r : Remote σ} {w : σ} {rows : List Row} {ending : Option RemoteError}
    (h : Feeds r w rows ending) {wanted : Nat} (hwanted : wanted ≤ rows.length) :
    (pull r wanted w).value = .ok (rows.take wanted, false) ∧
      Feeds r (pull r wanted w).source (rows.drop wanted) ending := by
  induction wanted generalizing w rows with
  | zero => exact ⟨rfl, h⟩
  | succ wanted ih =>
    cases h with
    | exhausted => exact absurd hwanted (Nat.not_succ_le_zero _)
    | failing => exact absurd hwanted (Nat.not_succ_le_zero _)
    | row hrow hrest =>
      obtain ⟨hvalue, hsource⟩ := ih hrest (Nat.le_of_succ_le_succ hwanted)
      rw [pull]
      simp only [Exec.bind_apply, Exec.call_apply, hrow, hvalue]
      exact ⟨rfl, hsource⟩

/-- Where there are fewer rows than are wanted, fetching meets the end of the result. -/
theorem pull_of_lt {r : Remote σ} {w : σ} {rows : List Row} {ending : Option RemoteError}
    (h : Feeds r w rows ending) {wanted : Nat} (hwanted : rows.length < wanted) :
    (pull r wanted w).value = match ending with
      | none => .ok (rows, true)
      | some e => .error e := by
  obtain ⟨wanted, rfl⟩ := Nat.exists_eq_add_one.2 (Nat.zero_lt_of_lt hwanted)
  induction h generalizing wanted with
  | exhausted hend =>
    rw [pull]
    simp only [Exec.bind_apply, Exec.call_apply, hend]
    rfl
  | failing hfail =>
    rw [pull]
    simp only [Exec.bind_apply, Exec.call_apply, hfail]
    rfl
  | @row w row rows ending hrow hrest ih =>
    obtain ⟨wanted, rfl⟩ := Nat.exists_eq_add_one.2
      (Nat.zero_lt_of_lt (Nat.lt_of_succ_lt_succ hwanted))
    rw [pull]
    simp only [Exec.bind_apply, Exec.call_apply, hrow, ih wanted (Nat.lt_of_succ_lt_succ hwanted)]
    cases ending <;> rfl

/-! ### Repeated calls -/

/-- A scan and its source after a number of calls of `next`. -/
def advance (r : Remote σ) : Nat → Scan → σ → Scan × σ
  | 0, s, w => (s, w)
  | n + 1, s, w => advance r n (next r s w).value.2 (next r s w).source

/-- What `next` answers after a number of other calls. -/
def answer (r : Remote σ) (n : Nat) (s : Scan) (w : σ) : Option (Except ScanError Batch) :=
  (next r (advance r n s w).1 (advance r n s w).2).value.1

/-- The batch of an answer. -/
def batch? : Option (Except ScanError Batch) → Option Batch
  | some (.ok batch) => some batch
  | _ => none

/-- The batches that a number of calls of `next` hand out. -/
def yielded (r : Remote σ) (n : Nat) (s : Scan) (w : σ) : List Batch :=
  (List.range n).filterMap fun k => batch? (answer r k s w)

theorem yielded_succ (r : Remote σ) (n : Nat) (s : Scan) (w : σ) :
    yielded r (n + 1) s w =
      (batch? (answer r 0 s w)).toList ++ yielded r n (next r s w).value.2 (next r s w).source := by
  rw [yielded, List.range_succ_eq_map, List.filterMap_cons, List.filterMap_map]
  cases batch? (answer r 0 s w) <;> rfl

/-- A scan whose handles are released answers none for ever. -/
theorem answer_closed (r : Remote σ) {s : Scan} (hs : s.phase = .closed) (w : σ) (n : Nat) :
    answer r n s w = none := by
  induction n with
  | zero => rw [answer, advance, next_closed r hs]
  | succ n ih =>
    rw [answer, advance, next_closed r hs]
    exact ih

/-! ### Accounts -/

/-- The number of rows of several batches. -/
def rowTotal (batches : List Batch) : Nat :=
  batches.foldr (fun b total => b.rowCount + total) 0

/-- The payload size of several batches. -/
def byteTotal (batches : List Batch) : Nat :=
  batches.foldr (fun b total => b.byteLength + total) 0

@[simp] theorem rowTotal_nil : rowTotal [] = 0 := rfl

@[simp] theorem byteTotal_nil : byteTotal [] = 0 := rfl

/-- The last of several batches adds its amount to a total. -/
theorem foldr_add_concat (f : Batch → Nat) (batches : List Batch) (b : Batch) :
    (batches ++ [b]).foldr (fun b total => f b + total) 0 =
      batches.foldr (fun b total => f b + total) 0 + f b := by
  induction batches with
  | nil => simp
  | cons b' batches ih => rw [List.cons_append, List.foldr_cons, List.foldr_cons, ih, Nat.add_assoc]

@[simp] theorem rowTotal_concat (batches : List Batch) (b : Batch) :
    rowTotal (batches ++ [b]) = rowTotal batches + b.rowCount :=
  foldr_add_concat _ batches b

@[simp] theorem byteTotal_concat (batches : List Batch) (b : Batch) :
    byteTotal (batches ++ [b]) = byteTotal batches + b.byteLength :=
  foldr_add_concat _ batches b

/-- A scan whose counters show the rows and the payload of some batches, as far as 64 bits can. -/
structure Counted (s : Scan) (batches : List Batch) : Prop where
  rowsRead : s.rowsRead = min counterLimit (rowTotal batches)
  bytesRead : s.bytesRead = byteTotal batches % twoPow 64

namespace Counted

variable {s : Scan} {batches : List Batch}

theorem rowsRead_eq (h : Counted s batches) (hlt : rowTotal batches < twoPow 64) :
    s.rowsRead = rowTotal batches :=
  h.rowsRead.trans (Nat.min_eq_right (Nat.le_sub_one_of_lt hlt))

theorem bytesRead_eq (h : Counted s batches) (hlt : byteTotal batches < twoPow 64) :
    s.bytesRead = byteTotal batches :=
  h.bytesRead.trans (Nat.mod_eq_of_lt hlt)

/-- A batch that is handed out is counted. -/
theorem account (h : Counted s batches) (b : Batch) (exhausted : Bool) :
    Counted (s.account b exhausted) (batches ++ [b]) where
  rowsRead := by
    simp only [Scan.account, bump, h.rowsRead, rowTotal_concat]
    omega
  bytesRead := by
    simp only [Scan.account, h.bytesRead, byteTotal_concat, Nat.mod_add_mod]

/-- Nothing but the counters matters. -/
theorem closed (h : Counted s batches) : Counted { s with phase := .closed } batches :=
  ⟨h.rowsRead, h.bytesRead⟩

end Counted

/-- A call of `next` counts the batch that it hands out, and nothing else. -/
theorem Advances.counted {r : Remote σ} {s : Scan} {w : σ}
    {ran : Ran σ (Option (Except ScanError Batch) × Scan)} (h : Advances r s w ran)
    {batches : List Batch} (hs : Counted s batches) :
    Counted ran.value.2 (batches ++ (batch? ran.value.1).toList) := by
  cases h with
  | idle => simpa [batch?] using hs
  | ended | failed => simpa [batch?] using hs.closed
  | batch _ hfetch =>
    cases hfetch ▸ fetched r s w
    exact hs.account _ _

/-- Repeated calls count the batches that they hand out. -/
theorem counted_advance (r : Remote σ) (n : Nat) {s : Scan} (w : σ) {batches : List Batch}
    (hs : Counted s batches) : Counted (advance r n s w).1 (batches ++ yielded r n s w) := by
  induction n generalizing s w batches with
  | zero => exact (List.append_nil batches).symm ▸ hs
  | succ n ih =>
    rw [yielded_succ, ← List.append_assoc]
    exact ih _ ((advances r s w).counted hs)

/-- A scan that was just opened has counted nothing. -/
theorem counted_of_start {r : Remote σ} {d : Dialect} {options : ConnectOptions} {q : Request}
    {w : σ} {s : Scan} (h : (start r d options q w).value = .ok s) : Counted s [] := by
  obtain ⟨_, _, -, -, hs⟩ := opened_of_start h
  rw [hs]
  exact ⟨rfl, rfl⟩

/-! ### Chunks -/

/-- The rows of one batch. -/
def chunk (size : Nat) (rows : List Row) (n : Nat) : List Row :=
  (rows.drop (n * size)).take size

theorem chunk_zero (size : Nat) (rows : List Row) : chunk size rows 0 = rows.take size := by
  rw [chunk, Nat.zero_mul, List.drop_zero]

theorem chunk_succ (size : Nat) (rows : List Row) (n : Nat) :
    chunk size rows (n + 1) = chunk size (rows.drop size) n := by
  rw [chunk, chunk, List.drop_drop, Nat.succ_mul, Nat.add_comm]

/-- What is wrong with a chunk.  An error of the source is met by the first chunk that is not full,
and comes before the errors of the rows. -/
def chunkFault? (schema : List Field) (size : Nat) (rows : List Row) (ending : Option RemoteError)
    (n : Nat) : Option ScanError :=
  match if (chunk size rows n).length < size then ending else none with
  | some e => some (.fetchFailed e)
  | none => (fault? schema (chunk size rows n)).map .schema

theorem chunkFault?_succ (schema : List Field) (size : Nat) (rows : List Row)
    (ending : Option RemoteError) (n : Nat) :
    chunkFault? schema size rows ending (n + 1) =
      chunkFault? schema size (rows.drop size) ending n := by
  rw [chunkFault?, chunkFault?, chunk_succ]

/-- The answers of `next`, call by call: a batch for each chunk up to the first with an error, then
that error, if there is one, and then none for ever. -/
inductive Delivers (schema : List Field) (size : Nat) (rows : List Row)
    (ending : Option RemoteError) (n : Nat) : Option (Except ScanError Batch) → Prop
  | batch {b : Batch} : (∀ k ≤ n, chunkFault? schema size rows ending k = none) →
      chunk size rows n ≠ [] → b.Holds schema (chunk size rows n) →
      Delivers schema size rows ending n (some (.ok b))
  | failure {e : ScanError} : (∀ k < n, chunkFault? schema size rows ending k = none) →
      chunkFault? schema size rows ending n = some e →
      Delivers schema size rows ending n (some (.error e))
  | exhausted : (∀ k ≤ n, chunkFault? schema size rows ending k = none) →
      chunk size rows n = [] → Delivers schema size rows ending n none
  | failed {k : Nat} {e : ScanError} : k < n → chunkFault? schema size rows ending k = some e →
      Delivers schema size rows ending n none

/-- After a chunk without an error, the answers are those for the rows after it. -/
theorem Delivers.succ {schema : List Field} {size : Nat} {rows : List Row}
    {ending : Option RemoteError} {n : Nat} {a : Option (Except ScanError Batch)}
    (hzero : chunkFault? schema size rows ending 0 = none)
    (h : Delivers schema size (rows.drop size) ending n a) :
    Delivers schema size rows ending (n + 1) a := by
  have hle : ∀ {m}, (∀ k < m, chunkFault? schema size (rows.drop size) ending k = none) →
      ∀ k < m + 1, chunkFault? schema size rows ending k = none := by
    intro m hm k hk
    cases k with
    | zero => exact hzero
    | succ k =>
      rw [chunkFault?_succ]
      exact hm k (Nat.lt_of_succ_lt_succ hk)
  cases h with
  | batch hfaults hchunk hholds =>
    rw [← chunk_succ] at hchunk hholds
    refine .batch (fun k hk => ?_) hchunk hholds
    exact hle (fun k hk => hfaults k (Nat.le_of_lt_succ hk)) k (Nat.lt_succ_of_le hk)
  | failure hfaults hfault =>
    rw [← chunkFault?_succ] at hfault
    exact .failure (hle hfaults) hfault
  | exhausted hfaults hchunk =>
    rw [← chunk_succ] at hchunk
    refine .exhausted (fun k hk => ?_) hchunk
    exact hle (fun k hk => hfaults k (Nat.le_of_lt_succ hk)) k (Nat.lt_succ_of_le hk)
  | failed hk hfault =>
    rw [← chunkFault?_succ] at hfault
    exact .failed (Nat.succ_lt_succ hk) hfault

/-! ### The scan -/

/-- A scan that has yet to hand out these rows. -/
def Ahead (r : Remote σ) (s : Scan) (w : σ) (rows : List Row) (ending : Option RemoteError) :
    Prop :=
  s.phase = .reading ∧ Feeds r w rows ending ∨ s.phase = .drained ∧ rows = [] ∧ ending = none

theorem fetch_of_error {r : Remote σ} {s : Scan} {w : σ} (hphase : s.phase = .reading)
    {e : RemoteError} (hpull : (pull r s.batchSize w).value = .error e) :
    (fetch r s w).value = (.error (.fetchFailed e), s) := by
  rw [fetch, hphase]
  simp only [Exec.bind_apply, hpull]
  rfl

theorem fetch_of_nil {r : Remote σ} {s : Scan} {w : σ} (hphase : s.phase = .reading)
    {exhausted : Bool} (hpull : (pull r s.batchSize w).value = .ok ([], exhausted)) :
    (fetch r s w).value = (.ok none, s) := by
  rw [fetch, hphase]
  simp only [Exec.bind_apply, hpull]
  rfl

/-- What is made of fetched rows. -/
theorem fetch_of_pull {r : Remote σ} {s : Scan} {w : σ} (hphase : s.phase = .reading)
    {rows : List Row} {exhausted : Bool}
    (hpull : (pull r s.batchSize w).value = .ok (rows, exhausted)) (hrows : rows ≠ []) :
    (∃ e, fault? s.schema rows = some e ∧ (fetch r s w).value.1 = .error (.schema e)) ∨
      ∃ b, fault? s.schema rows = none ∧ b.Holds s.schema rows ∧
        (fetch r s w).value = (.ok (some b), s.account b exhausted) ∧
        (fetch r s w).source = (pull r s.batchSize w).source := by
  rw [fetch, hphase]
  simp only [Exec.bind_apply, hpull, List.isEmpty_iff, if_neg hrows]
  cases hfault : fault? s.schema rows with
  | some e =>
    rw [ofRows_of_fault hfault]
    exact .inl ⟨e, rfl, rfl⟩
  | none =>
    obtain ⟨b, hb, hholds⟩ := exists_ofRows hfault
    rw [hb]
    exact .inr ⟨b, rfl, hholds, rfl, rfl⟩

/-- What fetching makes of the first chunk of the rows ahead. -/
theorem fetch_of_ahead {r : Remote σ} {s : Scan} {w : σ} {rows : List Row}
    {ending : Option RemoteError} (hsize : 0 < s.batchSize) (h : Ahead r s w rows ending) :
    (∃ e, chunkFault? s.schema s.batchSize rows ending 0 = some e ∧
      (fetch r s w).value.1 = .error e) ∨
      (rows = [] ∧ ending = none ∧ (fetch r s w).value.1 = .ok none) ∨
      ∃ b exhausted, chunkFault? s.schema s.batchSize rows ending 0 = none ∧ rows ≠ [] ∧
        b.Holds s.schema (rows.take s.batchSize) ∧
        (fetch r s w).value = (.ok (some b), s.account b exhausted) ∧
        Ahead r (s.account b exhausted) (fetch r s w).source (rows.drop s.batchSize) ending := by
  rw [chunkFault?, chunk_zero]
  rcases h with ⟨hphase, hfeeds⟩ | ⟨hphase, rfl, rfl⟩
  · rcases Nat.lt_or_ge rows.length s.batchSize with hlt | hle
    · -- The end of the rows is met within this chunk.
      rw [List.take_of_length_le (Nat.le_of_lt hlt), List.drop_of_length_le (Nat.le_of_lt hlt),
        if_pos hlt]
      have hpull := pull_of_lt hfeeds hlt
      cases ending with
      | some e => exact .inl ⟨.fetchFailed e, rfl, by rw [fetch_of_error hphase hpull]⟩
      | none =>
        by_cases hrows : rows = []
        · subst hrows
          exact .inr (.inl ⟨rfl, rfl, by rw [fetch_of_nil hphase hpull]⟩)
        · rcases fetch_of_pull hphase hpull hrows with
            ⟨e, hfault, hvalue⟩ | ⟨b, hfault, hholds, hvalue, hsource⟩
          · exact .inl ⟨.schema e, by rw [hfault]; rfl, hvalue⟩
          · exact .inr (.inr ⟨b, true, by rw [hfault]; rfl, hrows, hholds, hvalue,
              .inr ⟨rfl, rfl, rfl⟩⟩)
    · obtain ⟨hpull, hrest⟩ := pull_of_le hfeeds hle
      have hlength : (rows.take s.batchSize).length = s.batchSize := List.length_take_of_le hle
      have hrows : rows.take s.batchSize ≠ [] := List.ne_nil_of_length_pos (by omega)
      rw [if_neg (by omega)]
      rcases fetch_of_pull hphase hpull hrows with
        ⟨e, hfault, hvalue⟩ | ⟨b, hfault, hholds, hvalue, hsource⟩
      · exact .inl ⟨.schema e, by rw [hfault]; rfl, hvalue⟩
      · refine .inr (.inr ⟨b, false, by rw [hfault]; rfl, ?_, hholds, hvalue, .inl ⟨rfl, ?_⟩⟩)
        · rintro rfl
          exact hrows List.take_nil
        · rw [hsource]
          exact hrest
  · refine .inr (.inl ⟨rfl, rfl, ?_⟩)
    rw [fetch, hphase]
    rfl

/-- What a call of `next` makes of the first chunk of the rows ahead. -/
theorem next_of_ahead {r : Remote σ} {s : Scan} {w : σ} {rows : List Row}
    {ending : Option RemoteError} (hsize : 0 < s.batchSize) (h : Ahead r s w rows ending) :
    (∃ e, chunkFault? s.schema s.batchSize rows ending 0 = some e ∧
      (next r s w).value.1 = some (.error e) ∧ (next r s w).value.2.phase = .closed) ∨
      (rows = [] ∧ ending = none ∧ (next r s w).value.1 = none ∧
        (next r s w).value.2.phase = .closed) ∨
      ∃ b exhausted, chunkFault? s.schema s.batchSize rows ending 0 = none ∧ rows ≠ [] ∧
        b.Holds s.schema (rows.take s.batchSize) ∧
        (next r s w).value = (some (.ok b), s.account b exhausted) ∧
        Ahead r (s.account b exhausted) (next r s w).source (rows.drop s.batchSize) ending := by
  have hphase : s.phase ≠ .closed := by
    rcases h with ⟨h, -⟩ | ⟨h, -⟩ <;> rw [h] <;> exact Phase.noConfusion
  have hadvances := advances r s w
  have hfetched := fetch_of_ahead hsize h
  generalize next r s w = ran at hadvances ⊢
  cases hadvances with
  | idle hclosed => exact absurd hclosed hphase
  | batch _ hfetch =>
    rw [hfetch] at hfetched
    rcases hfetched with ⟨e, -, hvalue⟩ | ⟨-, -, hvalue⟩ |
      ⟨b, exhausted, hfault, hrows, hholds, hvalue, hahead⟩
    · cases hvalue
    · cases hvalue
    · cases hvalue
      exact .inr (.inr ⟨_, exhausted, hfault, hrows, hholds, rfl, hahead⟩)
  | ended _ hfetch =>
    rw [hfetch] at hfetched
    rcases hfetched with ⟨e, -, hvalue⟩ | ⟨hrows, hending, -⟩ | ⟨b, exhausted, -, -, -, hvalue, -⟩
    · cases hvalue
    · exact .inr (.inl ⟨hrows, hending, rfl, rfl⟩)
    · cases hvalue
  | failed _ hfetch =>
    rw [hfetch] at hfetched
    rcases hfetched with ⟨e, hfault, hvalue⟩ | ⟨-, -, hvalue⟩ | ⟨b, exhausted, -, -, -, hvalue, -⟩
    · cases hvalue
      exact .inl ⟨_, hfault, rfl, rfl⟩
    · cases hvalue
    · cases hvalue

/-- Where no rows are ahead, the answer is none for ever. -/
theorem delivers_none (schema : List Field) (size n : Nat) :
    Delivers schema size [] none n none := by
  have hchunk : ∀ k, chunk size [] k = [] := fun k => by rw [chunk, List.drop_nil, List.take_nil]
  refine .exhausted (fun k _ => ?_) (hchunk n)
  rw [chunkFault?, hchunk, ite_self]
  rfl

/-- Each call of `next` gives the answer that it has to give. -/
theorem delivers_answer {r : Remote σ} {s : Scan} {w : σ} {rows : List Row}
    {ending : Option RemoteError} (hsize : 0 < s.batchSize) (h : Ahead r s w rows ending)
    (n : Nat) : Delivers s.schema s.batchSize rows ending n (answer r n s w) := by
  induction n generalizing s w rows with
  | zero =>
    change Delivers _ _ _ _ 0 (next r s w).value.1
    rcases next_of_ahead hsize h with
      ⟨e, hfault, hvalue, -⟩ | ⟨rfl, rfl, hvalue, -⟩ | ⟨b, exhausted, hfault, hrows, hholds,
        hvalue, -⟩
    · rw [hvalue]
      exact .failure (fun k hk => absurd hk (Nat.not_lt_zero k)) hfault
    · rw [hvalue]
      exact delivers_none _ _ 0
    · rw [hvalue]
      refine .batch (fun k hk => Nat.le_zero.1 hk ▸ hfault) ?_ ((chunk_zero _ _).symm ▸ hholds)
      rw [chunk_zero]
      exact fun htake => hrows ((List.take_eq_nil_iff.1 htake).resolve_left hsize.ne')
  | succ n ih =>
    change Delivers _ _ _ _ (n + 1) (answer r n (next r s w).value.2 (next r s w).source)
    rcases next_of_ahead hsize h with
      ⟨e, hfault, -, hclosed⟩ | ⟨rfl, rfl, -, hclosed⟩ | ⟨b, exhausted, hfault, -, -, hvalue,
        hahead⟩
    · rw [answer_closed r hclosed]
      exact .failed (Nat.succ_pos n) hfault
    · rw [answer_closed r hclosed]
      exact delivers_none _ _ _
    · have hsize' : 0 < (s.account b exhausted).batchSize := hsize
      rw [hvalue]
      exact .succ hfault (ih hsize' hahead)

/-- **A scan delivers the rows of its result.**  Its batches hold one row where a column is of large
objects, and 256 otherwise.  Each call of `next` hands out the next chunk of the rows, conformed to
the schema, up to the first chunk with an error; that chunk is answered with its error alone, and
then, as after the last chunk, there is none for ever.  At any time the scan has counted the rows and
the payload of the batches handed out, where these have 64 bits. -/
theorem next_delivers (r : Remote σ) {d : Dialect} {options : ConnectOptions} {q : Request} {w : σ}
    {s : Scan} (hstart : (start r d options q w).value = .ok s) {rows : List Row}
    {ending : Option RemoteError}
    (hfeeds : Feeds r (start r d options q w).source rows ending) :
    let opened := (start r d options q w).source
    (∃ columns, (acquire r options s.statement w).value = .ok columns ∧
      schemaOf columns = .ok s.schema ∧
      s.batchSize = if ∃ c ∈ columns, c.type.isLargeObject = true then 1 else 256) ∧
    ∀ n, Delivers s.schema s.batchSize rows ending n (answer r n s opened) ∧
      (rowTotal (yielded r n s opened) < twoPow 64 →
        (advance r n s opened).1.rowsRead = rowTotal (yielded r n s opened)) ∧
      (byteTotal (yielded r n s opened) < twoPow 64 →
        (advance r n s opened).1.bytesRead = byteTotal (yielded r n s opened)) := by
  intro opened
  obtain ⟨columns, schema, hcolumns, hschema, hs⟩ := opened_of_start hstart
  have hsize : s.batchSize = if ∃ c ∈ columns, c.type.isLargeObject = true then 1 else 256 := by
    rw [hs]
    simp only [rowsPerBatch, List.any_eq_true]
  refine ⟨⟨columns, hcolumns, by rw [hs]; exact hschema, hsize⟩, fun n => ⟨?_, ?_⟩⟩
  · refine delivers_answer ?_ (.inl ⟨phase_of_start hstart, hfeeds⟩) n
    rw [hsize]
    split <;> decide
  · have hcounted := counted_advance r n opened (counted_of_start hstart)
    rw [List.nil_append] at hcounted
    exact ⟨hcounted.rowsRead_eq, hcounted.bytesRead_eq⟩

/-- A source of large objects that is lost after two of three rows: two batches of one row each are
delivered before the error. -/
theorem next_delivers_lost :
    let script : Script :=
      { columns := [⟨"note", .clob, 0, 0, true⟩]
        rows := #[[.text "a"], [.text "bc"], [.text "d"]]
        connectFailure := none
        statementFailure := none
        executeFailure := none
        fetchFailure := some (2, .fetch "lost")
        closeFailure := fun _ => none
        bornClosed := []
        autoClose := false }
    let opened := start script.remote .generic (.ofUrl "url") ⟨"t", ["note"], [], []⟩ .start
    let rows : List Row := [[.text "a"], [.text "bc"]]
    ∃ s, opened.value = .ok s ∧ Feeds script.remote opened.source rows (some (.fetch "lost")) ∧
      (∀ n, Delivers s.schema 1 rows (some (.fetch "lost")) n
        (answer script.remote n s opened.source)) ∧
      (advance script.remote 4 s opened.source).1.rowsRead = 2 ∧
      (advance script.remote 4 s opened.source).1.bytesRead = 3 := by
  intro script opened rows
  obtain ⟨s, hstart, hsize, hrows, hbytes⟩ : ∃ s, opened.value = .ok s ∧ s.batchSize = 1 ∧
      rowTotal (yielded script.remote 4 s opened.source) = 2 ∧
      byteTotal (yielded script.remote 4 s opened.source) = 3 :=
    ⟨_, rfl, rfl, by decide +kernel, by decide +kernel⟩
  have hfeeds : Feeds script.remote opened.source rows (some (.fetch "lost")) :=
    feeds_script script .start (Nat.zero_le _)
  have hdelivers := (next_delivers script.remote hstart hfeeds).2
  obtain ⟨-, hrowsRead, hbytesRead⟩ := hdelivers 4
  rw [hrows] at hrowsRead
  rw [hbytes] at hbytesRead
  refine ⟨s, hstart, hfeeds, fun n => ?_, hrowsRead (by decide), hbytesRead (by decide)⟩
  have hanswer := (hdelivers n).1
  rw [hsize] at hanswer
  exact hanswer

end ExternalTable.Scan
