import Mathlib.Data.List.Pairwise
import ExternalTable.Proofs.Delivery
import ExternalTable.Proofs.Opening

/-!
# Pulling rows

A scan asks its source for a row only where a batch is wanted of it, and for no row more once the
source has said that there is none.

* `rowAnswers`: what a source answers to the calls for a row;
* `Pulled`: everything that pulling the rows of a batch can come to;
* `rowAnswers_next`, `reading_of_next`: the calls of `next`, and when there may be more;
* `IsLazy`, `isLazy_session`: the calls of a whole session;
* `count_session_replicate`: the calls of a scan that is read to its end;
* `rows_pulled_lazily`: the main statement.
-/

namespace ExternalTable.Scan

variable {σ : Type}

/-! ### Calls for rows -/

/-- What a source answers to a call for a row. -/
abbrev RowAnswer : Type := Except RemoteError (Option Row)

/-- What a source answers to the calls for a row among some actions. -/
def rowAnswers (r : Remote σ) : List Action → σ → List RowAnswer
  | [], _ => []
  | .nextRow :: rest, w => (r.nextRow w).1 :: rowAnswers r rest (r.nextRow w).2
  | a :: rest, w => rowAnswers r rest (a.effect r w)

/-- What the source answers to the calls for a row in one step. -/
def Step.rowAnswers (r : Remote σ) (x : Step σ) : List RowAnswer :=
  Scan.rowAnswers r x.actions x.source

/-- The answers that give rows. -/
def given (rows : List Row) : List RowAnswer :=
  rows.map fun row => .ok (some row)

theorem rowAnswers_append (r : Remote σ) (as bs : List Action) (w : σ) :
    rowAnswers r (as ++ bs) w = rowAnswers r as w ++ rowAnswers r bs (after r as w) := by
  induction as generalizing w with
  | nil => rfl
  | cons a as ih => cases a <;> simp [rowAnswers, ih, Action.effect]

theorem length_rowAnswers (r : Remote σ) (actions : List Action) (w : σ) :
    (rowAnswers r actions w).length = actions.count .nextRow := by
  induction actions generalizing w with
  | nil => rfl
  | cons a actions ih => cases a <;> simp [rowAnswers, ih]

/-- Where no row is asked for, there is no answer. -/
theorem rowAnswers_eq_nil {r : Remote σ} {actions : List Action} (h : .nextRow ∉ actions) (w : σ) :
    rowAnswers r actions w = [] := by
  rw [← List.length_eq_zero_iff, length_rowAnswers, List.count_eq_zero]
  exact h

theorem rowAnswers_append_of_notMem {r : Remote σ} {bs : List Action} (h : .nextRow ∉ bs)
    (as : List Action) (w : σ) : rowAnswers r (as ++ bs) w = rowAnswers r as w := by
  rw [rowAnswers_append, rowAnswers_eq_nil h, List.append_nil]

theorem nextRow_notMem_closings (r : Remote σ) (hs : List Handle) (w : σ) :
    .nextRow ∉ closings r hs w := by
  intro hmem
  obtain ⟨h, -, hclose⟩ := List.mem_map.1 ((closings_sublist r hs w).subset hmem)
  cases hclose

/-! ### One batch -/

/-- Everything that pulling the rows of a batch can come to, by the answers of the source: as many
rows as are wanted, fewer of them and the end of the result, or fewer of them and an error. -/
inductive Pulled (wanted : Nat) : Except RemoteError (List Row × Bool) → List RowAnswer → Prop
  | full {rows : List Row} : rows.length = wanted → Pulled wanted (.ok (rows, false)) (given rows)
  | exhausted {rows : List Row} : rows.length < wanted →
      Pulled wanted (.ok (rows, true)) (given rows ++ [.ok none])
  | lost {rows : List Row} {e : RemoteError} : rows.length < wanted →
      Pulled wanted (.error e) (given rows ++ [.error e])

/-- A row in front of what is pulled after it. -/
theorem Pulled.cons {wanted : Nat} {value : Except RemoteError (List Row × Bool)}
    {answers : List RowAnswer} (h : Pulled wanted value answers) (row : Row) :
    Pulled (wanted + 1) (value.map fun p => (row :: p.1, p.2)) (.ok (some row) :: answers) := by
  cases h with
  | @full rows hrows => exact @Pulled.full _ (row :: rows) (congrArg (· + 1) hrows)
  | @exhausted rows hrows => exact @Pulled.exhausted _ (row :: rows) (Nat.succ_lt_succ hrows)
  | @lost rows e hrows => exact @Pulled.lost _ (row :: rows) e (Nat.succ_lt_succ hrows)

theorem pulled (r : Remote σ) (wanted : Nat) (w : σ) :
    Pulled wanted (pull r wanted w).value (rowAnswers r (pull r wanted w).actions w) := by
  induction wanted generalizing w with
  | zero => exact .full rfl
  | succ wanted ih =>
    rw [pull]
    simp only [Exec.bind_apply, Exec.call_apply]
    cases hrow : (r.nextRow w).1 with
    | error e =>
      have hlost := @Pulled.lost (wanted + 1) [] e (Nat.succ_pos wanted)
      simpa [rowAnswers, hrow, given] using hlost
    | ok row? =>
      cases row? with
      | none =>
        have hend := @Pulled.exhausted (wanted + 1) [] (Nat.succ_pos wanted)
        simpa [rowAnswers, hrow, given] using hend
      | some row =>
        have hrest := (ih (r.nextRow w).2).cons row
        simp only [Exec.bind_apply]
        cases hvalue : (pull r wanted (r.nextRow w).2).value with
        | error e => simpa [rowAnswers, hrow, hvalue, Except.map] using hrest
        | ok p => simpa [rowAnswers, hrow, hvalue, Except.map] using hrest

/-- Not more rows are asked for than are wanted. -/
theorem Pulled.length_le {wanted : Nat} {value : Except RemoteError (List Row × Bool)}
    {answers : List RowAnswer} (h : Pulled wanted value answers) : answers.length ≤ wanted := by
  cases h with
  | full hrows => simp [given, hrows]
  | exhausted hrows | lost hrows =>
    rw [List.length_append, given, List.length_map]
    exact hrows

/-- The call that meets the end of the result comes on top of those that give rows. -/
theorem Pulled.length_eq {wanted : Nat} {rows : List Row} {exhausted : Bool}
    {answers : List RowAnswer} (h : Pulled wanted (.ok (rows, exhausted)) answers) :
    answers.length = rows.length + exhausted.toNat := by
  cases h <;> simp [given]

/-- A row answers every call after which there is another. -/
def IsOrderly (answers : List RowAnswer) : Prop :=
  answers.Pairwise fun a _ => ∃ row, a = .ok (some row)

theorem isOrderly_given_append (rows : List Row) {answers : List RowAnswer}
    (h : IsOrderly answers) : IsOrderly (given rows ++ answers) := by
  have hgiven : ∀ a ∈ given rows, ∃ row, a = .ok (some row) := by
    intro a ha
    obtain ⟨row, -, rfl⟩ := List.mem_map.1 ha
    exact ⟨row, rfl⟩
  refine List.pairwise_append.2 ⟨?_, h, fun a ha _ _ => hgiven a ha⟩
  exact List.pairwise_of_forall_mem_list fun a ha _ _ => hgiven a ha

theorem isOrderly_nil : IsOrderly [] :=
  .nil

theorem isOrderly_singleton (a : RowAnswer) : IsOrderly [a] :=
  List.pairwise_singleton _ _

theorem Pulled.isOrderly {wanted : Nat} {value : Except RemoteError (List Row × Bool)}
    {answers : List RowAnswer} (h : Pulled wanted value answers) : IsOrderly answers := by
  cases h with
  | @full rows => simpa using isOrderly_given_append rows isOrderly_nil
  | @exhausted rows => exact isOrderly_given_append rows (isOrderly_singleton _)
  | @lost rows e => exact isOrderly_given_append rows (isOrderly_singleton _)

/-! ### One call of `next` -/

/-- Fetching asks for rows where the scan is reading, and nowhere else. -/
theorem rowAnswers_fetch (r : Remote σ) (s : Scan) (w : σ) :
    rowAnswers r (fetch r s w).actions w =
      if s.phase = .reading then rowAnswers r (pull r s.batchSize w).actions w else [] := by
  have hfetched := fetched r s w
  generalize fetch r s w = ran at hfetched
  cases hfetched with
  | idle hphase => rw [if_neg hphase]; rfl
  | lost hphase | exhausted hphase | unfit hphase => rw [if_pos hphase]
  | batch hphase =>
    rw [if_pos hphase]
    exact rowAnswers_append_of_notMem (by simp) _ _

theorem rowAnswers_next (r : Remote σ) (s : Scan) (w : σ) :
    rowAnswers r (next r s w).actions w =
      if s.phase = .reading then rowAnswers r (pull r s.batchSize w).actions w else [] := by
  rw [← rowAnswers_fetch]
  have hadvances := advances r s w
  generalize next r s w = ran at hadvances
  cases hadvances with
  | idle hs =>
    rw [rowAnswers_fetch, if_neg (by rw [hs]; exact Phase.noConfusion)]
    rfl
  | batch _ hfetch => rw [hfetch]
  | ended _ hfetch =>
    rw [hfetch]
    exact rowAnswers_append_of_notMem (by simp [nextRow_notMem_closings]) _ _
  | failed _ hfetch =>
    rw [hfetch]
    exact rowAnswers_append_of_notMem (by simp [nextRow_notMem_closings]) _ _

/-- A scan that is still reading after a call has got all the rows that it wanted, and has handed
out a batch. -/
theorem reading_of_next {r : Remote σ} {s : Scan} {w : σ}
    (h : (next r s w).value.2.phase = .reading) :
    s.phase = .reading ∧ (∃ rows, rowAnswers r (next r s w).actions w = given rows) ∧
      ∃ b, (next r s w).value.1 = some (.ok b) := by
  have hanswers := rowAnswers_next r s w
  have hadvances := advances r s w
  generalize next r s w = ran at h hanswers hadvances ⊢
  cases hadvances with
  | idle hs => cases h.symm.trans hs
  | ended | failed => cases h
  | batch _ hfetch =>
    cases hfetch ▸ fetched r s w with
    | @batch rows exhausted b hphase hpull =>
      obtain rfl : exhausted = false := by
        cases exhausted with
        | true => cases h
        | false => rfl
      rw [if_pos hphase] at hanswers
      have hpulled := pulled r s.batchSize w
      rw [hpull] at hpulled
      refine ⟨hphase, ?_, _, rfl⟩
      rw [hanswers]
      generalize rowAnswers r (pull r s.batchSize w).actions w = answers at hpulled
      cases hpulled
      exact ⟨rows, rfl⟩

/-- The calls of `next` are orderly, and not more than a batch has rows. -/
theorem isOrderly_next (r : Remote σ) (s : Scan) (w : σ) :
    IsOrderly (rowAnswers r (next r s w).actions w) ∧
      (next r s w).actions.count .nextRow ≤ s.batchSize := by
  have hpulled := pulled r s.batchSize w
  rw [← length_rowAnswers r _ w, rowAnswers_next]
  split
  · exact ⟨hpulled.isOrderly, hpulled.length_le⟩
  · exact ⟨isOrderly_nil, Nat.zero_le _⟩

theorem next_keeps (r : Remote σ) (s : Scan) (w : σ) :
    (next r s w).value.2.batchSize = s.batchSize ∧ (next r s w).value.2.schema = s.schema := by
  have hadvances := advances r s w
  generalize next r s w = ran at hadvances
  cases hadvances with
  | idle | ended | failed => exact ⟨rfl, rfl⟩
  | batch _ hfetch =>
    cases hfetch ▸ fetched r s w
    exact ⟨rfl, rfl⟩

/-! ### Sessions -/

theorem count_nextRow_close (r : Remote σ) (s : Scan) (w : σ) :
    (close r s w).actions.count .nextRow = 0 := by
  refine List.count_eq_zero.2 ?_
  by_cases hs : s.phase = .closed
  · rw [close_closed r hs]
    exact List.not_mem_nil
  · rw [close_apply r hs]
    exact List.not_mem_append (nextRow_notMem_closings r _ w) (by simp)

theorem count_nextRow_drop (r : Remote σ) (s : Scan) (w : σ) :
    (drop r s w).actions.count .nextRow = 0 := by
  change ((close r s w).actions ++ []).count Action.nextRow = 0
  rw [List.append_nil, count_nextRow_close]

theorem phase_close_ne (r : Remote σ) (s : Scan) (w : σ) :
    (close r s w).value.2.phase ≠ .reading := by
  by_cases hs : s.phase = .closed
  · rw [close_closed r hs, hs]
    exact Phase.noConfusion
  · rw [close_apply r hs]
    exact Phase.noConfusion

/-- A scan that is not reading any more asks for no row. -/
theorem count_nextRow_session (r : Remote σ) {s : Scan} (hs : s.phase ≠ .reading)
    (commands : List Command) (w : σ) :
    ∀ x ∈ session r commands s w, x.actions.count .nextRow = 0 := by
  induction commands generalizing s w with
  | nil => exact fun x hx => absurd hx List.not_mem_nil
  | cons command commands ih =>
    cases command with
    | next =>
      refine List.forall_mem_cons.2 ⟨?_, ih (fun h => hs (reading_of_next h).1) _⟩
      rw [← length_rowAnswers r _ w, rowAnswers_next, if_neg hs]
      rfl
    | close =>
      exact List.forall_mem_cons.2 ⟨count_nextRow_close r s w, ih (phase_close_ne r s w) _⟩
    | drop => exact List.forall_mem_singleton.2 (count_nextRow_drop r s w)

/-- Steps that ask for rows lazily: only where a batch of at most so many rows is wanted, only as
long as every call was answered with a row, and only as long as every step handed out a batch. -/
structure IsLazy (r : Remote σ) (size : Nat) (steps : List (Step σ)) : Prop where
  bounded : ∀ x ∈ steps, x.actions.count .nextRow ≤ if x.command = .next then size else 0
  orderly : IsOrderly (steps.flatMap (Step.rowAnswers r))
  ended : steps.Pairwise fun x y =>
    (∃ b, x.answer = .batch (some (.ok b))) ∨ y.actions.count .nextRow = 0

namespace IsLazy

variable {r : Remote σ} {size : Nat} {x : Step σ} {later : List (Step σ)}

theorem nil : IsLazy r size [] :=
  ⟨fun _ hx => absurd hx List.not_mem_nil, .nil, .nil⟩

/-- A step after which no row is asked for. -/
theorem cons_last (hx : x.actions.count .nextRow ≤ if x.command = .next then size else 0)
    (hanswers : IsOrderly (x.rowAnswers r)) (hlater : ∀ y ∈ later, y.actions.count .nextRow = 0) :
    IsLazy r size (x :: later) where
  bounded := by
    refine List.forall_mem_cons.2 ⟨hx, fun y hy => ?_⟩
    rw [hlater y hy]
    exact Nat.zero_le _
  orderly := by
    have hnil : later.flatMap (Step.rowAnswers r) = [] :=
      List.flatMap_eq_nil_iff.2 fun y hy =>
        rowAnswers_eq_nil (List.count_eq_zero.1 (hlater y hy)) y.source
    rw [List.flatMap_cons, hnil, List.append_nil]
    exact hanswers
  ended := by
    refine List.pairwise_cons.2 ⟨fun y hy => .inr (hlater y hy), ?_⟩
    exact List.pairwise_of_forall_mem_list fun _ _ y hy => .inr (hlater y hy)

/-- A step that does not ask for rows, and after which no row is asked for. -/
theorem cons_silent (hx : x.actions.count .nextRow = 0)
    (hlater : ∀ y ∈ later, y.actions.count .nextRow = 0) : IsLazy r size (x :: later) := by
  refine cons_last (by rw [hx]; exact Nat.zero_le _) ?_ hlater
  rw [Step.rowAnswers, rowAnswers_eq_nil (List.count_eq_zero.1 hx)]
  exact .nil

/-- A step that hands out a batch of all the rows that it was given. -/
theorem cons_batch (hx : x.actions.count .nextRow ≤ if x.command = .next then size else 0)
    {rows : List Row} (hanswers : x.rowAnswers r = given rows) {b : Batch}
    (hb : x.answer = .batch (some (.ok b))) (hlater : IsLazy r size later) :
    IsLazy r size (x :: later) where
  bounded := List.forall_mem_cons.2 ⟨hx, hlater.bounded⟩
  orderly := by
    rw [List.flatMap_cons, hanswers]
    exact isOrderly_given_append rows hlater.orderly
  ended := List.pairwise_cons.2 ⟨fun _ _ => .inl ⟨b, hb⟩, hlater.ended⟩

end IsLazy

theorem isLazy_session (r : Remote σ) (s : Scan) (commands : List Command) (w : σ) :
    IsLazy r s.batchSize (session r commands s w) := by
  induction commands generalizing s w with
  | nil => exact .nil
  | cons command commands ih =>
    cases command with
    | next =>
      obtain ⟨horderly, hcount⟩ := isOrderly_next r s w
      by_cases hphase : (next r s w).value.2.phase = .reading
      · obtain ⟨-, ⟨rows, hrows⟩, b, hb⟩ := reading_of_next hphase
        have hrest := ih (next r s w).value.2 (next r s w).source
        rw [(next_keeps r s w).1] at hrest
        exact .cons_batch hcount hrows (congrArg Answer.batch hb) hrest
      · exact .cons_last hcount horderly (count_nextRow_session r hphase _ _)
    | close =>
      exact .cons_silent (count_nextRow_close r s w)
        (count_nextRow_session r (phase_close_ne r s w) _ _)
    | drop =>
      exact .cons_silent (count_nextRow_drop r s w) fun _ hy => absurd hy List.not_mem_nil

/-! ### Opening -/

theorem Fails.nextRow_notMem {r : Remote σ} {options : ConnectOptions} {statement : Sql} {w : σ}
    {e : ScanError} {held : List Handle} {calls : List Action}
    (h : Fails r options statement w e held calls) : .nextRow ∉ calls := by
  cases h <;> simp [executing]

/-- Opening a scan asks for no row. -/
theorem count_nextRow_start (r : Remote σ) (d : Dialect) (options : ConnectOptions) (q : Request)
    (w : σ) : (start r d options q w).actions.count .nextRow = 0 := by
  refine List.count_eq_zero.2 ?_
  cases hsql : selectBound d q.table q.columns (q.filters.map String.toList) q.params with
  | error e =>
    rw [start_of_error hsql]
    exact List.not_mem_nil
  | ok statement =>
    rcases fails_or_executes r options statement w with
      ⟨e, held, calls, hfails⟩ | ⟨columns, hexecutes, hcolumns⟩
    · rw [start_of_fails hsql hfails]
      simp [hfails.nextRow_notMem, nextRow_notMem_closings]
    · obtain ⟨schema, hschema, -⟩ := schemaOf_of_isSome hcolumns
      rw [start_of_executes hsql hexecutes hschema]
      simp [executing]

/-! ### Reading to the end -/

/-- The answers of a session of calls of `next`. -/
theorem map_answer_session (r : Remote σ) (n : Nat) (s : Scan) (w : σ) :
    (session r (List.replicate n .next) s w).map Step.answer =
      (List.range n).map fun k => .batch (answer r k s w) := by
  induction n generalizing s w with
  | zero => rfl
  | succ n ih =>
    rw [List.range_succ_eq_map, List.map_cons, List.map_map]
    exact congrArg (_ :: ·) (ih _ _)

theorem fault?_eq_none_iff {schema : List Field} {rows : List Row} :
    fault? schema rows = none ↔ ∀ row ∈ rows, rowFault? schema row = none :=
  List.findSome?_eq_none_iff

theorem chunkFault?_eq_none {schema : List Field} {rows : List Row}
    (h : fault? schema rows = none) (size n : Nat) :
    chunkFault? schema size rows none n = none := by
  have hchunk : fault? schema (chunk size rows n) = none :=
    fault?_eq_none_iff.2 fun row hrow =>
      fault?_eq_none_iff.1 h row (List.mem_of_mem_drop (List.mem_of_mem_take hrow))
  rw [chunkFault?, hchunk, ite_self]
  rfl

/-- The end of a result of good rows is answered once as many calls went before as make batches of
all its rows. -/
theorem answer_eq_none_iff {r : Remote σ} {s : Scan} {w : σ} {rows : List Row}
    (hsize : 0 < s.batchSize) (h : Ahead r s w rows none) (hrows : fault? s.schema rows = none)
    (k : Nat) : answer r k s w = none ↔ rows.length ≤ k * s.batchSize := by
  have hnone := chunkFault?_eq_none hrows s.batchSize
  have hchunk : chunk s.batchSize rows k = [] ↔ rows.length ≤ k * s.batchSize := by
    rw [chunk, List.take_eq_nil_iff, List.drop_eq_nil_iff]
    exact or_iff_right hsize.ne'
  rw [← hchunk]
  have hdelivers := delivers_answer hsize h k
  generalize answer r k s w = a at hdelivers
  cases hdelivers with
  | batch _ hne => exact ⟨fun h => absurd h (Option.some_ne_none _), fun hnil => absurd hnil hne⟩
  | failure _ hfault => cases (hnone k).symm.trans hfault
  | exhausted _ hnil => exact ⟨fun _ => hnil, fun _ => rfl⟩
  | @failed j _ _ hfault => cases (hnone j).symm.trans hfault

/-- A call of `next` on a cursor that does not fail gets a batch of rows, or the rows that are left
and the end of the result. -/
theorem count_next {r : Remote σ} {s : Scan} {w : σ} {rows : List Row} (hs : s.phase = .reading)
    (hfeeds : Feeds r w rows none) :
    (next r s w).actions.count .nextRow = min s.batchSize (rows.length + 1) := by
  have hpulled := pulled r s.batchSize w
  rw [← length_rowAnswers r _ w, rowAnswers_next, if_pos hs]
  rcases Nat.lt_or_ge rows.length s.batchSize with hlt | hle
  · rw [pull_of_lt hfeeds hlt] at hpulled
    rw [hpulled.length_eq, Nat.min_eq_right hlt]
    rfl
  · rw [(pull_of_le hfeeds hle).1] at hpulled
    rw [hpulled.length_eq, List.length_take_of_le hle, Nat.min_eq_left (Nat.le_succ_of_le hle)]
    rfl

/-- The end of the result shows in the scan at the batch with the last rows. -/
theorem phase_next_of_batch {r : Remote σ} {s : Scan} {w : σ} {rows : List Row} {exhausted : Bool}
    (hpull : (pull r s.batchSize w).value = .ok (rows, exhausted)) {b : Batch}
    (hb : (next r s w).value.1 = some (.ok b)) :
    (next r s w).value.2.phase = if exhausted then .drained else .reading := by
  obtain ⟨-, rows', exhausted', hpull', -, -, hs⟩ := exists_pull_of_batch hb
  cases hpull.symm.trans hpull'
  rw [hs]
  rfl

/-- The calls for rows of so many calls of `next`: as many rows as fit in their batches, and once the
rows are used up one call more, however the batches divide the rows. -/
theorem count_session_replicate {r : Remote σ} {s : Scan} {w : σ} {rows : List Row}
    (hsize : 0 < s.batchSize) (hs : s.phase = .reading) (hfeeds : Feeds r w rows none)
    (hrows : fault? s.schema rows = none) (n : Nat) :
    ((session r (List.replicate n .next) s w).flatMap Step.actions).count .nextRow =
      min (n * s.batchSize) (rows.length + 1) := by
  induction n generalizing s w rows with
  | zero => rw [Nat.zero_mul, Nat.zero_min]; rfl
  | succ n ih =>
    -- Where the scan is not reading after the first call, only that call counts.
    have hsilent : (next r s w).value.2.phase ≠ .reading →
        ((session r (List.replicate n .next) (next r s w).value.2
          (next r s w).source).flatMap Step.actions).count .nextRow = 0 := by
      intro hphase
      refine List.count_eq_zero.2 fun hmem => ?_
      obtain ⟨x, hx, hmem⟩ := List.mem_flatMap.1 hmem
      exact List.count_eq_zero.1 (count_nextRow_session r hphase _ _ x hx) hmem
    rw [List.replicate_succ, session, List.flatMap_cons, List.count_append, Nat.succ_mul,
      count_next hs hfeeds]
    have hnone := chunkFault?_eq_none hrows s.batchSize 0
    rcases next_of_ahead hsize (.inl ⟨hs, hfeeds⟩) with
      ⟨e, hfault, -⟩ | ⟨rfl, -, -, hclosed⟩ | ⟨b, exhausted, -, -, -, hvalue, hahead⟩
    · cases hnone.symm.trans hfault
    · rw [hsilent (by rw [hclosed]; exact Phase.noConfusion), List.length_nil]
      omega
    · have hb : (next r s w).value.1 = some (.ok b) := by rw [hvalue]
      rcases Nat.lt_or_ge rows.length s.batchSize with hlt | hle
      · have hphase := phase_next_of_batch (pull_of_lt hfeeds hlt) hb
        rw [hsilent (by rw [hphase]; exact Phase.noConfusion)]
        omega
      · have hphase := phase_next_of_batch (pull_of_le hfeeds hle).1 hb
        rw [hvalue] at hphase ⊢
        rcases hahead with ⟨-, hfeeds'⟩ | ⟨hdrained, -⟩
        · have hrest : fault? s.schema (rows.drop s.batchSize) = none :=
            fault?_eq_none_iff.2 fun row hrow =>
              fault?_eq_none_iff.1 hrows row (List.mem_of_mem_drop hrow)
          have hcount := ih (s := s.account b exhausted) hsize hphase hfeeds' hrest
          rw [hcount, List.length_drop]
          change min s.batchSize _ + min (n * s.batchSize) _ = _
          omega
        · cases hphase.symm.trans hdrained

/-- Calls of `next` meet the end of a result of good rows once their batches have room for all rows
and a further batch. -/
theorem exists_answer_none_iff {r : Remote σ} {s : Scan} {w : σ} {rows : List Row}
    (hsize : 0 < s.batchSize) (h : Ahead r s w rows none) (hrows : fault? s.schema rows = none)
    (n : Nat) : (∃ x ∈ session r (List.replicate n .next) s w, x.answer = .batch none) ↔
      rows.length + s.batchSize ≤ n * s.batchSize := by
  have hanswers : (∃ x ∈ session r (List.replicate n .next) s w, x.answer = .batch none) ↔
      ∃ k < n, answer r k s w = none := by
    rw [← List.mem_map (f := Step.answer), map_answer_session]
    simp
  rw [hanswers]
  constructor
  · rintro ⟨k, hk, hnone⟩
    have hle := (answer_eq_none_iff hsize h hrows k).1 hnone
    calc rows.length + s.batchSize ≤ (k + 1) * s.batchSize := by rw [Nat.succ_mul]; omega
      _ ≤ n * s.batchSize := Nat.mul_le_mul_right _ hk
  · intro hle
    have hprod : 0 < n * s.batchSize := by omega
    obtain ⟨n, rfl⟩ := Nat.exists_eq_add_one.2 (Nat.pos_of_mul_pos_right hprod)
    refine ⟨n, Nat.lt_succ_self n, (answer_eq_none_iff hsize h hrows n).2 ?_⟩
    rw [Nat.succ_mul] at hle
    exact Nat.le_of_add_le_add_right hle

/-- **A scan asks for rows only where it wants them.**  Opening asks for none.  In every session, at
every source, rows are asked for by `next` alone, at most as many at a call as a batch holds, which
is one where a column is of large objects; a call to the source that was not answered with a row is
the last, and so is a step that did not hand out a batch, be it that the rows did not fit or that the
scan was closed.  Calls of `next` that meet the end of a result of good rows ask for one row more
than there are, and as many of these calls as there are rows, and one, meet it. -/
theorem rows_pulled_lazily (r : Remote σ) {d : Dialect} {options : ConnectOptions} {q : Request}
    {w : σ} {s : Scan} (hstart : (start r d options q w).value = .ok s) :
    let opened := (start r d options q w).source
    (start r d options q w).actions.count .nextRow = 0 ∧
      (∃ columns, (acquire r options s.statement w).value = .ok columns ∧
        s.batchSize = if ∃ c ∈ columns, c.type.isLargeObject = true then 1 else 256) ∧
      (∀ commands, IsLazy r s.batchSize (session r commands s opened)) ∧
      ∀ rows, Feeds r opened rows none → fault? s.schema rows = none → ∀ n,
        let steps := session r (List.replicate n .next) s opened
        ((∃ x ∈ steps, x.answer = .batch none) →
          (steps.flatMap Step.actions).count .nextRow = rows.length + 1) ∧
          (rows.length < n → ∃ x ∈ steps, x.answer = .batch none) := by
  intro opened
  obtain ⟨columns, schema, hcolumns, -, hs⟩ := opened_of_start hstart
  have hsize : s.batchSize = if ∃ c ∈ columns, c.type.isLargeObject = true then 1 else 256 := by
    rw [hs]
    simp only [rowsPerBatch, List.any_eq_true]
  have hpos : 0 < s.batchSize := by
    rw [hsize]
    split <;> decide
  have hphase := phase_of_start hstart
  refine ⟨count_nextRow_start r d options q w, ⟨columns, hcolumns, hsize⟩,
    fun commands => isLazy_session r s commands opened, fun rows hfeeds hrows n => ?_⟩
  intro steps
  have hend := exists_answer_none_iff hpos (.inl ⟨hphase, hfeeds⟩) hrows n
  refine ⟨fun hnone => ?_, fun hn => hend.2 ?_⟩
  · have hle := hend.1 hnone
    rw [count_session_replicate hpos hphase hfeeds hrows]
    omega
  · calc rows.length + s.batchSize ≤ rows.length * s.batchSize + s.batchSize :=
          Nat.add_le_add_right (Nat.le_mul_of_pos_right _ hpos) _
      _ = (rows.length + 1) * s.batchSize := (Nat.succ_mul _ _).symm
      _ ≤ n * s.batchSize := Nat.mul_le_mul_right _ hn

/-- A cursor over two large objects that starts over after the end of its result: four calls of `next`
ask for three rows, one by one, and do not see the first row again. -/
theorem rows_pulled_lazily_twice :
    let r : Remote Nat :=
      { connect := fun _ w => (.ok (), w)
        createStatement := fun w => (.ok (), w)
        execute := fun _ w => (.ok [⟨"note", .clob, 0, 0, true⟩], w)
        nextRow := fun w => (.ok (if w % 3 = 2 then none else some [.text "a"]), w + 1)
        close := fun _ w => (.ok (), w)
        isClosed := fun _ _ => false }
    let opened := start r .generic (.ofUrl "url") ⟨"t", ["note"], [], []⟩ 0
    let rows : List Row := [[.text "a"], [.text "a"]]
    ∃ s, opened.value = .ok s ∧ Feeds r opened.source rows none ∧ fault? s.schema rows = none ∧
      let steps := session r (List.replicate 4 .next) s opened.source
      (steps.flatMap Step.actions).count .nextRow = 3 ∧ IsLazy r 1 steps := by
  intro r opened rows
  obtain ⟨s, hstart, hsize, hschema⟩ : ∃ s, opened.value = .ok s ∧ s.batchSize = 1 ∧
      s.schema = [⟨"note", .utf8, true⟩] := ⟨_, rfl, rfl, rfl⟩
  have hrows : fault? s.schema rows = none := by
    rw [hschema]
    rfl
  have hfeeds : Feeds r opened.source rows none := .row rfl (.row rfl (.exhausted rfl))
  obtain ⟨-, -, hlazy, hcount⟩ := rows_pulled_lazily r hstart
  have hend := hcount rows hfeeds hrows 4
  rw [hsize] at hlazy
  exact ⟨s, hstart, hfeeds, hrows, hend.1 (hend.2 (by decide)), hlazy _⟩

end ExternalTable.Scan
