import ExternalTable.Proofs.Alignment

/-!
# Reading on after errors

A decoder can be pushed further entries after it refused one.  What it then holds and gives is what
a new decoder holds and gives that is pushed the other entries only: an entry that was refused might
as well be deleted, and with a sentinel that was refused its whole segment.

* `Attempt`: one entry pushed to a decoder, and what becomes of it;
* `Decoder.attempts`, `Decoder.after`: entries pushed one after the other, past every error;
* `survives`, `cleaned`: the entries that count;
* `Decoder.Pushed`: everything that a push can come to;
* `Decoder.recovers_by_deletion`: the main statement.
-/

namespace ExternalTable.NodeStream

/-! ### Pushing past errors -/

/-- One entry pushed to a decoder. -/
structure Attempt where
  decoder : Decoder
  entry : Entry

namespace Attempt

/-- The answer to the entry. -/
def answer (a : Attempt) : Except DecodeError (Option Filter) :=
  (a.decoder.push a.entry).2

/-- The decoder after the entry. -/
def next (a : Attempt) : Decoder :=
  (a.decoder.push a.entry).1

/-- Whether the entry is taken, and not refused. -/
def isTaken (a : Attempt) : Bool :=
  a.answer.isOk

/-- The filter that the entry ends, if it does. -/
def filter? (a : Attempt) : Option Filter :=
  match a.answer with
  | .ok f? => f?
  | .error _ => none

variable {a : Attempt} {f? : Option Filter} {e : DecodeError}

theorem isTaken_of_ok (h : a.answer = .ok f?) : a.isTaken = true := by
  rw [isTaken, h]
  rfl

theorem isTaken_of_error (h : a.answer = .error e) : a.isTaken = false := by
  rw [isTaken, h]
  rfl

theorem filter?_of_ok (h : a.answer = .ok f?) : a.filter? = f? := by
  rw [filter?, h]

theorem filter?_of_error (h : a.answer = .error e) : a.filter? = none := by
  rw [filter?, h]

end Attempt

/-- Entries pushed one after the other, past every error. -/
def Decoder.attempts (d : Decoder) : List Entry → List Attempt
  | [] => []
  | entry :: rest => ⟨d, entry⟩ :: (d.push entry).1.attempts rest

/-- The decoder after entries, past every error. -/
def Decoder.after (d : Decoder) : List Entry → Decoder
  | [] => d
  | entry :: rest => (d.push entry).1.after rest

/-- Whether the segment that goes on with these attempts survives: the sentinel that ends it is
taken, or there is none. -/
def survives : List Attempt → Bool
  | [] => true
  | a :: rest => if a.entry.isEnd then a.isTaken else survives rest

/-- The entries that are left when every refused one is deleted, and with every refused sentinel all
entries of its segment. -/
def cleaned : List Attempt → List Entry
  | [] => []
  | a :: rest => if a.isTaken && survives (a :: rest) then a.entry :: cleaned rest else cleaned rest

/-- The position that an error names. -/
def DecodeError.position? : DecodeError → Option Nat
  | .unknownTag position _ | .payloadMismatch position _ _ _ | .columnNameNotText position _
  | .negativePlaceholderIndex position _ | .childIndexOutOfRange position _ _
  | .arityBelowMinimum position _ _ | .emptyFilter position | .rootNotPredicate position _ =>
      some position
  | .unterminated _ => none

namespace Decoder

variable {d d' : Decoder} {entry : Entry}

/-! ### One entry -/

theorem position?_of_child {p : Int32} {e : DecodeError} (h : d.child p = .error e) :
    e.position? = some d.position := by
  by_cases hp : IsChild d.nodes.length p
  · obtain ⟨n, hn⟩ := exists_at hp
    cases h.symm.trans (child_eq_ok hn)
  · cases h.symm.trans (child_eq_error hp)
    rfl

theorem position?_of_mapM_child {positions : List Int32} {e : DecodeError}
    (h : positions.mapM d.child = .error e) : e.position? = some d.position := by
  induction positions with
  | nil => cases h
  | cons p positions ih =>
    rw [List.mapM_cons] at h
    cases hp : d.child p with
    | error e' =>
      rw [hp] at h
      cases h
      exact position?_of_child hp
    | ok n =>
      rw [hp] at h
      cases hrest : positions.mapM d.child with
      | error e' =>
        rw [hrest] at h
        cases h
        exact ih hrest
      | ok ns =>
        rw [hrest] at h
        cases h

theorem position?_of_node {tag : Tag} {e : DecodeError} (h : d.node tag entry = .error e) :
    e.position? = some d.position := by
  rw [node.eq_def] at h
  split at h
  · cases h
  · split at h
    · cases h
    · cases h
      rfl
  · cases h
  · split at h
    · cases h
      rfl
    · cases h
  · next op positions _ =>
    split at h
    · cases h
      rfl
    · cases hchildren : positions.mapM d.child with
      | error e' =>
        rw [hchildren] at h
        cases h
        exact position?_of_mapM_child hchildren
      | ok children =>
        rw [hchildren] at h
        cases h
  · cases h
    rfl

theorem position?_of_close {e : DecodeError} (h : d.close = .error e) :
    e.position? = some d.position := by
  rw [close] at h
  split at h
  · cases h
    rfl
  · split at h
    · cases h
    · cases h
      rfl

/-- Everything that a push can come to.  An entry that is no sentinel becomes one more tree, or is
refused and changes nothing but the count; a sentinel ends the segment in either case. -/
inductive Pushed (d : Decoder) (entry : Entry) : Decoder × Except DecodeError (Option Filter) → Prop
  | tree {n : Node} : entry.isEnd = false → Pushed d entry (d.hold [n], .ok none)
  | refused {e : DecodeError} : entry.isEnd = false → e.position? = some d.position →
      Pushed d entry (⟨d.nodes, d.position + 1⟩, .error e)
  | ended {f : Filter} : entry.isEnd = true → Pushed d entry (⟨[], d.position + 1⟩, .ok (some f))
  | unended {e : DecodeError} : entry.isEnd = true → e.position? = some d.position →
      Pushed d entry (⟨[], d.position + 1⟩, .error e)

theorem pushed (d : Decoder) (entry : Entry) : Pushed d entry (d.push entry) := by
  cases htag : Tag.ofText? entry.tag with
  | none =>
    have hend : entry.isEnd = false := by
      refine beq_eq_false_iff_ne.2 fun hend => ?_
      rw [hend, Tag.ofText?_text] at htag
      cases htag
    rw [push, htag]
    exact .refused hend rfl
  | some tag =>
    have htext := Tag.text_of_ofText? htag
    by_cases htagEnd : tag = .endOfFilter
    · have hend : entry.isEnd = true := by rw [Entry.isEnd, ← htext, htagEnd, beq_self_eq_true]
      rw [push, htag, htagEnd]
      cases hclose : d.close with
      | ok f => exact .ended hend
      | error e => exact .unended hend (position?_of_close hclose)
    · have hend : entry.isEnd = false := by
        rw [Entry.isEnd, ← htext, beq_eq_false_iff_ne, ne_eq, Tag.text_inj]
        exact htagEnd
      rw [push_of_tag tag htagEnd htext.symm]
      cases hnode : d.node tag entry with
      | ok n => exact .tree hend
      | error e => exact .refused hend (position?_of_node hnode)

/-- What a decoder has read before shows in errors alone. -/
theorem push_of_nodes_eq (h : d'.nodes = d.nodes) (entry : Entry) :
    (d'.push entry).1.nodes = (d.push entry).1.nodes ∧
      ∀ f?, (d'.push entry).2 = .ok f? ↔ (d.push entry).2 = .ok f? := by
  have hd : d = (⟨d.nodes, 0⟩ : Decoder).shift d.position := rfl
  have hd' : d' = (⟨d.nodes, 0⟩ : Decoder).shift d'.position := by
    rw [← h]
    rfl
  rw [hd, hd', push_shift, push_shift]
  refine ⟨rfl, fun f? => ?_⟩
  cases (push ⟨d.nodes, 0⟩ entry).2 with
  | ok g? => rfl
  | error e => exact ⟨nofun, nofun⟩

theorem position_push (d : Decoder) (entry : Entry) : (d.push entry).1.position = d.position + 1 := by
  have hpushed := pushed d entry
  generalize d.push entry = result at hpushed
  cases hpushed <;> rfl

/-- An entry other than a sentinel that is refused leaves the trees as they were. -/
theorem nodes_next {a : Attempt} (hend : a.entry.isEnd = false) (hrefused : a.isTaken = false) :
    a.next.nodes = a.decoder.nodes := by
  have hpushed := pushed a.decoder a.entry
  rw [Attempt.isTaken, Attempt.answer] at hrefused
  rw [Attempt.next]
  generalize a.decoder.push a.entry = result at hpushed hrefused ⊢
  cases hpushed with
  | tree => cases hrefused
  | refused => rfl
  | ended h => cases hend.symm.trans h
  | unended h => cases hend.symm.trans h

/-! ### Many entries -/

/-- Errors name the number of entries pushed before. -/
theorem position?_of_attempts {entries : List Entry} {i : Nat} {a : Attempt} {e : DecodeError}
    (ha : (d.attempts entries)[i]? = some a) (he : a.answer = .error e) :
    e.position? = some (d.position + i) := by
  induction entries generalizing d i with
  | nil => cases ha
  | cons entry rest ih =>
    cases i with
    | zero =>
      obtain rfl : (⟨d, entry⟩ : Attempt) = a := Option.some.inj ha
      have hpushed := pushed d entry
      rw [Attempt.answer] at he
      generalize d.push entry = result at hpushed he
      cases hpushed <;> cases he <;> assumption
    | succ i =>
      rw [ih ha, position_push]
      congr 1
      omega

/-- A decoder that takes all of some entries, and comes with them to the filters of given attempts
and to the trees of the decoder after these. -/
structure Repeats (d' : Decoder) (kept : List Entry) (tried : List Attempt) (last : Decoder) :
    Prop where
  taken : ∀ a ∈ d'.attempts kept, a.isTaken = true
  filters : (d'.attempts kept).filterMap Attempt.filter? = tried.filterMap Attempt.filter?
  nodes : (d'.after kept).nodes = last.nodes

/-- An entry that is taken by both. -/
theorem Repeats.keep {kept : List Entry} {tried : List Attempt} {last : Decoder} {f? : Option Filter}
    (hd : (⟨d, entry⟩ : Attempt).answer = .ok f?) (hd' : (⟨d', entry⟩ : Attempt).answer = .ok f?)
    (h : Repeats (d'.push entry).1 kept tried last) :
    Repeats d' (entry :: kept) (⟨d, entry⟩ :: tried) last where
  taken := List.forall_mem_cons.2 ⟨Attempt.isTaken_of_ok hd', h.taken⟩
  filters := by
    rw [attempts, List.filterMap_cons, List.filterMap_cons, h.filters, Attempt.filter?_of_ok hd,
      Attempt.filter?_of_ok hd']
  nodes := h.nodes

/-- An entry that ends no filter, and is deleted. -/
theorem Repeats.skip {kept : List Entry} {tried : List Attempt} {last : Decoder}
    (hd : (⟨d, entry⟩ : Attempt).filter? = none) (h : Repeats d' kept tried last) :
    Repeats d' kept (⟨d, entry⟩ :: tried) last where
  taken := h.taken
  filters := by rw [List.filterMap_cons, hd, h.filters]
  nodes := h.nodes

/-- A decoder that holds what survives of the trees of another reads the cleaned entries as the other
reads all of them. -/
theorem repeats_cleaned {entries : List Entry}
    (h : d'.nodes = if survives (d.attempts entries) then d.nodes else []) :
    Repeats d' (cleaned (d.attempts entries)) (d.attempts entries) (d.after entries) := by
  induction entries generalizing d d' with
  | nil => exact ⟨nofun, rfl, h⟩
  | cons entry rest ih =>
    have hpushed := pushed d entry
    have hanswer : (⟨d, entry⟩ : Attempt).answer = (d.push entry).2 := rfl
    rw [attempts, after, cleaned]
    rw [attempts, survives] at h
    generalize hpush : d.push entry = result at hpushed hanswer h ⊢
    cases hpushed with
    | tree hend =>
      simp only [hend, Bool.false_eq_true, if_false] at h
      simp only [survives, hend, Attempt.isTaken_of_ok hanswer, Bool.true_and, Bool.false_eq_true,
        if_false]
      -- The tree is held as long as its segment survives.
      cases hsurvives : survives _ with
      | true =>
        rw [hsurvives, if_pos rfl] at h
        obtain ⟨hnodes, htaken⟩ := push_of_nodes_eq h entry
        rw [hpush] at hnodes htaken
        exact .keep hanswer ((htaken _).2 rfl) (ih (by rw [hsurvives]; exact hnodes))
      | false =>
        rw [hsurvives] at h
        exact .skip (Attempt.filter?_of_ok hanswer) (ih (by rw [hsurvives]; exact h))
    | refused hend =>
      simp only [hend, Bool.false_eq_true, if_false] at h
      simp only [Attempt.isTaken_of_error hanswer, Bool.false_and, Bool.false_eq_true, if_false]
      exact .skip (Attempt.filter?_of_error hanswer) (ih h)
    | ended hend =>
      simp only [hend, Attempt.isTaken_of_ok hanswer, if_true] at h
      simp only [survives, hend, Attempt.isTaken_of_ok hanswer, Bool.and_self, if_true]
      obtain ⟨hnodes, htaken⟩ := push_of_nodes_eq h entry
      rw [hpush] at hnodes htaken
      exact .keep hanswer ((htaken _).2 rfl) (ih (by rw [hnodes, ite_self]))
    | unended hend =>
      simp only [hend, Attempt.isTaken_of_error hanswer, if_true, Bool.false_eq_true, if_false] at h
      simp only [Attempt.isTaken_of_error hanswer, Bool.false_and, Bool.false_eq_true, if_false]
      exact .skip (Attempt.filter?_of_error hanswer) (ih (by rw [h, ite_self]))

/-- **A decoder recovers from errors by deletion.**  Whatever entries it is pushed, and whatever of
them it refuses, a new decoder takes all of the cleaned entries, gives the same filters in the same
order, and ends in the same way.  An entry other than a sentinel that is refused leaves the trees as
they were, and every error names the number of all entries pushed before. -/
theorem recovers_by_deletion (entries : List Entry) :
    let tried := start.attempts entries
    ((∀ a ∈ start.attempts (cleaned tried), a.isTaken = true) ∧
      (start.attempts (cleaned tried)).filterMap Attempt.filter? =
        tried.filterMap Attempt.filter? ∧
      (start.after (cleaned tried)).finish = (start.after entries).finish) ∧
    (∀ a ∈ tried, a.entry.isEnd = false → a.isTaken = false → a.next.nodes = a.decoder.nodes) ∧
    ∀ (i : Nat) (a : Attempt) (e : DecodeError), tried[i]? = some a → a.answer = .error e →
      e.position? = some i := by
  intro tried
  have hrepeats : Repeats start (cleaned tried) tried (start.after entries) :=
    repeats_cleaned (ite_self _).symm
  refine ⟨⟨hrepeats.taken, hrepeats.filters, ?_⟩, fun a _ hend hrefused => ?_,
    fun i a e ha he => ?_⟩
  · rw [finish, finish, hrepeats.nodes]
  · exact nodes_next hend hrefused
  · rw [position?_of_attempts ha he]
    exact congrArg some (Nat.zero_add i)

/-- An entry of an unknown kind, a position that is out of range, a filter that is a column, and an
empty filter. -/
theorem recovers_by_deletion_four :
    let entries : List Entry :=
      [.column "a", ⟨"cmp.xor", .empty⟩, .operator .equal [0, 1], .operator .equal [0, 0],
        .endOfFilter, .operator .not [0], .column "b", .endOfFilter, .endOfFilter, .column "c"]
    let tried := start.attempts entries
    cleaned tried =
        [.column "a", .operator .equal [0, 0], .endOfFilter, .column "c"] ∧
      tried.map Attempt.isTaken =
        [true, false, false, true, true, false, true, false, false, true] ∧
      (start.after entries).finish = .error (.unterminated 1) ∧
      ∃ a e, tried[7]? = some a ∧ a.answer = .error e ∧ e.position? = some 7 := by
  intro entries tried
  obtain ⟨⟨-, -, hfinish⟩, -, hposition⟩ := recovers_by_deletion entries
  refine ⟨rfl, rfl, hfinish.symm, _, .rootNotPredicate 7 "column_ref", rfl, rfl, ?_⟩
  exact hposition 7 _ _ rfl rfl

end Decoder

end ExternalTable.NodeStream
