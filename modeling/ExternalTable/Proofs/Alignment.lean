import ExternalTable.Proofs.Conjunction
import ExternalTable.Proofs.Decoding
import ExternalTable.Source.Basic

/-!
# Filters of one stream

The filters of a node stream do not depend on each other.  Each is answered as if its segment were
the whole stream, and the answers come in the order of the segments.

* `DecodeError.shift`, `Decoder.shift`: an error and a decoder with more entries before them;
* `decode_append`: one stream after another;
* `decode_segments`: each segment of a stream decodes by itself;
* `Source.pushdown_aligned`: the main statement.
-/

namespace ExternalTable.NodeStream

/-- An error in a stream that stands after so many other entries. -/
def DecodeError.shift (n : Nat) : DecodeError → DecodeError
  | .unknownTag position tag => .unknownTag (n + position) tag
  | .payloadMismatch position tag expected found =>
      .payloadMismatch (n + position) tag expected found
  | .columnNameNotText position found => .columnNameNotText (n + position) found
  | .negativePlaceholderIndex position index => .negativePlaceholderIndex (n + position) index
  | .childIndexOutOfRange position index available =>
      .childIndexOutOfRange (n + position) index available
  | .arityBelowMinimum position op found => .arityBelowMinimum (n + position) op found
  | .emptyFilter position => .emptyFilter (n + position)
  | .rootNotPredicate position label => .rootNotPredicate (n + position) label
  | .unterminated pending => .unterminated pending

namespace Decoder

/-! ### Positions -/

variable (n : Nat) (d : Decoder)

/-- A decoder that has read so many more entries, none of which it holds. -/
def shift : Decoder :=
  ⟨d.nodes, n + d.position⟩

theorem child_shift (p : Int32) :
    (d.shift n).child p = (d.child p).mapError (DecodeError.shift n) := by
  rw [child, child, shift]
  split
  · rfl
  · cases d.nodes[p.toInt.toNat]? <;> rfl

theorem mapM_child_shift (positions : List Int32) :
    positions.mapM (d.shift n).child = (positions.mapM d.child).mapError (DecodeError.shift n) := by
  induction positions with
  | nil => rfl
  | cons p positions ih =>
    rw [List.mapM_cons, List.mapM_cons, child_shift, ih]
    cases d.child p with
    | error e => rfl
    | ok m => cases positions.mapM d.child <;> rfl

theorem node_shift (tag : Tag) (entry : Entry) :
    (d.shift n).node tag entry = (d.node tag entry).mapError (DecodeError.shift n) := by
  obtain ⟨text, payload⟩ := entry
  cases tag <;> cases payload <;> try rfl
  case columnRef.scalar value =>
    simp only [node]
    cases value.text? <;> rfl
  case placeholder.placeholder type index =>
    simp only [node]
    split <;> rfl
  case operator.indices op positions =>
    simp only [node, mapM_child_shift]
    split
    · rfl
    · cases positions.mapM d.child <;> rfl

theorem close_shift : (d.shift n).close = d.close.mapError (DecodeError.shift n) := by
  rw [close, close, shift]
  cases d.nodes.getLast? with
  | none => rfl
  | some root =>
    simp only
    cases Filter.ofNode root <;> rfl

theorem push_shift (entry : Entry) :
    (d.shift n).push entry =
      ((d.push entry).1.shift n, (d.push entry).2.mapError (DecodeError.shift n)) := by
  rw [push, push]
  cases Tag.ofText? entry.tag with
  | none => rfl
  | some tag =>
    cases tag with
    | endOfFilter =>
      simp only [close_shift]
      cases d.close <;> rfl
    | _ =>
      simp only [node_shift]
      cases d.node _ entry <;> rfl

/-- What stands before a stream shows in the positions of its error alone. -/
theorem run_shift (entries : List Entry) :
    (d.shift n).run entries = (d.run entries).mapError (DecodeError.shift n) := by
  induction entries generalizing d with
  | nil =>
    rw [run, run, finish, finish, shift]
    split <;> rfl
  | cons entry rest ih =>
    rw [run, run, push_shift]
    obtain ⟨d', result⟩ := d.push entry
    cases result with
    | error e => rfl
    | ok filter? =>
      cases filter? with
      | none => exact ih d'
      | some f =>
        change ((d'.shift n).run rest).map (f :: ·) = _
        rw [ih d']
        cases hrest : d'.run rest with
        | error e => simp [hrest, Except.map, Except.mapError]
        | ok fs => simp [hrest, Except.map, Except.mapError]

end Decoder

open Decoder

/-! ### One stream after another -/

variable {xs ys : List Entry} {fs : List Filter}

/-- After a complete stream a decoder holds nothing but its position. -/
theorem run_append (h : decode xs = .ok fs) (rest : List Entry) :
    start.run (xs ++ rest) = ((start.shift xs.length).run rest).map (fs ++ ·) := by
  have hxs := isWellFormed_of_decode h
  obtain ⟨d, gs, hread, -, hrun⟩ := exists_hasRead hxs.accepted
  have hnodes : d.nodes = [] := List.length_eq_zero_iff.1 (by rw [hread.length, hxs.ended]; rfl)
  have hd : d = start.shift xs.length := by
    obtain ⟨nodes, position⟩ := d
    rw [shift, start, ← hread.position, ← hnodes]
    rfl
  -- With nothing after the stream the run gives the filters of its decoding.
  have hgs : fs = gs := by
    have hend := hrun []
    rw [List.append_nil, ← decode, h, hd] at hend
    simpa [run, finish, shift, start, Except.map] using hend
  rw [hrun, hd, hgs]

/-- A stream after a complete one gives its filters after the others, or its error further on. -/
theorem decode_append (h : decode xs = .ok fs) (ys : List Entry) :
    decode (xs ++ ys) =
      match decode ys with
      | .ok gs => .ok (fs ++ gs)
      | .error e => .error (e.shift xs.length) := by
  rw [decode, run_append h, run_shift, decode]
  cases start.run ys <;> rfl

/-! ### Segments -/

/-- It does not matter what a sentinel carries. -/
theorem decode_concat_end {segment : List Entry} {entry : Entry} (h : AllAccepted segment)
    (hend : entry.isEnd = true) :
    decode (segment ++ [entry]) = decode (segment ++ [.endOfFilter]) := by
  obtain ⟨d, fs, -, -, hrun⟩ := exists_hasRead h
  obtain ⟨text, payload⟩ := entry
  obtain rfl : text = Tag.endOfFilter.text := eq_of_beq hend
  have hsame : d.run [⟨Tag.endOfFilter.text, payload⟩] = d.run [.endOfFilter] := by
    rw [run, run, push_end, Entry.endOfFilter, push_end]
  rw [decode, decode, hrun, hrun, hsame]

theorem segments_cons {segment rest : List Entry} {entry : Entry}
    (h : ∀ x ∈ segment, x.isEnd = false) (hend : entry.isEnd = true) :
    segments (segment ++ entry :: rest) = segment :: segments rest := by
  rw [segments, List.splitOnP_append_cons _ _ hend, List.splitOnP_eq_singleton h,
    List.singleton_append, List.dropLast_cons_of_ne_nil (List.splitOnP_ne_nil _ _), segments]

theorem segments_of_forall (h : ∀ x ∈ xs, x.isEnd = false) : segments xs = [] := by
  rw [segments, List.splitOnP_eq_singleton h]
  rfl

/-- There are as many segments as sentinels. -/
theorem length_segments (xs : List Entry) : (segments xs).length = xs.countP Entry.isEnd := by
  induction xs using List.reverseRecOn with
  | nil => rfl
  | append_singleton xs entry ih =>
    rw [List.countP_append]
    cases hend : entry.isEnd with
    | true => rw [segments_concat_end hend, List.length_append, ih]; simp [hend]
    | false => rw [segments_concat hend, ih]; simp [hend]

/-- The segments of a complete stream, each decoded by itself, give its filters in order. -/
theorem decode_segments (h : decode xs = .ok fs) :
    List.Forall₂ (fun segment f => decode (segment ++ [.endOfFilter]) = .ok [f])
      (segments xs) fs := by
  have hxs := isWellFormed_of_decode h
  -- The first segment is a stream by itself, and the rest is a shorter one.
  induction hlength : xs.length using Nat.strongRecOn generalizing xs fs with
  | ind length ih =>
    cases hfirst : xs.find? Entry.isEnd with
    | none =>
      have hnone : ∀ x ∈ xs, x.isEnd = false := by simpa using List.find?_eq_none.1 hfirst
      obtain ⟨gs, hgs, hmeans⟩ := exists_decode hxs
      rw [segments_of_forall hnone] at hmeans ⊢
      obtain rfl : gs = fs := Except.ok.inj (hgs.symm.trans h)
      rw [List.forall₂_nil_left_iff.1 hmeans]
      exact .nil
    | some entry =>
      obtain ⟨hend, segment, rest, rfl, hsegment⟩ := List.find?_eq_some_iff_append.1 hfirst
      have hsegment : ∀ x ∈ segment, x.isEnd = false := by simpa using hsegment
      rw [← List.singleton_append, ← List.append_assoc] at h hxs
      have haccepted : AllAccepted (segment ++ [entry]) := hxs.accepted.of_append
      obtain ⟨gs, hgs, hmeans⟩ :=
        exists_decode ⟨haccepted, pending_concat_end hend segment⟩
      rw [segments_cons hsegment hend, segments_of_forall (List.forall_mem_nil _)] at hmeans
      obtain ⟨f, _, -, hnil, rfl⟩ := List.forall₂_cons_left_iff.1 hmeans
      rw [List.forall₂_nil_left_iff.1 hnil] at hgs
      rw [decode_append hgs] at h
      rw [segments_cons hsegment hend]
      cases hrest : decode rest with
      | error e =>
        rw [hrest] at h
        cases h
      | ok gs =>
        rw [hrest] at h
        cases h
        refine .cons ?_ (ih rest.length ?_ hrest (isWellFormed_of_decode hrest) rfl)
        · rw [← decode_concat_end haccepted.of_append hend, hgs]
        · rw [← hlength, List.length_append, List.length_cons]
          omega

end ExternalTable.NodeStream

namespace ExternalTable

open Metrics NodeStream

/-- An accepted filter has a fragment that is not empty. -/
theorem answer_eq_nil_iff (d : Dialect) (f : Filter) :
    (Fragment.pushdown d f).answer = [] ↔ (Fragment.pushdown d f).outcome ≠ .accepted := by
  cases h : Fragment.pushdown d f with
  | declined obstacle => simp [Fragment.Pushdown.answer, Fragment.Pushdown.fragment?,
      Fragment.Pushdown.outcome]
  | failed e => simp [Fragment.Pushdown.answer, Fragment.Pushdown.fragment?,
      Fragment.Pushdown.outcome]
  | accepted text =>
    obtain ⟨htakes, os, hos, rfl⟩ :=
      Fragment.sql_predicate_iff.1 (Fragment.pushdown_eq_accepted_iff.1 h)
    have hblank := Fragment.isBlank_assemble (hos.length_eq ▸ htakes)
    have hne : Fragment.assemble f.operator os ≠ [] := by
      intro hnil
      rw [hnil] at hblank
      cases hblank
    simp [Fragment.Pushdown.answer, Fragment.Pushdown.fragment?, Fragment.Pushdown.outcome, hne]

namespace Source

/-- What a segment is answered that is read by itself. -/
def reply? (d : Dialect) (segment : List Entry) : Option Fragment.Pushdown :=
  match decode (segment ++ [.endOfFilter]) with
  | .ok [f] => some (Fragment.pushdown d f)
  | _ => none

/-- The events that answering a stream records. -/
def recorded (s : Source) (entries : List Entry) : List Event :=
  match s.pushdown entries with
  | .ok logged => logged.events
  | .error _ => []

theorem map_reply? (d : Dialect) {segments : List (List Entry)} {fs : List Filter}
    (h : List.Forall₂ (fun segment f => decode (segment ++ [.endOfFilter]) = .ok [f]) segments fs) :
    segments.map (reply? d) = fs.map fun f => some (Fragment.pushdown d f) := by
  induction h with
  | nil => rfl
  | cons hf _ ih => rw [List.map_cons, List.map_cons, ih, reply?, hf]

theorem pushdown_of_decode (s : Source) {entries : List Entry} {fs : List Filter}
    (h : decode entries = .ok fs) :
    s.pushdown entries =
      .ok ⟨(fs.map (Fragment.pushdown s.plugin.dialect)).map Fragment.Pushdown.answer,
        (fs.map (Fragment.pushdown s.plugin.dialect)).map fun p => .pushdown p.outcome⟩ := by
  rw [pushdown, h]
  rfl

/-- **The filters of one stream are answered independently and in order.**  A stream after a complete
one decodes as it does by itself, and only the position of its error is counted from the start of the
whole.  So a well-formed stream has one answer for each sentinel, and the answer at some place is
what the segment at this place is answered by itself, by the dialect alone; it is empty exactly where
the filter is not accepted, and the outcome of each filter is recorded once, in order.  A malformed
stream has an error for its answer, and nothing is recorded. -/
theorem pushdown_aligned :
    (∀ xs ys fs, decode xs = .ok fs →
      decode (xs ++ ys) =
        match decode ys with
        | .ok gs => .ok (fs ++ gs)
        | .error e => .error (e.shift xs.length)) ∧
      ∀ (s : Source) (entries : List Entry),
        (IsWellFormed entries → ∃ replies : List Fragment.Pushdown,
          (segments entries).map (reply? s.plugin.dialect) = replies.map some ∧
            replies.length = entries.countP Entry.isEnd ∧
            s.pushdown entries = .ok ⟨replies.map Fragment.Pushdown.answer,
              replies.map fun p => .pushdown p.outcome⟩ ∧
            (∀ p ∈ replies, p.answer = [] ↔ p.outcome ≠ .accepted) ∧
            s.recorded entries = replies.map fun p => .pushdown p.outcome) ∧
          (¬ IsWellFormed entries →
            (∃ e, s.pushdown entries = .error (.decode e)) ∧ s.recorded entries = []) := by
  refine ⟨fun xs ys fs h => decode_append h ys, fun s entries => ⟨fun h => ?_, fun h => ?_⟩⟩
  · obtain ⟨fs, hfs, -⟩ := exists_decode h
    have hsegments := decode_segments hfs
    have hpushdown := s.pushdown_of_decode hfs
    refine ⟨fs.map (Fragment.pushdown s.plugin.dialect), ?_, ?_, hpushdown, ?_, ?_⟩
    · rw [map_reply? _ hsegments, List.map_map]
      rfl
    · rw [List.length_map, ← hsegments.length_eq, length_segments]
    · intro p hp
      obtain ⟨f, -, rfl⟩ := List.mem_map.1 hp
      exact answer_eq_nil_iff _ f
    · rw [recorded, hpushdown]
  · cases hdecode : decode entries with
    | ok fs => exact absurd (isWellFormed_of_decode hdecode) h
    | error e =>
      have hpushdown : s.pushdown entries = .error (.decode e) := by rw [pushdown, hdecode]
      exact ⟨⟨e, hpushdown⟩, by rw [recorded, hpushdown]⟩

/-- Of two filters the second has no spelling, and its answer keeps its place.  A third that refers to
a node of the filters before it is an error, at its place in the whole stream. -/
theorem pushdown_aligned_declined :
    let s : Source := ⟨.jdbc, ⟨"url", "user", none, "t"⟩⟩
    let xs : List Entry :=
      [.column "a", .constant (.int 1), .operator .equal [0, 1], .endOfFilter,
        .column "b c", .constant (.int 1), .operator .equal [0, 1], .endOfFilter]
    let ys : List Entry := [.operator .not [0], .endOfFilter]
    decode (xs ++ ys) = .error (.childIndexOutOfRange 8 0 0) ∧ IsWellFormed xs ∧
      s.recorded (xs ++ ys) = [] ∧
      ∃ logged, s.pushdown xs = .ok logged ∧ logged.value = ["a=1".toList, []] ∧
        logged.events = [.pushdown .accepted, .pushdown .declined] ∧
        logged.value.length = xs.countP Entry.isEnd := by
  intro s xs ys
  obtain ⟨fs, hfs⟩ : ∃ fs, decode xs = .ok fs := ⟨_, rfl⟩
  have hys : decode ys = .error (.childIndexOutOfRange 0 0 0) := rfl
  have herror : decode (xs ++ ys) = .error (.childIndexOutOfRange 8 0 0) := by
    rw [pushdown_aligned.1 xs ys fs hfs, hys]
    rfl
  have hxs : IsWellFormed xs := isWellFormed_of_decode hfs
  have hmalformed : ¬ IsWellFormed (xs ++ ys) := fun h => by
    obtain ⟨gs, hgs, -⟩ := exists_decode h
    cases herror.symm.trans hgs
  obtain ⟨replies, -, hlength, hpushdown, -⟩ := (pushdown_aligned.2 s xs).1 hxs
  have hvalue : s.pushdown xs =
      .ok ⟨["a=1".toList, []], [.pushdown .accepted, .pushdown .declined]⟩ := rfl
  refine ⟨herror, hxs, ((pushdown_aligned.2 s _).2 hmalformed).2, _, hvalue, rfl, rfl, ?_⟩
  obtain ⟨hreplies, -⟩ := Logged.mk.inj (Except.ok.inj (hvalue.symm.trans hpushdown))
  rw [hreplies, List.length_map, hlength]

end Source

end ExternalTable
