import ExternalTable.Proofs.WellFormed

/-!
# Decoding a stream

The machine that decodes a stream accepts the well-formed streams and gives the filters that their
segments mean.  Of any other stream it gives the earliest offence.

* `Means`: the filter of a segment;
* `Decoder.HasRead`: what a decoder holds after a stream in which no entry offends;
* `exists_hasRead`: such a stream is read to its end;
* `allAccepted_or_firstOffence`: of any other there is an earliest offence;
* `decode_spec`: what becomes of every stream.
-/

namespace ExternalTable.NodeStream

/-- A segment means the filter whose tree is the one of its last entry. -/
def Means (segment : List Entry) (f : Filter) : Prop :=
  ∀ n, Denotes segment (segment.length - 1) n ↔ n = f.root

namespace Decoder

variable {d : Decoder} {entries : List Entry} {entry : Entry}

/-- A decoder after entries of given trees. -/
def hold (d : Decoder) (ns : List Node) : Decoder :=
  ⟨d.nodes ++ ns, d.position + ns.length⟩

@[simp] theorem nodes_hold (ns : List Node) : (d.hold ns).nodes = d.nodes ++ ns := rfl

@[simp] theorem position_hold (ns : List Node) :
    (d.hold ns).position = d.position + ns.length := rfl

theorem hold_nil : d.hold [] = d := by
  rw [hold, List.append_nil, List.length_nil, Nat.add_zero]

theorem hold_hold (ms ns : List Node) : (d.hold ms).hold ns = d.hold (ms ++ ns) := by
  rw [hold, hold, hold, List.append_assoc, List.length_append, Nat.add_assoc]

/-- A decoder has read a stream: it holds the trees of what follows the last sentinel. -/
structure HasRead (d : Decoder) (entries : List Entry) : Prop where
  position : d.position = entries.length
  length : d.nodes.length = (pending entries).length
  denotes {i : Nat} {n : Node} : d.nodes[i]? = some n → Denotes (pending entries) i n

theorem hasRead_start : start.HasRead [] :=
  ⟨rfl, rfl, nofun⟩

/-- A tree for an entry that is no sentinel is one more tree to hold. -/
theorem HasRead.concat (h : d.HasRead entries) (hend : entry.isEnd = false) {n : Node}
    (hn : Denotes (pending entries ++ [entry]) (pending entries).length n) :
    (d.hold [n]).HasRead (entries ++ [entry]) where
  position := by
    rw [position_hold, h.position, List.length_append]
    rfl
  length := by
    rw [nodes_hold, pending_concat hend, List.length_append, List.length_append, h.length]
    rfl
  denotes {i m} hm := by
    rw [nodes_hold] at hm
    rw [pending_concat hend]
    rcases Nat.lt_or_ge i d.nodes.length with hlt | hle
    · exact (h.denotes (by rwa [List.getElem?_append_left hlt] at hm)).append _
    · obtain ⟨rfl, hi⟩ : n = m ∧ i = (pending entries).length := by
        rw [List.getElem?_append_right hle, List.getElem?_singleton] at hm
        have := h.length
        grind
      exact hi ▸ hn

/-- After a sentinel there is no tree to hold. -/
theorem HasRead.concat_end (h : d.HasRead entries) (hend : entry.isEnd = true) :
    HasRead ⟨[], d.position + 1⟩ (entries ++ [entry]) where
  position := by rw [h.position, List.length_append, List.length_singleton]
  length := (congrArg List.length (pending_concat_end hend entries)).symm
  denotes := nofun

/-- The last pending entry has a tree, which the decoder holds. -/
theorem HasRead.exists_root (h : d.HasRead entries) (hne : pending entries ≠ []) :
    ∃ n, d.nodes.getLast? = some n ∧
      Denotes (pending entries) ((pending entries).length - 1) n := by
  have hpos : d.nodes ≠ [] := by
    rwa [← List.length_pos_iff, h.length, List.length_pos_iff]
  have hlast := List.getLast?_eq_some_getLast hpos
  refine ⟨_, hlast, ?_⟩
  rw [List.getLast?_eq_getElem?, h.length] at hlast
  exact h.denotes hlast

/-- The last pending entry is an operator whose tree is a filter, or one with another tree of which
messages know the label. -/
theorem HasRead.root_cases (h : d.HasRead entries) {last : Entry}
    (hlast : (pending entries).getLast? = some last) :
    ∃ n, d.nodes.getLast? = some n ∧ Denotes (pending entries) ((pending entries).length - 1) n ∧
      ((∃ op : Operator, last.tag = op.tag ∧ ∃ f, Filter.ofNode n = .ok f) ∨
        ∃ (tag : Tag) (label : String), last.tag = tag.text ∧ (tag, label) ∈ leafLabels ∧
          Filter.ofNode n = .error ⟨label⟩) := by
  obtain ⟨n, hn, hdenotes⟩ := h.exists_root (by rintro hnil; simp [hnil] at hlast)
  obtain ⟨entry, hentry, hcases⟩ := hdenotes.ofNode_cases
  rw [← List.getLast?_eq_getElem?, hlast, Option.some.injEq] at hentry
  exact ⟨n, hn, hdenotes, hentry ▸ hcases⟩

/-! ### Children -/

/-- The tree at a position. -/
def At (nodes : List Node) (p : Int32) (n : Node) : Prop :=
  0 ≤ p.toInt ∧ nodes[p.toInt.toNat]? = some n

theorem exists_at {nodes : List Node} {p : Int32} (h : IsChild nodes.length p) :
    ∃ n, At nodes p n := by
  have hlt : p.toInt.toNat < nodes.length := by
    have := h.1
    have := h.2
    omega
  exact ⟨_, h.1, List.getElem?_eq_getElem hlt⟩

theorem child_eq_ok {p : Int32} {n : Node} (h : At d.nodes p n) : d.child p = .ok n := by
  rw [child, if_neg (by rw [Int32.lt_iff_toInt_lt]; exact Int.not_lt.2 h.1), h.2]

theorem child_eq_error {p : Int32} (h : ¬ IsChild d.nodes.length p) :
    d.child p = .error (.childIndexOutOfRange d.position p d.nodes.length) := by
  rw [child]
  split
  · rfl
  · rename_i hneg
    have : ¬ p.toInt < 0 := by rwa [Int32.lt_iff_toInt_lt] at hneg
    have : ¬ (0 ≤ p.toInt ∧ p.toInt < d.nodes.length) := h
    rw [List.getElem?_eq_none (by omega)]

theorem exists_children {nodes : List Node} {positions : List Int32}
    (h : ∀ p ∈ positions, IsChild nodes.length p) :
    ∃ children, List.Forall₂ (At nodes) positions children := by
  induction positions with
  | nil => exact ⟨[], .nil⟩
  | cons p positions ih =>
    obtain ⟨hp, hpositions⟩ := List.forall_mem_cons.1 h
    obtain ⟨n, hn⟩ := exists_at hp
    obtain ⟨children, hchildren⟩ := ih hpositions
    exact ⟨n :: children, .cons hn hchildren⟩

theorem mapM_child {positions : List Int32} {children : List Node}
    (h : List.Forall₂ (At d.nodes) positions children) : positions.mapM d.child = .ok children := by
  induction h with
  | nil => rfl
  | cons hn _ ih => rw [List.mapM_cons, child_eq_ok hn, ih]; rfl

/-- The error of several children is that of the first which is none. -/
theorem mapM_child_of_first {before after : List Int32} {p : Int32}
    (hbefore : ∀ b ∈ before, IsChild d.nodes.length b) (hp : ¬ IsChild d.nodes.length p) :
    (before ++ p :: after).mapM d.child =
      .error (.childIndexOutOfRange d.position p d.nodes.length) := by
  obtain ⟨children, hchildren⟩ := exists_children hbefore
  rw [List.mapM_append, mapM_child hchildren, List.mapM_cons, child_eq_error hp]
  rfl

/-! ### One entry -/

theorem node_placeholder (type : DataType) (index : Int64) :
    d.node .placeholder (.placeholder type index) =
      if index < 0 then .error (.negativePlaceholderIndex d.position index)
      else .ok (.placeholder type index.toInt.toNat.toUInt64) := rfl

theorem node_operator (op : Operator) (positions : List Int32) :
    d.node (.operator op) (.operator op positions) =
      if positions.length < op.minArity then
        .error (.arityBelowMinimum d.position op positions.length)
      else (positions.mapM d.child).map (.predicate op) := rfl

theorem operator_ne_end (op : Operator) : Tag.operator op ≠ .endOfFilter :=
  nofun

theorem push_of_tag (tag : Tag) (hne : tag ≠ .endOfFilter) (htag : entry.tag = tag.text) :
    d.push entry = match d.node tag entry with
      | .ok n => (d.hold [n], .ok none)
      | .error e => (⟨d.nodes, d.position + 1⟩, .error e) := by
  rw [push, htag, Tag.ofText?_text]
  cases tag <;> first | rfl | contradiction

/-- An operator with children in the decoder is one more tree. -/
theorem push_operator {op : Operator} {positions : List Int32} {children : List Node}
    (harity : op.minArity ≤ positions.length) (h : List.Forall₂ (At d.nodes) positions children) :
    d.push (.operator op positions) =
      (d.hold [.predicate op children], .ok none) := by
  rw [push_of_tag (.operator op) (operator_ne_end op) rfl, node_operator,
    if_neg (Nat.not_lt.2 harity), mapM_child h]
  rfl

theorem push_placeholder {index : Int64} (hindex : 0 ≤ index.toInt) (type : DataType) :
    d.push (.placeholder type index) =
      (d.hold [.placeholder type index.toInt.toNat.toUInt64], .ok none) := by
  rw [push_of_tag .placeholder (by decide) rfl, node_placeholder, if_neg]
  rw [Int64.lt_iff_toInt_lt]
  exact Int.not_lt.2 hindex

theorem push_end (payload : Payload) : d.push ⟨Tag.endOfFilter.text, payload⟩ =
    (⟨[], d.position + 1⟩, d.close.map some) := by
  rw [push, Tag.ofText?_text]

/-- The tree of an entry that may follow the others. -/
theorem exists_push (h : d.HasRead entries) (haccepted : entry.Accepted (pending entries))
    (hend : entry.isEnd = false) :
    ∃ n, d.push entry = (d.hold [n], .ok none) ∧
      Denotes (pending entries ++ [entry]) (pending entries).length n := by
  have hentry : (pending entries ++ [entry])[(pending entries).length]? = some entry :=
    List.getElem?_concat_length
  cases haccepted with
  | endOfFilter => simp [Entry.isEnd] at hend
  | null payload => exact ⟨_, push_of_tag .null (by decide) rfl, .null hentry⟩
  | column name => exact ⟨_, push_of_tag .columnRef (by decide) rfl, .column hentry⟩
  | constant value => exact ⟨_, push_of_tag .constValue (by decide) rfl, .constant hentry⟩
  | @placeholder type index hindex =>
    refine ⟨_, push_placeholder hindex type, .placeholder hentry ?_⟩
    have := index.toInt_lt
    rw [Nat.toUInt64, UInt64.toNat_ofNat', Nat.mod_eq_of_lt (by omega), Int.toNat_of_nonneg hindex]
  | @operator op positions harity hpositions =>
    obtain ⟨children, hchildren⟩ := exists_children (h.length ▸ hpositions)
    exact ⟨_, push_operator harity hchildren, .operator hentry hpositions
      (hchildren.imp fun _ _ hn => (h.denotes hn.2).append _)⟩

/-- The filter that a sentinel ends after an operator. -/
theorem exists_push_end (h : d.HasRead entries) (haccepted : entry.Accepted (pending entries))
    (hend : entry.isEnd = true) :
    ∃ f, d.push entry = (⟨[], d.position + 1⟩, .ok (some f)) ∧ Means (pending entries) f := by
  cases haccepted with
  | @endOfFilter payload last op hlast hop =>
    obtain ⟨n, hn, hdenotes, hcases⟩ := h.root_cases hlast
    rcases hcases with ⟨-, -, f, hf⟩ | ⟨tag, label, htag, hlabel, -⟩
    · refine ⟨f, by rw [push_end, close, hn]; simp only [hf]; rfl, fun m => ?_⟩
      rw [Filter.root_of_ofNode hf]
      exact ⟨fun hm => hm.unique hdenotes, fun hm => hm ▸ hdenotes⟩
    · -- No operator is among the entries whose trees messages label.
      obtain rfl : Tag.operator op = tag := Tag.text_inj.1 (hop.symm.trans htag)
      simp [leafLabels] at hlabel
  | _ => simp [Entry.isEnd, Entry.column, Entry.constant, Entry.placeholder, Entry.operator_eq,
      Tag.text_inj] at hend

/-- What is wrong with an entry is the error. -/
theorem push_of_offends (h : d.HasRead entries) {e : DecodeError}
    (hoffends : entry.Offends entries.length (pending entries) e) :
    (d.push entry).2 = .error e := by
  rw [← h.position] at hoffends
  cases hoffends with
  | unknownTag htag =>
    have hnone : Tag.ofText? entry.tag = none := by
      cases htext : Tag.ofText? entry.tag with
      | none => rfl
      | some tag => exact absurd (Tag.text_of_ofText? htext) (htag tag)
    rw [push, hnone]
  | @payload tag payload htag hshape =>
    rw [push_of_tag tag (by rintro rfl; simp at htag) rfl]
    cases tag <;> cases payload <;> first
      | rfl
      | simp [Payload.shape, Tag.payloadShape] at htag hshape
  | @columnName value hkind =>
    rw [push_of_tag .columnRef (by decide) rfl]
    cases value <;> first | rfl | simp [Value.kind] at hkind
  | @placeholder type index hindex =>
    rw [push_of_tag .placeholder (by decide) rfl, node_placeholder,
      if_pos (Int64.lt_iff_toInt_lt.2 hindex)]
  | arity harity =>
    rw [push_of_tag (.operator _) (operator_ne_end _) rfl, node_operator, if_pos harity]
  | child harity hbefore hp =>
    rw [← h.length] at hbefore hp ⊢
    rw [push_of_tag (.operator _) (operator_ne_end _) rfl, node_operator,
      if_neg (Nat.not_lt.2 harity), mapM_child_of_first hbefore hp]
    rfl
  | emptyFilter hnil =>
    have : d.nodes = [] := List.length_eq_zero_iff.1 (by rw [h.length, hnil]; rfl)
    rw [push_end, close, this]
    rfl
  | @root payload last tag label hlast htag hlabel =>
    obtain ⟨n, hn, -, hcases⟩ := h.root_cases hlast
    rcases hcases with ⟨op, hop, -⟩ | ⟨tag', label', htag', hlabel', hnode⟩
    · obtain rfl : tag = .operator op := Tag.text_inj.1 (htag.symm.trans hop)
      simp [leafLabels] at hlabel
    · obtain rfl : tag = tag' := Tag.text_inj.1 (htag.symm.trans htag')
      obtain rfl : label = label' := by
        cases tag <;> simp_all [leafLabels]
      rw [push_end, close, hn]
      simp only [hnode]
      rfl

/-! ### Streams -/

theorem run_of_tree {d' : Decoder} (h : d.push entry = (d', .ok none)) (rest : List Entry) :
    d.run (entry :: rest) = d'.run rest := by
  rw [run, h]

theorem run_of_filter {d' : Decoder} {f : Filter} (h : d.push entry = (d', .ok (some f)))
    (rest : List Entry) : d.run (entry :: rest) = (d'.run rest).map (f :: ·) := by
  rw [run, h]

theorem run_of_error {e : DecodeError} (h : (d.push entry).2 = .error e) (rest : List Entry) :
    d.run (entry :: rest) = .error e := by
  rw [run]
  split <;> simp_all only [Except.error.injEq, reduceCtorEq]

/-- A stream in which no entry offends is read to its end, whatever follows, and gives the filters
that its segments mean. -/
theorem exists_hasRead (h : AllAccepted entries) : ∃ (d : Decoder) (fs : List Filter),
    d.HasRead entries ∧ List.Forall₂ Means (segments entries) fs ∧
      ∀ rest, start.run (entries ++ rest) = (d.run rest).map (fs ++ ·) := by
  -- The stream grows at its end, so that the judgement of each entry is about what is read already.
  induction entries using List.reverseRecOn with
  | nil =>
    refine ⟨start, [], hasRead_start, .nil, fun rest => ?_⟩
    rw [List.nil_append]
    cases start.run rest <;> rfl
  | append_singleton entries entry ih =>
    obtain ⟨hentries, hentry⟩ := allAccepted_concat.1 h
    obtain ⟨d, fs, hread, hmeans, hrun⟩ := ih hentries
    cases hend : entry.isEnd with
    | false =>
      obtain ⟨n, hpush, hn⟩ := exists_push hread hentry hend
      refine ⟨_, fs, hread.concat hend hn, by rwa [segments_concat hend], fun rest => ?_⟩
      rw [List.append_assoc, hrun, List.singleton_append, run_of_tree hpush]
    | true =>
      obtain ⟨f, hpush, hf⟩ := exists_push_end hread hentry hend
      refine ⟨_, fs ++ [f], hread.concat_end hend, ?_, fun rest => ?_⟩
      · rw [segments_concat_end hend]
        exact List.rel_append hmeans (.cons hf .nil)
      · rw [List.append_assoc, hrun, List.singleton_append, run_of_filter hpush]
        cases run _ rest with
        | ok gs => exact congrArg Except.ok (List.append_assoc fs [f] gs).symm
        | error e => rfl

end Decoder

open Decoder

/-- In a stream no entry offends, or there is an earliest one that does. -/
theorem allAccepted_or_firstOffence (entries : List Entry) :
    AllAccepted entries ∨ ∃ i e, FirstOffence entries i e := by
  induction entries using List.reverseRecOn with
  | nil => exact .inl allAccepted_nil
  | append_singleton entries entry ih =>
    rcases ih with h | ⟨i, e, h⟩
    · obtain ⟨d, -, hread, -⟩ := exists_hasRead h
      have hroot : pending entries ≠ [] → ∃ n, Denotes (pending entries) _ n := fun hne =>
        (hread.exists_root hne).imp fun _ => And.right
      rcases accepted_or_offends entries.length hroot entry with haccepted | ⟨e, hoffends⟩
      · exact .inl (allAccepted_concat.2 ⟨h, haccepted⟩)
      · exact .inr ⟨_, e, firstOffence_concat h hoffends⟩
    · exact .inr ⟨i, e, h.append [entry]⟩

theorem exists_decode {entries : List Entry} (h : IsWellFormed entries) :
    ∃ fs, decode entries = .ok fs ∧ List.Forall₂ Means (segments entries) fs := by
  obtain ⟨d, fs, hread, hmeans, hrun⟩ := exists_hasRead h.accepted
  have hnodes : d.nodes = [] := List.length_eq_zero_iff.1 (by rw [hread.length, h.ended]; rfl)
  refine ⟨fs, ?_, hmeans⟩
  rw [decode, ← List.append_nil entries, hrun, run, finish, hnodes]
  exact congrArg Except.ok (List.append_nil fs)

theorem decode_of_pending {entries : List Entry} (h : AllAccepted entries)
    (hpending : pending entries ≠ []) :
    decode entries = .error (.unterminated (pending entries).length) := by
  obtain ⟨d, fs, hread, -, hrun⟩ := exists_hasRead h
  have hnodes : ¬ d.nodes.isEmpty := by
    rw [List.isEmpty_iff_length_eq_zero, hread.length]
    exact fun hnil => hpending (List.length_eq_zero_iff.1 hnil)
  rw [decode, ← List.append_nil entries, hrun, run, finish, if_neg hnodes, hread.length,
    List.append_nil]
  rfl

theorem decode_of_firstOffence {entries : List Entry} {i : Nat} {e : DecodeError}
    (h : FirstOffence entries i e) : decode entries = .error e := by
  obtain ⟨hbefore, entry, hentry, hoffends⟩ := h
  obtain ⟨d, fs, hread, -, hrun⟩ := exists_hasRead hbefore
  obtain ⟨hi, rfl⟩ := List.getElem?_eq_some_iff.1 hentry
  have herror := push_of_offends hread (by rwa [List.length_take, Nat.min_eq_left (by omega)])
  rw [decode, ← List.take_append_drop i entries, hrun, List.drop_eq_getElem_cons hi,
    run_of_error herror]
  rfl

theorem isWellFormed_of_decode {entries : List Entry} {fs : List Filter}
    (h : decode entries = .ok fs) : IsWellFormed entries := by
  rcases allAccepted_or_firstOffence entries with haccepted | ⟨i, e, hfirst⟩
  · by_cases hpending : pending entries = []
    · exact ⟨haccepted, hpending⟩
    · cases h.symm.trans (decode_of_pending haccepted hpending)
  · cases h.symm.trans (decode_of_firstOffence hfirst)

/-- What becomes of a stream.  It decodes exactly if it is well-formed, to the filters that its
segments mean.  Otherwise the error is that of the earliest entry that offends, or else it counts
the entries after the last sentinel. -/
theorem decode_spec (entries : List Entry) :
    ((∃ fs, decode entries = .ok fs) ↔ IsWellFormed entries) ∧
      (∀ fs, decode entries = .ok fs → List.Forall₂ Means (segments entries) fs) ∧
      ∀ e, decode entries = .error e ↔ (∃ i, FirstOffence entries i e) ∨
        (AllAccepted entries ∧ pending entries ≠ [] ∧
          e = .unterminated (pending entries).length) := by
  refine ⟨⟨fun ⟨fs, h⟩ => isWellFormed_of_decode h, fun h => ?_⟩, fun fs h => ?_, ?_⟩
  · exact (exists_decode h).imp fun _ => And.left
  · obtain ⟨gs, hgs, hmeans⟩ := exists_decode (isWellFormed_of_decode h)
    rwa [Except.ok.inj (h.symm.trans hgs)]
  · intro e
    constructor
    · intro h
      rcases allAccepted_or_firstOffence entries with haccepted | ⟨i, e', hfirst⟩
      · have hpending : pending entries ≠ [] := fun hended => by
          obtain ⟨fs, hfs, -⟩ := exists_decode ⟨haccepted, hended⟩
          cases h.symm.trans hfs
        exact .inr ⟨haccepted, hpending,
          Except.error.inj (h.symm.trans (decode_of_pending haccepted hpending))⟩
      · rw [Except.error.inj (h.symm.trans (decode_of_firstOffence hfirst))]
        exact .inl ⟨i, hfirst⟩
    · rintro (⟨i, hfirst⟩ | ⟨haccepted, hpending, rfl⟩)
      · exact decode_of_firstOffence hfirst
      · exact decode_of_pending haccepted hpending

/-- Two positions may be one, and no position reaches over a sentinel. -/
theorem decode_spec_positions :
    IsWellFormed [.column "a", .operator .equal [0, 0], .endOfFilter] ∧
      ∃ i, FirstOffence
        [.column "a", .operator .equal [0, 0], .endOfFilter, .operator .not [0], .endOfFilter] i
        (.childIndexOutOfRange 3 0 0) := by
  refine ⟨(decode_spec _).1.1 ⟨_, rfl⟩, ?_⟩
  generalize hstream : [Entry.column "a", _, _, _, _] = stream
  have hdecode : decode stream = .error (.childIndexOutOfRange 3 0 0) := hstream ▸ rfl
  rcases ((decode_spec stream).2.2 _).1 hdecode with h | ⟨-, -, h⟩
  · exact h
  · cases h

end ExternalTable.NodeStream
