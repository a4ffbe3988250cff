import Mathlib.Data.List.DropRight
import Mathlib.Data.List.Forall2
import Mathlib.Tactic.Common
import ExternalTable.NodeStream.Basic
import ExternalTable.NodeStream.Decoder

/-!
# Well-formed node streams

What a node stream says, told without a machine that reads it.  Sentinels cut a stream into
segments, and an entry is judged by the entries before it in its segment.

* `segments`, `pending`: the segments of a stream, and what follows the last sentinel;
* `Entry.Accepted`, `Entry.Offends`: the entries that a stream may have at some place, and what is
  wrong with all others;
* `IsWellFormed`, `FirstOffence`: streams without an error, and the earliest error of a stream;
* `Denotes`: the tree of an entry.
-/

namespace ExternalTable.NodeStream

/-! ### Tags -/

theorem Tag.ofText?_text (t : Tag) : ofText? t.text = some t := by
  cases t with
  | operator op => cases op <;> decide
  | _ => decide

theorem Tag.text_of_ofText? {text : String} {t : Tag} (h : ofText? text = some t) :
    t.text = text := by
  rw [ofText?, Option.orElse_eq_orElse, Option.orElse_eq_or, Option.or_eq_some_iff] at h
  rcases h with h | ⟨-, h⟩
  · simpa using List.find?_some h
  · obtain ⟨op, hop, rfl⟩ := Option.map_eq_some_iff.1 h
    rw [Operator.ofTag?] at hop
    exact eq_of_beq (List.find?_some (p := fun op : Operator => op.tag == text) hop)

theorem Tag.text_inj {s t : Tag} : s.text = t.text ↔ s = t := by
  refine ⟨fun h => ?_, congrArg Tag.text⟩
  have := congrArg ofText? h
  rwa [ofText?_text, ofText?_text, Option.some.injEq] at this

theorem Entry.operator_eq (op : Operator) (positions : List Int32) :
    operator op positions = ⟨(Tag.operator op).text, .indices positions⟩ := rfl

/-! ### Segments -/

/-- Whether an entry is the sentinel. -/
def Entry.isEnd (entry : Entry) : Bool :=
  entry.tag == Tag.endOfFilter.text

/-- The segments of a stream that a sentinel ends, in order and without it. -/
def segments (entries : List Entry) : List (List Entry) :=
  (entries.splitOnP Entry.isEnd).dropLast

/-- What follows the last sentinel of a stream. -/
def pending (entries : List Entry) : List Entry :=
  entries.rtakeWhile fun entry => !entry.isEnd

theorem pending_concat_end {entry : Entry} (h : entry.isEnd = true) (entries : List Entry) :
    pending (entries ++ [entry]) = [] := by
  rw [pending, List.rtakeWhile_concat_neg _ _ _ (by simp [h])]

theorem pending_concat {entry : Entry} (h : entry.isEnd = false) (entries : List Entry) :
    pending (entries ++ [entry]) = pending entries ++ [entry] := by
  rw [pending, List.rtakeWhile_concat_pos _ _ _ (by simp [h]), pending]

theorem isEnd_of_mem_pending {entries : List Entry} {entry : Entry} (h : entry ∈ pending entries) :
    entry.isEnd = false := by
  simpa using List.mem_rtakeWhile_imp h

/-- A stream has no sentinel, or there is a last one. -/
theorem eq_pending_or (entries : List Entry) : entries = pending entries ∨
    ∃ before last, last.isEnd = true ∧ entries = before ++ last :: pending entries := by
  induction entries using List.reverseRecOn with
  | nil => exact .inl rfl
  | append_singleton entries entry ih =>
    cases hend : entry.isEnd with
    | true => exact .inr ⟨entries, entry, hend, by rw [pending_concat_end hend]⟩
    | false =>
      rw [pending_concat hend]
      rcases ih with hall | ⟨before, last, hlast, hcut⟩
      · exact .inl (congrArg (· ++ [entry]) hall)
      · refine .inr ⟨before, last, hlast, ?_⟩
        rw [← List.cons_append, ← List.append_assoc, ← hcut]

/-- Entries that are no sentinels only make the last part of a stream longer. -/
theorem splitOnP_append {tail : List Entry} (h : ∀ entry ∈ tail, entry.isEnd = false)
    (entries : List Entry) : (entries ++ tail).splitOnP Entry.isEnd =
      segments entries ++ [pending entries ++ tail] := by
  have htail : ∀ entry ∈ pending entries ++ tail, entry.isEnd = false :=
    List.forall_mem_append.2 ⟨fun _ => isEnd_of_mem_pending, h⟩
  have hpending := List.splitOnP_eq_singleton (List.forall_mem_append.1 htail).1
  rcases eq_pending_or entries with hall | ⟨before, last, hlast, hcut⟩
  · rw [← hall] at hpending htail ⊢
    rw [segments, hpending, List.splitOnP_eq_singleton htail]
    rfl
  · have hsegments : segments entries = before.splitOnP Entry.isEnd := by
      rw [segments, hcut, List.splitOnP_append_cons _ _ hlast, hpending, List.dropLast_concat]
    rw [hsegments, ← List.splitOnP_eq_singleton htail, ← List.splitOnP_append_cons _ _ hlast,
      ← List.cons_append, ← List.append_assoc, ← hcut]

theorem segments_concat {entry : Entry} (h : entry.isEnd = false) (entries : List Entry) :
    segments (entries ++ [entry]) = segments entries := by
  rw [segments, splitOnP_append (by simp [h]), List.dropLast_concat]

theorem segments_concat_end {entry : Entry} (h : entry.isEnd = true) (entries : List Entry) :
    segments (entries ++ [entry]) = segments entries ++ [pending entries] := by
  have hcut : entries.splitOnP Entry.isEnd = segments entries ++ [pending entries] := by
    simpa using splitOnP_append (List.forall_mem_nil _) entries
  rw [segments, List.splitOnP_append_cons _ _ h, hcut, List.splitOnP_nil, List.dropLast_concat]

/-! ### Entries in their place -/

/-- Whether a position is that of one of so many earlier entries. -/
def IsChild (available : Nat) (position : Int32) : Prop :=
  0 ≤ position.toInt ∧ position.toInt < available

instance (available : Nat) (position : Int32) : Decidable (IsChild available position) :=
  inferInstanceAs (Decidable (_ ∧ _))

/-- The entries that may follow `earlier` ones of the same segment.  Sentinels and null constants
may carry anything. -/
inductive Entry.Accepted (earlier : List Entry) : Entry → Prop
  | null (payload : Payload) : Accepted earlier ⟨Tag.null.text, payload⟩
  | column (name : String) : Accepted earlier (.column name)
  | constant (value : Value) : Accepted earlier (.constant value)
  | placeholder (type : DataType) {index : Int64} : 0 ≤ index.toInt →
      Accepted earlier (.placeholder type index)
  | operator {op : Operator} {positions : List Int32} : op.minArity ≤ positions.length →
      (∀ p ∈ positions, IsChild earlier.length p) → Accepted earlier (.operator op positions)
  | endOfFilter (payload : Payload) {last : Entry} {op : Operator} :
      earlier.getLast? = some last → last.tag = op.tag →
      Accepted earlier ⟨Tag.endOfFilter.text, payload⟩

/-- What messages call the trees of entries that are no operators. -/
def leafLabels : List (Tag × String) :=
  [(.columnRef, "column_ref"), (.constValue, "const_value"), (.null, "const_value"),
    (.placeholder, "placeholder")]

/-- What is wrong with an entry at a position of the stream, after `earlier` ones of the same
segment. -/
inductive Entry.Offends (position : Nat) (earlier : List Entry) : Entry → DecodeError → Prop
  | unknownTag {entry : Entry} : (∀ tag : Tag, tag.text ≠ entry.tag) →
      Offends position earlier entry (.unknownTag position entry.tag)
  | payload {tag : Tag} {payload : Payload} : tag ∉ [.null, .endOfFilter] →
      payload.shape ≠ tag.payloadShape →
      Offends position earlier ⟨tag.text, payload⟩
        (.payloadMismatch position tag.text tag.payloadShape payload.shape)
  | columnName {value : Value} : value.kind ≠ .text →
      Offends position earlier ⟨Tag.columnRef.text, .scalar value⟩
        (.columnNameNotText position value.kind)
  | placeholder {type : DataType} {index : Int64} : index.toInt < 0 →
      Offends position earlier (.placeholder type index) (.negativePlaceholderIndex position index)
  | arity {op : Operator} {positions : List Int32} : positions.length < op.minArity →
      Offends position earlier (.operator op positions)
        (.arityBelowMinimum position op positions.length)
  | child {op : Operator} {before after : List Int32} {p : Int32} :
      op.minArity ≤ (before ++ p :: after).length → (∀ b ∈ before, IsChild earlier.length b) →
      ¬ IsChild earlier.length p →
      Offends position earlier (.operator op (before ++ p :: after))
        (.childIndexOutOfRange position p earlier.length)
  | emptyFilter {payload : Payload} : earlier = [] →
      Offends position earlier ⟨Tag.endOfFilter.text, payload⟩ (.emptyFilter position)
  | root {payload : Payload} {last : Entry} {tag : Tag} {label : String} :
      earlier.getLast? = some last → last.tag = tag.text → (tag, label) ∈ leafLabels →
      Offends position earlier ⟨Tag.endOfFilter.text, payload⟩ (.rootNotPredicate position label)

/-- A stream in which every entry may stand where it stands. -/
def AllAccepted (entries : List Entry) : Prop :=
  ∀ (i : Nat) (entry : Entry), entries[i]? = some entry → entry.Accepted (pending (entries.take i))

/-- A stream of complete segments, each with an operator at its end, in which every entry may stand
where it stands. -/
structure IsWellFormed (entries : List Entry) : Prop where
  accepted : AllAccepted entries
  ended : pending entries = []

/-- The earliest entry of a stream that may not stand where it stands, and what is wrong with it. -/
structure FirstOffence (entries : List Entry) (position : Nat) (e : DecodeError) : Prop where
  before : AllAccepted (entries.take position)
  offends : ∃ entry, entries[position]? = some entry ∧
    entry.Offends position (pending (entries.take position)) e

theorem allAccepted_nil : AllAccepted [] :=
  nofun

theorem AllAccepted.of_append {entries more : List Entry} (h : AllAccepted (entries ++ more)) :
    AllAccepted entries := by
  intro i entry hentry
  have hlt := (List.getElem?_eq_some_iff.1 hentry).1
  have haccepted := h i entry (by rwa [List.getElem?_append_left hlt])
  rwa [List.take_append_of_le_length (Nat.le_of_lt hlt)] at haccepted

theorem allAccepted_concat {entries : List Entry} {entry : Entry} :
    AllAccepted (entries ++ [entry]) ↔ AllAccepted entries ∧ entry.Accepted (pending entries) := by
  constructor
  · exact fun h => ⟨h.of_append, by simpa using h entries.length entry (by simp)⟩
  · rintro ⟨h, hentry⟩ i next hnext
    have hi := (List.getElem?_eq_some_iff.1 hnext).1
    rcases Nat.lt_or_ge i entries.length with hlt | hle
    · rw [List.getElem?_append_left hlt] at hnext
      rw [List.take_append_of_le_length (Nat.le_of_lt hlt)]
      exact h i next hnext
    · obtain rfl : i = entries.length := by simp at hi; omega
      rw [List.getElem?_concat_length, Option.some.injEq] at hnext
      rwa [List.take_left, ← hnext]

theorem FirstOffence.append {entries : List Entry} {position : Nat} {e : DecodeError}
    (h : FirstOffence entries position e) (more : List Entry) :
    FirstOffence (entries ++ more) position e := by
  obtain ⟨hbefore, entry, hentry, hoffends⟩ := h
  have hlt := (List.getElem?_eq_some_iff.1 hentry).1
  have htake : (entries ++ more).take position = entries.take position :=
    List.take_append_of_le_length (Nat.le_of_lt hlt)
  exact ⟨by rwa [htake], entry, by rwa [List.getElem?_append_left hlt], by rwa [htake]⟩

theorem firstOffence_concat {entries : List Entry} {entry : Entry} {e : DecodeError}
    (h : AllAccepted entries) (hoffends : entry.Offends entries.length (pending entries) e) :
    FirstOffence (entries ++ [entry]) entries.length e where
  before := by rwa [List.take_left]
  offends := ⟨entry, List.getElem?_concat_length, by rwa [List.take_left]⟩

/-! ### Trees -/

/-- The tree of an entry of a segment.  The children of an operator are the trees of earlier entries
of the segment. -/
inductive Denotes (segment : List Entry) : Nat → Node → Prop
  | null {i : Nat} {payload : Payload} : segment[i]? = some ⟨Tag.null.text, payload⟩ →
      Denotes segment i (.constant .null)
  | column {i : Nat} {name : String} : segment[i]? = some (.column name) →
      Denotes segment i (.column name)
  | constant {i : Nat} {value : Value} : segment[i]? = some (.constant value) →
      Denotes segment i (.constant value)
  | placeholder {i : Nat} {type : DataType} {index : Int64} {number : UInt64} :
      segment[i]? = some (.placeholder type index) → number.toNat = index.toInt →
      Denotes segment i (.placeholder type number)
  | operator {i : Nat} {op : Operator} {positions : List Int32} {children : List Node} :
      segment[i]? = some (.operator op positions) → (∀ p ∈ positions, IsChild i p) →
      List.Forall₂ (fun p n => Denotes segment p.toInt.toNat n) positions children →
      Denotes segment i (.predicate op children)

/-- An entry denotes one tree only. -/
theorem Denotes.unique {segment : List Entry} {i : Nat} {m n : Node} (h : Denotes segment i m)
    (h' : Denotes segment i n) : m = n := by
  induction i using Nat.strongRecOn generalizing m n with
  | ind i ih =>
    have hall : ∀ {positions : List Int32} {ms ns : List Node}, (∀ p ∈ positions, IsChild i p) →
        List.Forall₂ (fun p n => Denotes segment p.toInt.toNat n) positions ms →
        List.Forall₂ (fun p n => Denotes segment p.toInt.toNat n) positions ns → ms = ns := by
      intro positions ms ns hpositions hms hns
      induction hms generalizing ns with
      | nil => exact (List.forall₂_nil_left_iff.1 hns).symm
      | @cons p m positions ms hm _ ihs =>
        obtain ⟨n, ns', hn, hns', rfl⟩ := List.forall₂_cons_left_iff.1 hns
        obtain ⟨⟨hzero, hlt⟩, hrest⟩ := List.forall_mem_cons.1 hpositions
        rw [ih _ (by omega) hm hn, ihs hrest hns']
    -- Two rules that give the tree of one entry are the same rule, since tags tell them apart.
    cases h <;> cases h' <;> simp_all only [Option.some.injEq, Entry.column, Entry.constant,
      Entry.placeholder, Entry.operator_eq, Entry.mk.injEq, Tag.text_inj, reduceCtorEq, false_and,
      true_and, Tag.operator.injEq, Payload.scalar.injEq, Value.text.injEq,
      Payload.placeholder.injEq, Payload.indices.injEq]
    case placeholder.placeholder => exact congrArg _ (UInt64.toNat_inj.1 (by omega))
    case operator.operator =>
      exact congrArg _ (hall (by assumption) (by assumption) (by assumption))

/-- The tree of an entry does not depend on the entries after it. -/
theorem Denotes.append {segment : List Entry} {i : Nat} {n : Node} (h : Denotes segment i n)
    (more : List Entry) : Denotes (segment ++ more) i n := by
  induction i using Nat.strongRecOn generalizing n with
  | ind i ih =>
    have hentry : ∀ {entry}, segment[i]? = some entry → (segment ++ more)[i]? = some entry := by
      intro entry h
      rw [List.getElem?_append_left (List.getElem?_eq_some_iff.1 h).1, h]
    cases h with
    | null h => exact .null (hentry h)
    | column h => exact .column (hentry h)
    | constant h => exact .constant (hentry h)
    | placeholder h hnumber => exact .placeholder (hentry h) hnumber
    | @operator _ op positions children h hpositions hchildren =>
      refine .operator (hentry h) hpositions ?_
      clear h
      induction hchildren with
      | nil => exact .nil
      | cons hchild _ ihs =>
        obtain ⟨⟨hzero, hlt⟩, hpositions⟩ := List.forall_mem_cons.1 hpositions
        exact .cons (ih _ (by omega) hchild) (ihs hpositions)

/-- The root of a filter is the tree of an operator.  Of the trees of other entries messages know
the labels. -/
theorem Denotes.ofNode_cases {segment : List Entry} {i : Nat} {n : Node} (h : Denotes segment i n) :
    ∃ entry, segment[i]? = some entry ∧
      ((∃ op : Operator, entry.tag = op.tag ∧ ∃ f, Filter.ofNode n = .ok f) ∨
        ∃ (tag : Tag) (label : String), entry.tag = tag.text ∧ (tag, label) ∈ leafLabels ∧
          Filter.ofNode n = .error ⟨label⟩) := by
  cases h with
  | operator h => exact ⟨_, h, .inl ⟨_, rfl, _, rfl⟩⟩
  | null h => exact ⟨_, h, .inr ⟨.null, "const_value", rfl, by decide, rfl⟩⟩
  | column h => exact ⟨_, h, .inr ⟨.columnRef, "column_ref", rfl, by decide, rfl⟩⟩
  | constant h => exact ⟨_, h, .inr ⟨.constValue, "const_value", rfl, by decide, rfl⟩⟩
  | placeholder h => exact ⟨_, h, .inr ⟨.placeholder, "placeholder", rfl, by decide, rfl⟩⟩

/-! ### Every entry is judged -/

/-- The positions of an operator are too few, or all of earlier entries, or there is a first one
that is not. -/
theorem accepted_or_offends_operator (position : Nat) (earlier : List Entry) (op : Operator)
    (positions : List Int32) : (Entry.operator op positions).Accepted earlier ∨
      ∃ e, (Entry.operator op positions).Offends position earlier e := by
  rcases Nat.lt_or_ge positions.length op.minArity with hlt | hle
  · exact .inr ⟨_, .arity hlt⟩
  · cases hfind : positions.find? fun p => !decide (IsChild earlier.length p) with
    | none => exact .inl (.operator hle (by simpa using hfind))
    | some p =>
      obtain ⟨hp, before, after, rfl, hbefore⟩ := List.find?_eq_some_iff_append.1 hfind
      exact .inr ⟨_, .child hle (by simpa using hbefore) (by simpa using hp)⟩

/-- An entry may stand after entries with trees, or something is wrong with it there. -/
theorem accepted_or_offends (position : Nat) {earlier : List Entry}
    (hroot : earlier ≠ [] → ∃ n, Denotes earlier (earlier.length - 1) n) (entry : Entry) :
    entry.Accepted earlier ∨ ∃ e, entry.Offends position earlier e := by
  obtain ⟨text, payload⟩ := entry
  cases htag : Tag.ofText? text with
  | none =>
    refine .inr ⟨_, .unknownTag fun tag htext => ?_⟩
    rw [show text = tag.text from htext.symm, Tag.ofText?_text] at htag
    cases htag
  | some tag =>
    obtain rfl := Tag.text_of_ofText? htag
    -- A sentinel and a null constant carry anything, so only the other tags are held to a shape.
    by_cases hshape : tag ∉ [.null, .endOfFilter] ∧ payload.shape ≠ tag.payloadShape
    · exact .inr ⟨_, .payload hshape.1 hshape.2⟩
    · cases tag with
      | null => exact .inl (.null payload)
      | endOfFilter =>
        by_cases hnil : earlier = []
        · exact .inr ⟨_, .emptyFilter hnil⟩
        · obtain ⟨n, hn⟩ := hroot hnil
          obtain ⟨last, hlast, hcases⟩ := hn.ofNode_cases
          rw [← List.getLast?_eq_getElem?] at hlast
          rcases hcases with ⟨op, hop, -⟩ | ⟨tag, label, htag, hlabel, -⟩
          · exact .inl (.endOfFilter payload hlast hop)
          · exact .inr ⟨_, .root hlast htag hlabel⟩
      | columnRef =>
        cases payload with
        | scalar value =>
          cases value with
          | text name => exact .inl (.column name)
          | _ => exact .inr ⟨_, .columnName (by simp [Value.kind])⟩
        | _ => simp [Payload.shape, Tag.payloadShape] at hshape
      | constValue =>
        cases payload with
        | scalar value => exact .inl (.constant value)
        | _ => simp [Payload.shape, Tag.payloadShape] at hshape
      | placeholder =>
        cases payload with
        | placeholder type index =>
          rcases Int.lt_or_le index.toInt 0 with hlt | hle
          · exact .inr ⟨_, .placeholder hlt⟩
          · exact .inl (.placeholder type hle)
        | _ => simp [Payload.shape, Tag.payloadShape] at hshape
      | operator op =>
        cases payload with
        | indices positions => exact accepted_or_offends_operator position earlier op positions
        | _ => simp [Payload.shape, Tag.payloadShape] at hshape

end ExternalTable.NodeStream
