import ExternalTable.Number.Power
import ExternalTable.Proofs.Decoding

/-!
# Encoding filters

The host writes each filter children first: the entries of each child in turn, then the entry of the
parent with the positions at which its children ended.  A decoder gets the filters back, and takes
no beginning of the stream that breaks off within a filter.

* `emit`, `emitAll`: the entries of a tree and of several trees;
* `encode`: the stream of several filters;
* `IsEncodable`: the filters whose numbers fit into the stream;
* `run_emit`: a decoder that reads the entries of a tree holds its nodes in postorder;
* `decode_encode`: decoding undoes encoding.
-/

namespace ExternalTable

namespace Node

theorem getLast?_postorder (n : Node) : n.postorder.getLast? = some n := by
  cases n with
  | predicate op children => rw [postorder, List.getLast?_concat]
  | _ => rfl

/-- A node as the parent or leaf that a stream can carry. -/
def IsSendable : Node → Prop
  | .placeholder _ index => index.toNat < twoPow 63
  | .predicate op children => op.minArity ≤ children.length
  | _ => True

end Node

/-- The nodes of a filter can be sent, and so can the positions of all of them. -/
structure Filter.IsEncodable (f : Filter) : Prop where
  sendable : ∀ n ∈ f.root.postorder, n.IsSendable
  size : f.root.postorder.length ≤ twoPow 31

namespace NodeStream

mutual

/-- The entries of a tree, the first of them at an offset in its segment. -/
def emit (offset : Nat) : Node → List Entry
  | .column name => [.column name]
  | .constant value => [.constant value]
  | .placeholder type index => [.placeholder type index.toInt64]
  | .predicate op children =>
      (emitAll offset children).1 ++ [.operator op (emitAll offset children).2]

/-- The entries of several trees, one tree after the other, and the positions of their last
entries. -/
def emitAll (offset : Nat) : List Node → List Entry × List Int32
  | [] => ([], [])
  | n :: ns =>
      let entries := emit offset n
      let rest := emitAll (offset + entries.length) ns
      (entries ++ rest.1, .ofNat (offset + entries.length - 1) :: rest.2)

end

/-- The stream of several filters. -/
def encode (fs : List Filter) : List Entry :=
  fs.flatMap fun f => emit 0 f.root ++ [.endOfFilter]

mutual

theorem length_emit (offset : Nat) (n : Node) : (emit offset n).length = n.postorder.length := by
  cases n with
  | predicate op children =>
    rw [emit, Node.postorder, List.length_append, List.length_append, length_emitAll]
    rfl
  | _ => rfl

theorem length_emitAll (offset : Nat) (ns : List Node) :
    (emitAll offset ns).1.length = (Node.postorderAll ns).length := by
  cases ns with
  | nil => rfl
  | cons n ns =>
    rw [emitAll, Node.postorderAll, List.length_append, List.length_append, length_emit,
      length_emitAll]

end

namespace Decoder

variable {d : Decoder}

theorem At.append {nodes : List Node} {p : Int32} {n : Node} (h : At nodes p n) (more : List Node) :
    At (nodes ++ more) p n :=
  ⟨h.1, by rw [List.getElem?_append_left (List.getElem?_eq_some_iff.1 h.2).1, h.2]⟩

/-- The last of the nodes of a tree is the tree. -/
theorem at_root {nodes : List Node} {n : Node}
    (hsize : nodes.length + n.postorder.length ≤ twoPow 31) :
    At (nodes ++ n.postorder) (.ofNat (nodes.length + n.postorder.length - 1)) n := by
  have hlast := n.getLast?_postorder
  have hpos : 0 < n.postorder.length := List.length_pos_iff.2 (by rintro hnil; simp [hnil] at hlast)
  have htwoPow : twoPow 31 = 2147483648 := rfl
  have hint : (Int32.ofNat (nodes.length + n.postorder.length - 1)).toInt.toNat =
      (nodes ++ n.postorder).length - 1 := by
    rw [Int32.toInt_ofNat_of_lt (by omega), Int.toNat_natCast, List.length_append]
  refine ⟨by rw [Int32.toInt_ofNat_of_lt (by omega)]; omega, ?_⟩
  rw [hint, ← List.getLast?_eq_getElem?, List.getLast?_append, hlast]
  rfl

theorem toInt_toInt64 {index : UInt64} (h : index.toNat < twoPow 63) :
    index.toInt64.toInt = index.toNat := by
  have : twoPow 63 = 9223372036854775808 := rfl
  rw [Int64.toInt, UInt64.toBitVec_toInt64, BitVec.toInt_eq_toNat_of_lt]
  · rfl
  · rw [UInt64.toNat_toBitVec]
    omega

mutual

/-- A decoder that reads the entries of a tree holds its nodes, each after its children. -/
theorem run_emit {n : Node} (hsend : ∀ m ∈ n.postorder, m.IsSendable) (d : Decoder)
    (hsize : d.nodes.length + n.postorder.length ≤ twoPow 31) (rest : List Entry) :
    d.run (emit d.nodes.length n ++ rest) = (d.hold n.postorder).run rest := by
  cases n with
  | column name => exact run_of_tree (push_of_tag .columnRef nofun rfl) rest
  | constant value => exact run_of_tree (push_of_tag .constValue nofun rfl) rest
  | placeholder type index =>
    -- The number is sent as a signed one, and comes back since it is below half of the range.
    have hindex : index.toInt64.toInt = index.toNat := toInt_toInt64 (hsend _ (.head _))
    have hback : index.toInt64.toInt.toNat.toUInt64 = index := by
      rw [hindex, Int.toNat_natCast]
      exact UInt64.ofNat_toNat
    have hpush := push_placeholder (d := d) (by rw [hindex]; omega) type
    rw [hback] at hpush
    exact run_of_tree hpush rest
  | predicate op children =>
    rw [Node.postorder] at hsend hsize
    rw [List.length_append] at hsize
    obtain ⟨hchildren, harity⟩ := List.forall_mem_append.1 hsend
    obtain ⟨hat, hrun⟩ := run_emitAll hchildren d (by omega)
    have harity : op.minArity ≤ children.length := harity _ (.head _)
    have hpush := push_operator (hat.length_eq ▸ harity) hat
    rw [emit, List.append_assoc, hrun, List.singleton_append, run_of_tree hpush, hold_hold,
      Node.postorder]

/-- Of several trees it holds the roots at the positions that are sent. -/
theorem run_emitAll {ns : List Node} (hsend : ∀ m ∈ Node.postorderAll ns, m.IsSendable)
    (d : Decoder) (hsize : d.nodes.length + (Node.postorderAll ns).length ≤ twoPow 31) :
    List.Forall₂ (At (d.hold (Node.postorderAll ns)).nodes) (emitAll d.nodes.length ns).2 ns ∧
      ∀ rest, d.run ((emitAll d.nodes.length ns).1 ++ rest) =
        (d.hold (Node.postorderAll ns)).run rest := by
  cases ns with
  | nil => exact ⟨.nil, fun rest => by rw [Node.postorderAll, hold_nil]; rfl⟩
  | cons n ns =>
    rw [Node.postorderAll] at hsend hsize ⊢
    rw [List.length_append] at hsize
    obtain ⟨hn, hns⟩ := List.forall_mem_append.1 hsend
    have hlength : (d.hold n.postorder).nodes.length = d.nodes.length + n.postorder.length :=
      List.length_append
    obtain ⟨hat, hrun⟩ := run_emitAll hns (d.hold n.postorder) (by omega)
    rw [hlength, hold_hold] at hat
    rw [hlength] at hrun
    rw [emitAll, length_emit]
    -- The root of the first tree stays in its place when the nodes of the others come after it.
    refine ⟨.cons ?_ hat, fun rest => ?_⟩
    · rw [nodes_hold, ← List.append_assoc]
      exact (at_root (by omega)).append _
    · rw [List.append_assoc, run_emit hn d (by omega), hrun, hold_hold]

end

end Decoder

open Decoder

/-- A decoder that reads a filter to its sentinel gives the filter. -/
theorem run_filter {f : Filter} (h : f.IsEncodable) (position : Nat) (rest : List Entry) :
    ∃ next, run ⟨[], position⟩ (emit 0 f.root ++ .endOfFilter :: rest) =
      (run ⟨[], next⟩ rest).map (f :: ·) := by
  have hrun := run_emit h.sendable ⟨[], position⟩ (by simpa using h.size) (.endOfFilter :: rest)
  have hclose : (hold ⟨[], position⟩ f.root.postorder).close = .ok f := by
    rw [close, nodes_hold, List.nil_append, Node.getLast?_postorder]
    rfl
  have hpush := push_end (d := hold ⟨[], position⟩ f.root.postorder) .empty
  rw [hclose] at hpush
  exact ⟨_, hrun.trans (run_of_filter hpush rest)⟩

theorem run_encode {fs : List Filter} (h : ∀ f ∈ fs, f.IsEncodable) (position : Nat) :
    run ⟨[], position⟩ (encode fs) = .ok fs := by
  induction fs generalizing position with
  | nil => rfl
  | cons f fs ih =>
    obtain ⟨hf, hfs⟩ := List.forall_mem_cons.1 h
    obtain ⟨next, hrun⟩ := run_filter hf position (encode fs)
    rw [encode, List.flatMap_cons, List.append_assoc, List.singleton_append]
    refine hrun.trans ?_
    rw [ih hfs next]
    rfl

/-- Decoding undoes encoding.  A beginning of the stream that does not end with a sentinel is an
error. -/
theorem decode_encode {fs : List Filter} (h : ∀ f ∈ fs, f.IsEncodable) :
    decode (encode fs) = .ok fs ∧
      ∀ before last, before ++ [last] <+: encode fs → last.isEnd = false →
        decode (before ++ [last]) = .error (.unterminated (pending (before ++ [last])).length) := by
  have hdecode : decode (encode fs) = .ok fs := run_encode h 0
  refine ⟨hdecode, fun before last ⟨after, hafter⟩ hend => ?_⟩
  have haccepted := (isWellFormed_of_decode hdecode).accepted
  rw [← hafter] at haccepted
  refine decode_of_pending haccepted.of_append ?_
  rw [pending_concat hend]
  exact List.concat_ne_nil _ _

/-- Positions run through the children of one filter and start anew in the next. -/
theorem decode_encode_two :
    decode (encode [⟨.not, [.predicate .equal [.column "a", .placeholder .int64 7]]⟩,
        ⟨.equal, [.column "b", .constant .null]⟩]) =
      .ok [⟨.not, [.predicate .equal [.column "a", .placeholder .int64 7]]⟩,
        ⟨.equal, [.column "b", .constant .null]⟩] ∧
    decode ([.column "a", .placeholder .int64 7, .operator .equal [0, 1]] ++ [.operator .not [2]]) =
      .error (.unterminated 4) := by
  have h : ∀ f ∈ [(⟨.not, [.predicate .equal [.column "a", .placeholder .int64 7]]⟩ : Filter),
      ⟨.equal, [.column "b", .constant .null]⟩], f.IsEncodable := by
    refine List.forall_mem_cons.2 ⟨⟨?_, by decide⟩, List.forall_mem_singleton.2 ⟨?_, by decide⟩⟩ <;>
      simp [Filter.root, Node.postorder, Node.postorderAll, Node.IsSendable, Operator.minArity,
        twoPow]
  exact ⟨(decode_encode h).1, (decode_encode h).2 _ _ ⟨_, rfl⟩ rfl⟩

end NodeStream
end ExternalTable
