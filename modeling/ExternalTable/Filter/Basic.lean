import ExternalTable.Column.Basic
import ExternalTable.Filter.Operator
import ExternalTable.Value

/-!
# Filters

A filter is a predicate over the columns of a table, given as a tree.

* `Node`: column references, constants, placeholders for runtime parameters, and operators applied
  to ordered children;
* `Node.same`: equality of trees, which compares constants as values;
* `Node.postorder`: the nodes of a tree, children before their parent;
* `Filter`: a tree whose root is an operator; `Filter.ofNode` refuses all others.
-/

namespace ExternalTable

/-- A node of a predicate tree.  The order of children is significant. -/
inductive Node where
  | column (name : String)
  | constant (value : Value)
  | placeholder (type : DataType) (index : UInt64)
  | predicate (op : Operator) (children : List Node)

namespace Node

/-- Whether a node applies an operator. -/
def isPredicate : Node → Bool
  | .predicate _ _ => true
  | _ => false

/-- The operator of a node that applies one. -/
def operator? : Node → Option Operator
  | .predicate op _ => some op
  | _ => none

/-- What a node is called in messages. -/
def label : Node → String
  | .column _ => "column_ref"
  | .constant _ => "const_value"
  | .placeholder _ _ => "placeholder"
  | .predicate op _ => op.tag

mutual

/-- Equality of trees: the same shape, operators and leaves, with constants compared as values. -/
def same : Node → Node → Bool
  | .column a, .column b => a == b
  | .constant a, .constant b => a.same b
  | .placeholder s i, .placeholder t j => s == t && i == j
  | .predicate o as, .predicate p bs => o == p && sameAll as bs
  | _, _ => false

/-- Equality of lists of trees. -/
def sameAll : List Node → List Node → Bool
  | [], [] => true
  | a :: as, b :: bs => same a b && sameAll as bs
  | _, _ => false

end

mutual

/-- The nodes of a tree, each after its children. -/
def postorder : Node → List Node
  | .predicate op children => postorderAll children ++ [.predicate op children]
  | leaf => [leaf]

/-- The nodes of several trees, one tree after the other. -/
def postorderAll : List Node → List Node
  | [] => []
  | n :: ns => postorder n ++ postorderAll ns

end

end Node

/-- A complete predicate: an operator and its children. -/
structure Filter where
  operator : Operator
  children : List Node

/-- A tree that is no filter, by the label of its root. -/
structure RootError where
  label : String
  deriving DecidableEq

/-- The message of a tree that is no filter. -/
def RootError.message (e : RootError) : String :=
  "filter root must be a predicate, found " ++ e.label

namespace Filter

/-- The tree of a filter. -/
def root (f : Filter) : Node :=
  .predicate f.operator f.children

/-- The filter of a tree; leaves are refused. -/
def ofNode : Node → Except RootError Filter
  | .predicate op children => .ok ⟨op, children⟩
  | leaf => .error ⟨leaf.label⟩

@[simp] theorem ofNode_root (f : Filter) : ofNode f.root = .ok f := rfl

/-- A tree is the root of the filter made from it. -/
theorem root_of_ofNode {n : Node} {f : Filter} (h : ofNode n = .ok f) : f.root = n := by
  cases n <;> simp [ofNode] at h
  subst h
  rfl

end Filter

end ExternalTable
