import ExternalTable.Filter.Basic
import ExternalTable.Fragment.Bind

/-!
# Pushing filters down

A filter is pushed down by writing it as a SQL fragment for the remote source.  A filter with a part
that has no safe spelling is declined, and the host goes on evaluating it.

* `Obstacle`: why a filter is declined;
* `spelling`: the words of an operator between its operands;
* `Node.sql`: the fragment of a tree, or the first obstacle, a node before its children and children
  from left to right;
* `Pushdown`: the answer for one filter, `pushdown` its computation.
-/

namespace ExternalTable.Fragment

/-- Why a filter is not pushed down. -/
inductive Obstacle where
  | unsupportedOperator (op : Operator)
  | arity (op : Operator) (found : Nat)
  | literal (cause : LiteralError)
  | placeholderType (type : DataType) (index : UInt64)
  | identifier (name : String)
  deriving DecidableEq

namespace Obstacle

/-- The stable name of the kind of an obstacle. -/
def kind : Obstacle → String
  | .unsupportedOperator _ => "unsupported_operator"
  | .arity _ _ => "arity"
  | .literal cause => "literal_" ++ cause.kind
  | .placeholderType _ _ => "placeholder_type"
  | .identifier _ => "identifier"

/-- The message of an obstacle. -/
def message : Obstacle → String
  | .unsupportedOperator op => s!"operator '{op.tag}' is not pushed down"
  | .arity op found => s!"operator '{op.tag}' cannot take {found} children"
  | .literal cause => cause.message
  | .placeholderType type index =>
      s!"placeholder {index.toNat} of type {type.name} has no literal form"
  | .identifier name => s!"column name '{name}' is not a bare identifier"

end Obstacle

/-- Whether an operator can be written with a given number of children. -/
def takes : Operator → Nat → Bool
  | .invalid, _ => false
  | .between, n | .notBetween, n => n == 3
  | .isIn, n | .notIn, n | .and, n | .or, n => decide (2 ≤ n)
  | .not, n => n == 1
  | .like, n | .notLike, n => n == 2 || n == 3
  | _, n => n == 2

/-- What stands after each operand but the last: the text after the first, and the text after the
others. -/
def spelling : Operator → Sql × Sql
  | .and => (" AND ".toList, " AND ".toList)
  | .or => (" OR ".toList, " OR ".toList)
  | .equal => ("=".toList, [])
  | .notEqual => ("<>".toList, [])
  | .less => ("<".toList, [])
  | .lessEqual => ("<=".toList, [])
  | .greater => (">".toList, [])
  | .greaterEqual => (">=".toList, [])
  | .is => (" IS ".toList, [])
  | .isNot => (" IS NOT ".toList, [])
  | .like => (" LIKE ".toList, " ESCAPE ".toList)
  | .notLike => (" NOT LIKE ".toList, " ESCAPE ".toList)
  | .between => (" BETWEEN ".toList, " AND ".toList)
  | .notBetween => (" NOT BETWEEN ".toList, " AND ".toList)
  | .isIn => (" IN (".toList, ", ".toList)
  | .notIn => (" NOT IN (".toList, ", ".toList)
  | .not | .invalid => ([], [])

/-- Text in parentheses. -/
def parenthesized (text : Sql) : Sql :=
  '(' :: text ++ [')']

/-- The text of a child, and whether the child is itself a predicate. -/
structure Operand where
  compound : Bool
  text : Sql
  deriving DecidableEq

/-- An operand of a comparison: in parentheses if it is a predicate, so that the surrounding
operator cannot capture a part of it. -/
def Operand.grouped (o : Operand) : Sql :=
  if o.compound then parenthesized o.text else o.text

/-- Texts with a separator after the first and another between the others. -/
def joined (first others : Sql) : List Sql → Sql
  | [] => []
  | [text] => text
  | text :: rest => text ++ first ++ others.intercalate rest

/-- The text of an operator over its operands.  The operands of connectives are always in
parentheses. -/
def assemble (op : Operator) (operands : List Operand) : Sql :=
  let (first, others) := spelling op
  match op with
  | .not => "NOT ".toList ++ operands.flatMap fun o => parenthesized o.text
  | .and | .or => joined first others (operands.map fun o => parenthesized o.text)
  | .isIn | .notIn => joined first others (operands.map Operand.grouped) ++ [')']
  | _ => joined first others (operands.map Operand.grouped)

mutual

/-- The fragment of a tree, or the first obstacle in it. -/
def sql (d : Dialect) : Node → Except Obstacle Sql
  | .column name =>
      if d.acceptsIdentifier name then .ok (d.identifier name) else .error (.identifier name)
  | .constant value =>
      match value.literal d with
      | .ok text => .ok text
      | .error cause => .error (.literal cause)
  | .placeholder type index =>
      if type.hasLiteral then .ok (marker index.toNat) else .error (.placeholderType type index)
  | .predicate op children =>
      if op = .invalid then .error (.unsupportedOperator op)
      else if takes op children.length then (operands d children).map (assemble op)
      else .error (.arity op children.length)

/-- The texts of several trees, or the first obstacle in them. -/
def operands (d : Dialect) : List Node → Except Obstacle (List Operand)
  | [] => .ok []
  | n :: rest =>
      match sql d n with
      | .error o => .error o
      | .ok text => (operands d rest).map (⟨n.isPredicate, text⟩ :: ·)

end

/-- The answer for one filter. -/
inductive Pushdown where
  /-- The remote source evaluates the filter in the form of this fragment. -/
  | accepted (fragment : Sql)
  /-- The filter stays with the host. -/
  | declined (obstacle : Obstacle)
  /-- The filter could not be written at all. -/
  | failed (error : FragmentError)
  deriving DecidableEq

/-- What became of a filter, without the details. -/
inductive Outcome where
  | accepted
  | declined
  | failed
  deriving DecidableEq

/-- The stable name of an outcome. -/
def Outcome.name : Outcome → String
  | .accepted => "accepted"
  | .declined => "declined"
  | .failed => "failed"

namespace Pushdown

/-- The outcome of an answer. -/
def outcome : Pushdown → Outcome
  | .accepted _ => .accepted
  | .declined _ => .declined
  | .failed _ => .failed

/-- The fragment of an accepted filter. -/
def fragment? : Pushdown → Option Sql
  | .accepted text => some text
  | _ => none

/-- What the host is told: the fragment, or nothing where the filter stays with the host. -/
def answer (p : Pushdown) : Sql :=
  p.fragment?.getD []

end Pushdown

/-- Writes a filter for a remote source of the given dialect. -/
def pushdown (d : Dialect) (f : Filter) : Pushdown :=
  match sql d f.root with
  | .ok text => .accepted text
  | .error obstacle => .declined obstacle

end ExternalTable.Fragment
