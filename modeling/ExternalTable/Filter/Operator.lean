/-!
# Operators of filters

* `Operator`: the closed set of operators that the host can emit;
* `Operator.tag`: the name of an operator in a node stream, and `Operator.ofTag?` its inverse;
* `Operator.name`: the name under which an operator is documented;
* `Operator.minArity`: the fewest children that a node stream may give an operator.
-/

namespace ExternalTable

/-- The operators of filters.  `invalid` stands for one that the host could not express. -/
inductive Operator where
  | and
  | between
  | equal
  | greater
  | greaterEqual
  | isIn
  | invalid
  | is
  | isNot
  | less
  | lessEqual
  | like
  | not
  | notBetween
  | notEqual
  | notIn
  | notLike
  | or
  deriving DecidableEq

namespace Operator

/-- Every operator. -/
def all : List Operator :=
  [.and, .between, .equal, .greater, .greaterEqual, .isIn, .invalid, .is, .isNot, .less, .lessEqual,
    .like, .not, .notBetween, .notEqual, .notIn, .notLike, .or]

/-- The tag that names an operator in a node stream. -/
def tag : Operator → String
  | .and => "concat.and"
  | .between => "cmp.between"
  | .equal => "cmp.eq"
  | .greater => "cmp.gt"
  | .greaterEqual => "cmp.ge"
  | .isIn => "cmp.in"
  | .invalid => "invalid"
  | .is => "cmp.is"
  | .isNot => "cmp.is_not"
  | .less => "cmp.lt"
  | .lessEqual => "cmp.le"
  | .like => "cmp.like"
  | .not => "concat.not"
  | .notBetween => "cmp.not_between"
  | .notEqual => "cmp.ne"
  | .notIn => "cmp.not_in"
  | .notLike => "cmp.not_like"
  | .or => "concat.or"

/-- The operator of a given tag. -/
def ofTag? (tag : String) : Option Operator :=
  all.find? fun op => op.tag == tag

/-- The name of an operator. -/
def name : Operator → String
  | .and => "And"
  | .between => "Between"
  | .equal => "Equal"
  | .greater => "Greater"
  | .greaterEqual => "GreaterEqual"
  | .isIn => "In"
  | .invalid => "Invalid"
  | .is => "Is"
  | .isNot => "IsNot"
  | .less => "Less"
  | .lessEqual => "LessEqual"
  | .like => "Like"
  | .not => "Not"
  | .notBetween => "NotBetween"
  | .notEqual => "NotEqual"
  | .notIn => "NotIn"
  | .notLike => "NotLike"
  | .or => "Or"

/-- The fewest children of an operator in a well-formed node stream. -/
def minArity : Operator → Nat
  | .not | .invalid => 1
  | .between | .notBetween => 3
  | _ => 2

end Operator

end ExternalTable
