import ExternalTable.Fragment.Connective
import ExternalTable.Fragment.Pushdown
import ExternalTable.Text.Blank

/-!
# Statements

A scan is one statement: a projection of a table, restricted by a list of fragments.

* `StatementError`: why there is no statement;
* `projection`, `condition`: the two variable parts;
* `select`: the statement over fragments that are bound already;
* `selectBound`: the statement over fragments with markers, and the parameters for them.
-/

namespace ExternalTable

open Fragment

/-- Why a statement could not be written. -/
inductive StatementError where
  | emptyTable
  | bind (position : Nat) (cause : FragmentError)
  deriving DecidableEq

namespace StatementError

/-- The stable name of the kind of an error. -/
def kind : StatementError → String
  | .emptyTable => "empty_table"
  | .bind _ _ => "bind"

/-- The message of an error. -/
def message : StatementError → String
  | .emptyTable => "table name is empty"
  | .bind position cause => s!"failed to bind filter {position}: {cause.message}"

end StatementError

/-- The projection of the named columns, or a constant where none is named. -/
def projection (d : Dialect) (columns : List String) : Sql :=
  if columns.isEmpty then ['1'] else [','].intercalate (columns.map d.identifier)

/-- A fragment as it stands in a conjunction of several: in parentheses if an `OR` at its top level
would be torn apart. -/
def conjunct (d : Dialect) (fragment : Sql) : Sql :=
  if hasTopLevelOr d fragment then parenthesized fragment else fragment

/-- The conjunction of fragments.  A single fragment stands as it is. -/
def conjunction (d : Dialect) (fragments : List Sql) : Sql :=
  match fragments with
  | [] => []
  | [single] => single
  | several => " AND ".toList.intercalate (several.map (conjunct d))

/-- The condition of a statement: nothing if every fragment is blank, and otherwise the conjunction
of those that are not. -/
def condition (d : Dialect) (fragments : List Sql) : Sql :=
  let kept := fragments.filter fun f => !isBlank f
  if kept.isEmpty then [] else " WHERE ".toList ++ conjunction d kept

/-- The statement over bound fragments. -/
def select (d : Dialect) (table : String) (columns : List String) (fragments : List Sql) :
    Except StatementError Sql :=
  if table = "" then
    .error .emptyTable
  else
    .ok ("SELECT ".toList ++ projection d columns ++ " FROM ".toList ++ d.identifier table
      ++ condition d fragments)

/-- The fragments with their parameters, or the first that cannot be bound.  Positions count on from
the given one. -/
def bindAll (d : Dialect) (params : List Value) (position : Nat) :
    List Sql → Except StatementError (List Sql)
  | [] => .ok []
  | fragment :: rest =>
      match bind d params fragment with
      | .error cause => .error (.bind position cause)
      | .ok text => (bindAll d params (position + 1) rest).map (text :: ·)

/-- The statement over fragments with markers. -/
def selectBound (d : Dialect) (table : String) (columns : List String) (fragments : List Sql)
    (params : List Value) : Except StatementError Sql :=
  match bindAll d params 0 fragments with
  | .error e => .error e
  | .ok bound => select d table columns bound

end ExternalTable
