import ExternalTable.Column.Basic
import ExternalTable.Dictionary
import ExternalTable.Dialect
import ExternalTable.Value

/-!
# Remote sources

A scan talks to a remote source through three handles, each got from the one before: a connection, a
statement, and a cursor over the rows of a result.

* `RemoteError`: what a remote source reports;
* `ConnectOptions`: the URL and the properties of a connection;
* `Handle`: the three handles;
* `Remote`: a source as a machine, by its answer to each call and the state after it.
-/

namespace ExternalTable

/-- An error of a remote source, by the call that it belongs to. -/
inductive RemoteError where
  | connect (message : String)
  | query (message : String)
  | fetch (message : String)
  | close (message : String)
  deriving DecidableEq

namespace RemoteError

/-- The stable name of the kind of an error. -/
def kind : RemoteError → String
  | .connect _ => "connect"
  | .query _ => "query"
  | .fetch _ => "fetch"
  | .close _ => "close"

/-- The message of an error. -/
def message : RemoteError → String
  | .connect m => "connect failed: " ++ m
  | .query m => "query failed: " ++ m
  | .fetch m => "fetch failed: " ++ m
  | .close m => "close failed: " ++ m

end RemoteError

/-- Where to connect, and with which properties. -/
structure ConnectOptions where
  url : String
  properties : Dictionary String
  deriving DecidableEq

namespace ConnectOptions

/-- The options of a URL alone. -/
def ofUrl (url : String) : ConnectOptions := ⟨url, .empty⟩

/-- The options with a property set. -/
def withProperty (o : ConnectOptions) (key value : String) : ConnectOptions :=
  { o with properties := o.properties.insert key value }

/-- The value of a property. -/
def property? (o : ConnectOptions) (key : String) : Option String :=
  o.properties.get? key

/-- Whether a text occurs within another. -/
def occursIn (part : List Char) : List Char → Bool
  | [] => part.isEmpty
  | c :: rest => part.isPrefixOf (c :: rest) || occursIn part rest

/-- Whether the URL contains a key anywhere. -/
def urlMentions (o : ConnectOptions) (key : String) : Bool :=
  occursIn key.toList o.url.toList

end ConnectOptions

/-- What a scan holds of a remote source. -/
inductive Handle where
  | cursor
  | statement
  | connection
  deriving DecidableEq

/-- The name of a handle. -/
def Handle.name : Handle → String
  | .cursor => "cursor"
  | .statement => "statement"
  | .connection => "connection"

/-- A row of a result. -/
abbrev Row := List Value

/-- A remote source with states `σ`.  Each call gives an answer and the state after it. -/
structure Remote (σ : Type) where
  connect : ConnectOptions → σ → Except RemoteError Unit × σ
  createStatement : σ → Except RemoteError Unit × σ
  /-- Executes a statement.  The answer is the columns of the result, in order. -/
  execute : Sql → σ → Except RemoteError (List Column) × σ
  /-- The next row, or none once the result is exhausted. -/
  nextRow : σ → Except RemoteError (Option Row) × σ
  close : Handle → σ → Except RemoteError Unit × σ
  /-- Whether a handle is closed already. -/
  isClosed : σ → Handle → Bool

end ExternalTable
