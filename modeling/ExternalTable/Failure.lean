import ExternalTable.NodeStream.Decoder
import ExternalTable.Scan.Basic
import ExternalTable.Source.Plugin

/-!
# Failures

Every error of the library, in one type, with the stage at which it arises and the category under
which the host sees it.

* `Failure`: the errors; `Failure.kind` and `Failure.message` of each;
* `Stage`: the stages of the engine, and `Failure.stage?`;
* `Category`: the categories, and `Failure.category`;
* `Failure.isUnreadable`: the failures whose message has no fixed text.
-/

namespace ExternalTable

open Fragment NodeStream

/-- An error of the library. -/
inductive Failure where
  | config (cause : ConfigError)
  | plugin (cause : PluginError)
  | request (cause : Scan.RequestError)
  | decode (cause : DecodeError)
  | fragment (cause : FragmentError)
  | statement (cause : StatementError)
  | scan (cause : ScanError)
  | remote (cause : RemoteError)
  deriving DecidableEq

/-- The stages of the engine. -/
inductive Stage where
  | config
  | decode
  | compile
  | query
  | execution
  deriving DecidableEq

/-- The stable name of a stage. -/
def Stage.name : Stage → String
  | .config => "config"
  | .decode => "decode"
  | .compile => "compile"
  | .query => "query"
  | .execution => "execution"

/-- The categories under which the host sees errors. -/
inductive Category where
  | config
  | registry
  | request
  | decode
  | compile
  | query
  | execution
  deriving DecidableEq

/-- The stable name of a category. -/
def Category.name : Category → String
  | .config => "Config"
  | .registry => "Registry"
  | .request => "Request"
  | .decode => "Decode"
  | .compile => "Compile"
  | .query => "Query"
  | .execution => "Execution"

namespace Failure

/-- The stable name of the kind of a failure. -/
def kind : Failure → String
  | .config e => e.kind
  | .plugin e => e.kind
  | .request e => e.kind
  | .decode e => e.kind
  | .fragment e => e.kind
  | .statement e => e.kind
  | .scan e => e.kind
  | .remote e => e.kind

/-- The message of a failure. -/
def message : Failure → String
  | .config e => e.message
  | .plugin e => e.message
  | .request e => e.message
  | .decode e => e.message
  | .fragment e => e.message
  | .statement e => e.message
  | .scan e => e.message
  | .remote e => e.message

/-- The stage of a scan's error: a statement that cannot be written is an error of the query, and
all else happens in execution. -/
def scanStage : ScanError → Stage
  | .statement _ => .query
  | _ => .execution

/-- The stage of the engine at which a failure arises.  The choice of a plugin and the reading of a
request come before the engine. -/
def stage? : Failure → Option Stage
  | .config _ => some .config
  | .plugin _ | .request _ => none
  | .decode _ => some .decode
  | .fragment _ => some .compile
  | .statement _ => some .query
  | .scan e => some (scanStage e)
  | .remote _ => some .execution

/-- The category of the failures of a stage. -/
def categoryOf : Stage → Category
  | .config => .config
  | .decode => .decode
  | .compile => .compile
  | .query => .query
  | .execution => .execution

/-- The category of a failure. -/
def category : Failure → Category
  | .plugin _ => .registry
  | .request _ => .request
  | .config _ => .config
  | .decode _ => .decode
  | .fragment _ => .compile
  | .statement _ => .query
  | .scan e => categoryOf (scanStage e)
  | .remote _ => .execution

/-- The category of a failure of the engine is that of its stage. -/
theorem category_eq_categoryOf {f : Failure} {s : Stage} (h : f.stage? = some s) :
    f.category = categoryOf s := by
  cases f <;> simp_all [stage?, category] <;> subst h <;> rfl

/-- Whether the text of the message is free: where a document could not be read. -/
def isUnreadable : Failure → Bool
  | .config .unreadable | .request .unreadable => true
  | _ => false

end Failure

end ExternalTable
