import ExternalTable.Failure

/-!
# Data sources

A data source is an external table of which the kind and the configuration are known.

* `Source`: the plugin and the configuration;
* `Source.ofProperties`: the source that the properties of a table describe;
* `Source.pushdown`: the answers for the filters of a node stream;
* `Source.connectOptions`, `Source.resolve`, `Source.scan`: opening a scan.
-/

namespace ExternalTable

open Metrics NodeStream

/-- An external table with the plugin that reaches it. -/
structure Source where
  plugin : Plugin
  config : Config
  deriving DecidableEq

namespace Source

/-- The source of a plugin that is known already. -/
def ofPlugin (plugin : Plugin) (properties : Properties) : Except Failure Source :=
  match Config.ofProperties properties with
  | .ok config => .ok ⟨plugin, config⟩
  | .error e => .error (.config e)

/-- The source that properties describe. -/
def ofProperties (properties : Properties) : Except Failure Source :=
  match Plugin.ofProperties properties with
  | .ok plugin => ofPlugin plugin properties
  | .error e => .error (.plugin e)

/-- The answer for every filter of a node stream, in order: its fragment, or nothing where the
filter stays with the host.  A stream that cannot be decoded is answered as a whole. -/
def pushdown (s : Source) (entries : List Entry) : Except Failure (Logged (List Sql)) :=
  match decode entries with
  | .error e => .error (.decode e)
  | .ok filters =>
      let answers := pushdownAll s.plugin.dialect filters
      .ok ⟨answers.value.map Fragment.Pushdown.answer, answers.events⟩

/-- The options with a default property, unless the URL mentions its key. -/
def addDefault (o : ConnectOptions) (property : String × String) : ConnectOptions :=
  if o.urlMentions property.1 then o else o.withProperty property.1 property.2

/-- The options of a connection: those of the configuration, and the defaults of the plugin. -/
def connectOptions (s : Source) : ConnectOptions :=
  s.plugin.connectDefaults.foldl addDefault s.config.connectOptions

/-- A request with the configured table in place of its own, if one is configured. -/
def resolve (s : Source) (q : Scan.Request) : Scan.Request :=
  if s.config.table = "" then q else { q with table := s.config.table }

/-- Opens a scan of the source. -/
def scan {σ : Type} (s : Source) (r : Remote σ) (q : Scan.Request) :
    Scan.Exec σ (Except Failure Scan) := do
  match (← Scan.start r s.plugin.dialect s.connectOptions (s.resolve q)) with
  | .ok opened => return .ok opened
  | .error e => return .error (.scan e)

end Source

end ExternalTable
