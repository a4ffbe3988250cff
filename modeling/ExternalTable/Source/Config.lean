import ExternalTable.Json.Record
import ExternalTable.Json.Writer
import ExternalTable.Remote.Basic
import ExternalTable.Text.Diagnostic

/-!
# Source configuration

The host describes an external table by text properties, one of which is a JSON document with the
connection and the table.

* `ConfigError`: why there is no configuration;
* `Config`: the settings of one table;
* `Config.ofJson`, `Config.ofProperties`: reading them;
* `Config.display`: the settings as a JSON document that does not show the password;
* `Config.inspect`: the settings for diagnostics, without the password either;
* `Config.connectOptions`: the options of a connection.
-/

namespace ExternalTable

/-- The properties of an external table. -/
abbrev Properties := Dictionary String

/-- The property that holds the configuration document. -/
def parametersKey : String := "parameters"

/-- The settings whose values are never shown. -/
def sensitiveKeys : List String := ["password"]

/-- What is shown in place of a sensitive value. -/
def maskText : String := "****"

/-- Whether the value of a setting must not be shown. -/
def isSensitive (key : String) : Bool :=
  sensitiveKeys.contains key

/-- Why there is no configuration. -/
inductive ConfigError where
  | missingProperty (key : String)
  | unreadable
  | missingField (field : String)
  deriving DecidableEq

namespace ConfigError

/-- The stable name of the kind of an error. -/
def kind : ConfigError → String
  | .missingProperty _ => "missing_property"
  | .unreadable => "parse"
  | .missingField _ => "missing_field"

/-- The message of an error. -/
def message : ConfigError → String
  | .missingProperty key => s!"property '{key}' is missing"
  | .unreadable => "failed to parse source parameters: not a configuration document"
  | .missingField field => s!"source parameter '{field}' is required"

end ConfigError

/-- The connection and the table of an external table. -/
structure Config where
  url : String
  user : String
  password : Option String
  table : String
  deriving DecidableEq

namespace Config

/-- The names of the settings, in the order of their declaration. -/
def fieldNames : List String := ["jdbc_url", "user", "password", "table"]

/-- The settings of a document, each of which may be missing.  The document is an object, or an
array of all four settings. -/
def settings? (document : List Char) : Option (List (Option String)) :=
  match Json.Raw.read? document with
  | none => none
  | some raw =>
      match Json.Record.fields? fieldNames true raw with
      | none => none
      | some contents => contents.mapM (Json.Record.withDefault? Json.Record.optionalText? none)

/-- A setting that must be there. -/
def require (field : String) (setting : Option String) : Except ConfigError String :=
  match setting with
  | some s => .ok s
  | none => .error (.missingField field)

/-- The configuration of a JSON document. -/
def ofJson (document : String) : Except ConfigError Config :=
  match settings? document.toList with
  | some [url, user, password, table] => do
      let url ← require "jdbc_url" url
      let user ← require "user" user
      let table ← require "table" table
      return ⟨url, user, password, table⟩
  | _ => .error .unreadable

/-- The configuration of a table with the given properties. -/
def ofProperties (properties : Properties) : Except ConfigError Config :=
  match properties.get? parametersKey with
  | some document => ofJson document
  | none => .error (.missingProperty parametersKey)

/-- The settings by name, in the order of their declaration. -/
def entries (c : Config) : List (String × Option String) :=
  [("jdbc_url", some c.url), ("user", some c.user), ("password", c.password),
    ("table", some c.table)]

/-- What is shown of a setting: its value, or the mask for a sensitive one, set or not. -/
def shown (key : String) (value : Option String) : Option String :=
  if isSensitive key then some maskText else value

/-- The JSON text of an optional text. -/
def jsonText : Option String → List Char
  | some s => Json.quote s.toList
  | none => "null".toList

/-- The configuration as a JSON object in the order of the keys, with sensitive values masked. -/
def display (c : Config) : List Char :=
  let members : Dictionary (List Char) :=
    .ofList (c.entries.map fun (key, value) => (key, jsonText (shown key value)))
  Json.writeObject members.entries

/-- The configuration for diagnostics: the settings in the order of their declaration, with
sensitive values masked. -/
def inspect (c : Config) : List Char :=
  let settings := c.entries.map fun (key, value) =>
    key.toList ++ ": ".toList ++ Diagnostic.quote ((shown key value).getD "").toList
  "SourceConfig \x7b ".toList ++ ", ".toList.intercalate settings ++ " \x7d".toList

/-- The options of a connection: the URL, the user, and the password if there is one. -/
def connectOptions (c : Config) : ConnectOptions :=
  let options := (ConnectOptions.ofUrl c.url).withProperty "user" c.user
  match c.password with
  | some password => options.withProperty "password" password
  | none => options

end Config

end ExternalTable
