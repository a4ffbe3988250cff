import ExternalTable.Dialect
import ExternalTable.Source.Config

/-!
# Plugins

A plugin says how to talk to one kind of remote source.

* `Plugin`: its dialect, and the connection properties that it adds by default;
* `Plugin.all`: the plugins, `Plugin.ofName` the one of a name;
* `Plugin.ofProperties`: the plugin that the properties of a table ask for.
-/

namespace ExternalTable

/-- A kind of remote source. -/
structure Plugin where
  name : String
  dialect : Dialect
  /-- Connection properties that are added unless the URL mentions them. -/
  connectDefaults : List (String × String)
  deriving DecidableEq

/-- Why there is no plugin. -/
inductive PluginError where
  | unspecified
  | unknown (name : String)
  deriving DecidableEq

namespace Plugin

/-- The generic source: identifiers are not quoted, and nothing is added to a connection. -/
def jdbc : Plugin := ⟨"jdbc", .generic, []⟩

/-- The MySQL family.  Times travel in UTC, zero dates are rounded instead of failing, small
integers stay integers, and text is UTF-8. -/
def mysql : Plugin where
  name := "mysql"
  dialect := .mysql
  connectDefaults :=
    [("connectionTimeZone", "UTC"), ("forceConnectionTimeZoneToSession", "true"),
      ("zeroDateTimeBehavior", "round"), ("tinyInt1isBit", "false"),
      ("characterEncoding", "UTF-8")]

/-- Every plugin. -/
def all : List Plugin := [jdbc, mysql]

/-- The names of the plugins. -/
def names : List String := all.map Plugin.name

/-- The property that names a plugin directly. -/
def classKey : String := "plugin_class"

/-- The properties that may name a plugin, the first that is there deciding. -/
def lookupKeys : List String := [classKey, "ob.plugin_name", "plugin_name"]

/-- The plugin of exactly the given name. -/
def ofName (name : String) : Except PluginError Plugin :=
  match all.find? fun p => p.name == name with
  | some p => .ok p
  | none => .error (.unknown name)

/-- The plugin that properties ask for. -/
def ofProperties (properties : Properties) : Except PluginError Plugin :=
  match lookupKeys.findSome? properties.get? with
  | some name => ofName name
  | none => .error .unspecified

end Plugin

namespace PluginError

/-- The stable name of the kind of an error. -/
def kind : PluginError → String
  | .unspecified => "unspecified"
  | .unknown _ => "unknown"

/-- The message of an error, which lists the plugins. -/
def message : PluginError → String
  | .unspecified =>
      s!"no plugin specified; set '{Plugin.classKey}' or a plugin name, one of: "
        ++ ", ".intercalate Plugin.names
  | .unknown name =>
      s!"unknown plugin '{name}', expected one of: " ++ ", ".intercalate Plugin.names

end PluginError

end ExternalTable
