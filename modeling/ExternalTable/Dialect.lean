import ExternalTable.Text.Quoted

/-!
# Dialects

What differs between remote sources in the spelling of SQL.

* `Dialect`: the quote for identifiers, if any, and whether a backslash escapes within literals;
* `Dialect.generic`, `Dialect.mysql`: the dialects of the two kinds of source;
* `Dialect.identifier`: the spelling of a name;
* `Dialect.acceptsIdentifier`: whether a name can stand in a predicate.

SQL is handled as its list of characters, `Sql`.
-/

namespace ExternalTable

/-- SQL text, character by character. -/
abbrev Sql := List Char

/-- The spelling rules of a remote source. -/
structure Dialect where
  name : String
  /-- The character that encloses identifiers; without one they are written as they are. -/
  identifierQuote : Option Char
  /-- Whether a backslash within a text literal protects the character after it. -/
  backslashEscapes : Bool
  deriving DecidableEq

namespace Dialect

/-- The plain dialect: identifiers are not quoted. -/
def generic : Dialect := ⟨"generic", none, false⟩

/-- The dialect of the MySQL family: backquoted identifiers, and backslash escapes in literals. -/
def mysql : Dialect := ⟨"mysql", some '\x60', true⟩

/-- The spelling of a name: enclosed in the identifier quote with that quote doubled, or as it is in
a dialect that quotes no identifiers. -/
def identifier (d : Dialect) (name : String) : Sql :=
  match d.identifierQuote with
  | some quote => Quoted.enclose quote (· == quote) name.toList
  | none => name.toList

/-- Whether a character can stand in a name that is not quoted: an ASCII letter or digit, an
underscore, a dollar sign, or the point of a qualified name. -/
def isBareChar (c : Char) : Bool :=
  c.isAlphanum || c == '_' || c == '$' || c == '.'

/-- Whether a name can stand in a predicate.  Without an identifier quote it has to be bare. -/
def acceptsIdentifier (d : Dialect) (name : String) : Bool :=
  d.identifierQuote.isSome || (!name.toList.isEmpty && name.toList.all isBareChar)

/-- The spelling of a text: between single quotes, with single quotes doubled, and backslashes too
where they escape. -/
def textLiteral (d : Dialect) (text : List Char) : Sql :=
  Quoted.enclose '\'' (fun c => c == '\'' || (d.backslashEscapes && c == '\\')) text

end Dialect

end ExternalTable
