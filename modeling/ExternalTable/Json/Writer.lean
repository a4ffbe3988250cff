import ExternalTable.Text.Digits

/-!
# Writing JSON text

* `Json.quote`: a text as a JSON string, with the fewest escapes;
* `Json.writeObject`: an object from its members, without white space.
-/

namespace ExternalTable.Json

/-- A hexadecimal digit, in lower case. -/
def hexDigit (n : Nat) : Char :=
  if n < 10 then Char.ofNat ('0'.toNat + n) else Char.ofNat ('a'.toNat + (n - 10))

/-- A character within a string.  Quotes, backslashes and control characters are escaped, the latter
by a letter if they have one, and all else stands for itself. -/
def escape : Char → List Char
  | '"' => ['\\', '"']
  | '\\' => ['\\', '\\']
  | '\x08' => ['\\', 'b']
  | '\x0c' => ['\\', 'f']
  | '\n' => ['\\', 'n']
  | '\r' => ['\\', 'r']
  | '\t' => ['\\', 't']
  | c =>
      if c.toNat < 0x20 then
        ['\\', 'u', '0', '0', hexDigit (c.toNat / 16), hexDigit (c.toNat % 16)]
      else
        [c]

/-- A text as a JSON string. -/
def quote (text : List Char) : List Char :=
  '"' :: text.flatMap escape ++ ['"']

/-- An object of members that are written already. -/
def writeObject (members : List (String × List Char)) : List Char :=
  '\x7b' :: [','].intercalate (members.map fun (key, value) => quote key.toList ++ ':' :: value)
    ++ ['\x7d']

end ExternalTable.Json
