import ExternalTable.Text.Unprintable

/-!
# Text in diagnostics

Text is shown between double quotes, with an escape for every character that would not show or would
be mistaken for a quote.

* `Diagnostic.escape`: one character;
* `Diagnostic.quote`: a whole text.
-/

namespace ExternalTable.Diagnostic

/-- The escape of a code point by its number: lower-case hexadecimal digits in braces. -/
def escapeCode (code : Nat) : List Char :=
  "\\u\x7b".toList ++ Nat.toDigits 16 code ++ ['\x7d']

/-- A character as it is shown. -/
def escape : Char → List Char
  | '\x00' => ['\\', '0']
  | '\t' => ['\\', 't']
  | '\n' => ['\\', 'n']
  | '\r' => ['\\', 'r']
  | '"' => ['\\', '"']
  | '\\' => ['\\', '\\']
  | c => if isUnprintable c then escapeCode c.toNat else [c]

/-- A text as it is shown. -/
def quote (text : List Char) : List Char :=
  '"' :: text.flatMap escape ++ ['"']

end ExternalTable.Diagnostic
