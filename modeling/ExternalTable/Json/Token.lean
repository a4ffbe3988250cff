import ExternalTable.Text.Digits

/-!
# Tokens of JSON text

JSON text is cut into tokens by a machine that reads one character at a time.

* `Piece`: what one step within a string stands for, a character or an escaped code unit;
* `Numeral`: a number as it is written, and `Numeral.read?` its grammar;
* `Token`: punctuation, words, numbers and strings;
* `Mode`, `Mode.step`, `Mode.scan`: the machine;
* `tokens?`: the tokens of a text.

The machine checks the syntax of strings and numbers.  It does not ask whether the escapes of a
string make up characters or whether a number is in range, because a reader may skip them.
-/

namespace ExternalTable.Json

/-- A part of a string: a character, or a code unit of sixteen bits given in hexadecimal. -/
inductive Piece where
  | char (c : Char)
  | unit (code : Nat)
  deriving DecidableEq

/-- A number as it is written. -/
structure Numeral where
  negative : Bool
  whole : List Char
  fraction : Option (List Char)
  exponent : Option Int
  deriving DecidableEq

namespace Numeral

/-- The digits in front of a text, and the rest. -/
def splitDigits (text : List Char) : List Char × List Char :=
  (text.takeWhile Char.isDigit, text.dropWhile Char.isDigit)

/-- The digits after an optional sign, which have to be all of a text, as an integer. -/
def readExponent? : List Char → Option Int
  | '-' :: digits => if digits.isEmpty || !digits.all Char.isDigit then none
      else some (-(Digits.value digits : Int))
  | '+' :: digits => if digits.isEmpty || !digits.all Char.isDigit then none
      else some (Digits.value digits)
  | digits => if digits.isEmpty || !digits.all Char.isDigit then none
      else some (Digits.value digits)

/-- The number after its fraction, if any: nothing more, or an exponent. -/
def readTail? (negative : Bool) (whole : List Char) (fraction : Option (List Char)) :
    List Char → Option Numeral
  | [] => some ⟨negative, whole, fraction, none⟩
  | c :: rest =>
      if c = 'e' ∨ c = 'E' then
        (readExponent? rest).map fun e => ⟨negative, whole, fraction, some e⟩
      else
        none

/-- The number after its sign. -/
def readMagnitude? (negative : Bool) (text : List Char) : Option Numeral :=
  match splitDigits text with
  | ([], _) => none
  | ('0' :: _ :: _, _) => none
  | (whole, '.' :: rest) =>
      match splitDigits rest with
      | ([], _) => none
      | (fraction, rest) => readTail? negative whole (some fraction) rest
  | (whole, rest) => readTail? negative whole none rest

/-- A number from its whole text. -/
def read? : List Char → Option Numeral
  | '-' :: rest => readMagnitude? true rest
  | text => readMagnitude? false text

end Numeral

/-- The units of JSON syntax. -/
inductive Token where
  | openObject
  | closeObject
  | openArray
  | closeArray
  | comma
  | colon
  | null
  | bool (b : Bool)
  | number (n : Numeral)
  | text (pieces : List Piece)
  deriving DecidableEq

/-- Where the machine stands between two characters.  What has been read of a token is kept in
reverse. -/
inductive Mode where
  | between
  | word (letters : List Char)
  | number (chars : List Char)
  | text (pieces : List Piece)
  | escape (pieces : List Piece)
  /-- Within a hexadecimal escape, after `count` digits. -/
  | hex (pieces : List Piece) (count code : Nat)
  deriving DecidableEq

namespace Mode

/-- Whether a character goes on with a number. -/
def isNumberChar (c : Char) : Bool :=
  c.isDigit || c == '-' || c == '+' || c == '.' || c == 'e' || c == 'E'

/-- The value of a hexadecimal digit. -/
def hexValue? (c : Char) : Option Nat :=
  if c.isDigit then some (c.toNat - '0'.toNat)
  else if 'a' ≤ c ∧ c ≤ 'f' then some (c.toNat - 'a'.toNat + 10)
  else if 'A' ≤ c ∧ c ≤ 'F' then some (c.toNat - 'A'.toNat + 10)
  else none

/-- The character that a single escape letter stands for. -/
def escaped? : Char → Option Char
  | '"' => some '"'
  | '\\' => some '\\'
  | '/' => some '/'
  | 'b' => some '\x08'
  | 'f' => some '\x0c'
  | 'n' => some '\n'
  | 'r' => some '\r'
  | 't' => some '\t'
  | _ => none

/-- The token of a complete word. -/
def wordToken? (letters : List Char) : Option Token :=
  if letters = "null".toList then some .null
  else if letters = "true".toList then some (.bool true)
  else if letters = "false".toList then some (.bool false)
  else none

/-- Reads a character between two tokens. -/
def begin (c : Char) : Option (Mode × List Token) :=
  if c = ' ' ∨ c = '\t' ∨ c = '\n' ∨ c = '\r' then some (.between, [])
  else if c = '\x7b' then some (.between, [.openObject])
  else if c = '\x7d' then some (.between, [.closeObject])
  else if c = '[' then some (.between, [.openArray])
  else if c = ']' then some (.between, [.closeArray])
  else if c = ',' then some (.between, [.comma])
  else if c = ':' then some (.between, [.colon])
  else if c = '"' then some (.text [], [])
  else if c.isDigit || c == '-' then some (.number [c], [])
  else if c.isAlpha then some (.word [c], [])
  else none

/-- The token that ends where the machine stands, if one can end there. -/
def finish : Mode → Option (List Token)
  | .between => some []
  | .word letters => (wordToken? letters.reverse).map ([·])
  | .number chars => (Numeral.read? chars.reverse).map fun n => [.number n]
  | _ => none

/-- Ends a token and reads the character after it. -/
def restart (mode : Mode) (c : Char) : Option (Mode × List Token) :=
  match mode.finish, begin c with
  | some ended, some (next, started) => some (next, ended ++ started)
  | _, _ => none

/-- Reads one character.  The answer is the next state and the tokens that are complete. -/
def step (mode : Mode) (c : Char) : Option (Mode × List Token) :=
  match mode with
  | .between => begin c
  | .word letters => if c.isAlpha then some (.word (c :: letters), []) else mode.restart c
  | .number chars => if isNumberChar c then some (.number (c :: chars), []) else mode.restart c
  | .text pieces =>
      if c = '"' then some (.between, [.text pieces.reverse])
      else if c = '\\' then some (.escape pieces, [])
      else if c.toNat < 0x20 then none
      else some (.text (.char c :: pieces), [])
  | .escape pieces =>
      if c = 'u' then some (.hex pieces 0 0, [])
      else (escaped? c).map fun e => (.text (.char e :: pieces), [])
  | .hex pieces count code =>
      (hexValue? c).map fun digit =>
        if count = 3 then (.text (.unit (code * 16 + digit) :: pieces), [])
        else (.hex pieces (count + 1) (code * 16 + digit), [])

/-- The tokens of the rest of a text. -/
def scan (mode : Mode) : List Char → Option (List Token)
  | [] => mode.finish
  | c :: rest =>
      match mode.step c with
      | none => none
      | some (next, ended) => (next.scan rest).map (ended ++ ·)

end Mode

/-- The tokens of a text, if each is well formed. -/
def tokens? (text : List Char) : Option (List Token) :=
  Mode.between.scan text

end ExternalTable.Json
