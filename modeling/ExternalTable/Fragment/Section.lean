import ExternalTable.Dialect

/-!
# Quoted sections of SQL text

A reader of SQL text has to know at every byte whether it stands within a quoted section.  A section
begins with a quote and ends with the same quote; a quote that is written twice stays in the
section, and in a literal with backslash escapes a backslash protects the byte after it.

* `Place`: where a reader stands between two bytes;
* `Place.step`: the place after one byte, and `Place.read` after one character;
* `Place.readAll`: the place after a whole text;
* `Place.openedAt?`: where the section began in which the reader stands.

The identifier quote of a dialect is looked for as a single byte.  This is the quote itself where it
is an ASCII character; a quote up to U+00FF is found as a byte of that value, wherever in a
character that byte occurs; and any other quote is not looked for.
-/

namespace ExternalTable.Fragment

/-- Where a reader stands between two bytes of SQL text. -/
inductive Place where
  /-- Outside every section. -/
  | outside
  /-- In a section that began at byte `start` with `quote`. -/
  | inside (quote : UInt8) (escapes : Bool) (start : Nat)
  /-- In a section, after a backslash that protects the next byte. -/
  | escaped (quote : UInt8) (start : Nat)
  /-- After a quote that ends a section unless the same quote follows. -/
  | closing (quote : UInt8) (escapes : Bool) (start : Nat)
  deriving DecidableEq

/-- The byte of the single quote. -/
def singleQuote : UInt8 := 39

/-- The byte of the backslash. -/
def backslash : UInt8 := 92

/-- The byte that opens and closes a quoted identifier. -/
def identifierByte? (d : Dialect) : Option UInt8 :=
  match d.identifierQuote with
  | some quote => if quote.toNat < 256 ∧ quote ≠ '\'' then some quote.toNat.toUInt8 else none
  | none => none

namespace Place

/-- The place after a byte that is read outside every section. -/
def afterOutside (d : Dialect) (offset : Nat) (byte : UInt8) : Place :=
  if byte = singleQuote then .inside byte d.backslashEscapes offset
  else if identifierByte? d = some byte then .inside byte false offset
  else .outside

/-- The place after a byte at a given offset. -/
def step (d : Dialect) (offset : Nat) : Place → UInt8 → Place
  | .outside, byte => afterOutside d offset byte
  | .inside quote escapes start, byte =>
      if escapes && byte == backslash then .escaped quote start
      else if byte = quote then .closing quote escapes start
      else .inside quote escapes start
  | .escaped quote start, _ => .inside quote true start
  | .closing quote escapes start, byte =>
      if byte = quote then .inside quote escapes start else afterOutside d offset byte

/-- The place after some bytes, the first of them at a given offset. -/
def stepAll (d : Dialect) (offset : Nat) (place : Place) : List UInt8 → Place
  | [] => place
  | byte :: rest => (place.step d offset byte).stepAll d (offset + 1) rest

/-- The place after a character. -/
def read (d : Dialect) (offset : Nat) (place : Place) (c : Char) : Place :=
  place.stepAll d offset (String.utf8EncodeChar c)

/-- The place after a text. -/
def readAll (d : Dialect) (offset : Nat) (place : Place) : List Char → Place
  | [] => place
  | c :: rest => (place.read d offset c).readAll d (offset + c.utf8Size) rest

/-- The offset at which the unfinished section began in which the reader stands, if any. -/
def openedAt? : Place → Option Nat
  | .outside => none
  | .inside _ _ start => some start
  | .escaped _ start => some start
  | .closing _ _ _ => none

end Place

end ExternalTable.Fragment
