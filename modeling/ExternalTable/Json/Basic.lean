import ExternalTable.Json.Token
import ExternalTable.Number.Nearest

/-!
# JSON documents

* `Raw`: a document by its syntax, and `Raw.read?` the reading of a text;
* `Frame`, `State`, `State.step`: the machine that builds a document from tokens;
* `Json`: a document by its meaning, with texts and numbers that are in range;
* `Raw.json?`: the meaning of a document, within a bound on the nesting of arrays and objects.
-/

namespace ExternalTable.Json

/-- A document by its syntax. -/
inductive Raw where
  | null
  | bool (b : Bool)
  | number (n : Numeral)
  | text (pieces : List Piece)
  | array (items : List Raw)
  | object (members : List (List Piece × Raw))

/-- An array or object that is not complete, with what it holds so far in reverse. -/
inductive Frame where
  | array (items : List Raw)
  | object (members : List (List Piece × Raw)) (key : List Piece)

/-- What the machine expects next.  The frames are those around the current place, innermost
first. -/
inductive State where
  /-- A value. -/
  | value (frames : List Frame)
  /-- The first item of an array, or its end. -/
  | firstItem (frames : List Frame)
  /-- The first key of an object, or its end. -/
  | firstKey (frames : List Frame)
  /-- A key, after the members of its object. -/
  | key (members : List (List Piece × Raw)) (frames : List Frame)
  /-- The colon after a key. -/
  | colon (members : List (List Piece × Raw)) (key : List Piece) (frames : List Frame)
  /-- What may follow a value. -/
  | after (value : Raw) (frames : List Frame)

namespace State

/-- Begins a value. -/
def beginValue (frames : List Frame) : Token → Option State
  | .null => some (.after .null frames)
  | .bool b => some (.after (.bool b) frames)
  | .number n => some (.after (.number n) frames)
  | .text pieces => some (.after (.text pieces) frames)
  | .openArray => some (.firstItem frames)
  | .openObject => some (.firstKey frames)
  | _ => none

/-- Reads one token. -/
def step : State → Token → Option State
  | .value frames, token => beginValue frames token
  | .firstItem frames, .closeArray => some (.after (.array []) frames)
  | .firstItem frames, token => beginValue (.array [] :: frames) token
  | .firstKey frames, .closeObject => some (.after (.object []) frames)
  | .firstKey frames, .text name => some (.colon [] name frames)
  | .key members frames, .text name => some (.colon members name frames)
  | .colon members name frames, .colon => some (.value (.object members name :: frames))
  | .after v (.array items :: frames), .comma => some (.value (.array (v :: items) :: frames))
  | .after v (.array items :: frames), .closeArray =>
      some (.after (.array (v :: items).reverse) frames)
  | .after v (.object members name :: frames), .comma => some (.key ((name, v) :: members) frames)
  | .after v (.object members name :: frames), .closeObject =>
      some (.after (.object ((name, v) :: members).reverse) frames)
  | _, _ => none

/-- Reads the rest of the tokens. -/
def run (s : State) : List Token → Option State
  | [] => some s
  | token :: rest =>
      match s.step token with
      | none => none
      | some next => next.run rest

end State

/-- The document that a list of tokens makes up. -/
def Raw.ofTokens? (tokens : List Token) : Option Raw :=
  match (State.value []).run tokens with
  | some (.after v []) => some v
  | _ => none

/-- The document of a text: one value, with white space around its tokens and nothing after it. -/
def Raw.read? (text : List Char) : Option Raw :=
  match tokens? text with
  | some tokens => Raw.ofTokens? tokens
  | none => none

/-- Whether a code unit is the first of a pair. -/
def isHighSurrogate (code : Nat) : Bool :=
  decide (0xD800 ≤ code ∧ code < 0xDC00)

/-- Whether a code unit is the second of a pair. -/
def isLowSurrogate (code : Nat) : Bool :=
  decide (0xDC00 ≤ code ∧ code < 0xE000)

/-- The characters of a string.  Code units beyond the first plane come in pairs; one that stands
alone is no character. -/
def characters? : List Piece → Option (List Char)
  | [] => some []
  | .char c :: rest => (characters? rest).map (c :: ·)
  | .unit high :: .unit low :: rest =>
      if isHighSurrogate high then
        if isLowSurrogate low then
          (characters? rest).map
            (Char.ofNat (0x10000 + (high - 0xD800) * 0x400 + (low - 0xDC00)) :: ·)
        else
          none
      else if isLowSurrogate high then
        none
      else
        (characters? (.unit low :: rest)).map (Char.ofNat high :: ·)
  | .unit code :: rest =>
      if isHighSurrogate code || isLowSurrogate code then none
      else (characters? rest).map (Char.ofNat code :: ·)

end Json

/-- A document by its meaning. -/
inductive Json where
  | null
  | bool (b : Bool)
  | int (n : Int64)
  | uint (n : UInt64)
  | float (bits : UInt64)
  | text (s : String)
  | array (items : List Json)
  | object (members : List (String × Json))

namespace Json

/-- The bits of a floating-point number with a sign. -/
def signed (negative : Bool) (bits : Nat) : UInt64 :=
  (if negative then twoPow 63 + bits else bits).toUInt64

/-- The floating-point number nearest to a written one, if it is finite. -/
def Numeral.float? (n : Numeral) : Option Json :=
  let digits := n.whole ++ n.fraction.getD []
  (nearestDouble? (Digits.value digits) digits.length
      (n.exponent.getD 0 - (n.fraction.getD []).length)).map fun bits =>
    .float (signed n.negative bits)

/-- The meaning of a number.  Whole numbers in range are integers, signed before unsigned; every
other number, a negative zero among them, is a floating-point number. -/
def Numeral.json? (n : Numeral) : Option Json :=
  let magnitude := Digits.value n.whole
  if n.fraction.isSome || n.exponent.isSome then
    n.float?
  else if n.negative then
    if 0 < magnitude ∧ magnitude ≤ twoPow 63 then
      some (.int (Int64.ofInt (-(magnitude : Int))))
    else
      n.float?
  else if magnitude < twoPow 63 then
    some (.int (Int64.ofNat magnitude))
  else if magnitude < twoPow 64 then
    some (.uint magnitude.toUInt64)
  else
    n.float?

/-- The text of a string. -/
def text? (pieces : List Piece) : Option String :=
  (characters? pieces).map String.ofList

mutual

/-- The meaning of a document in which arrays and objects nest at most `levels` deep. -/
def Raw.json? (levels : Nat) : Raw → Option Json
  | .null => some .null
  | .bool b => some (.bool b)
  | .number n => n.json?
  | .text pieces => (text? pieces).map .text
  | .array items =>
      match levels with
      | 0 => none
      | levels + 1 => (Raw.jsonAll? levels items).map .array
  | .object members =>
      match levels with
      | 0 => none
      | levels + 1 => (Raw.jsonMembers? levels members).map .object

/-- The meaning of the items of an array. -/
def Raw.jsonAll? (levels : Nat) : List Raw → Option (List Json)
  | [] => some []
  | item :: rest =>
      match Raw.json? levels item with
      | none => none
      | some j => (Raw.jsonAll? levels rest).map (j :: ·)

/-- The meaning of the members of an object. -/
def Raw.jsonMembers? (levels : Nat) : List (List Piece × Raw) → Option (List (String × Json))
  | [] => some []
  | (key, item) :: rest =>
      match text? key, Raw.json? levels item with
      | some k, some j => (Raw.jsonMembers? levels rest).map ((k, j) :: ·)
      | _, _ => none

end

end Json

end ExternalTable
