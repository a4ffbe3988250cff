import ExternalTable.Fragment.Section
import ExternalTable.Literal

/-!
# Binding parameters into fragments

A fragment marks the place of a runtime parameter by its number in braces.  Binding replaces every
marker outside quoted sections by the literal of its parameter, and copies all else.  The text that
takes the place of a marker is not read again.

* `FragmentError`: why a fragment cannot be bound;
* `Cursor`, `Cursor.step`: the reader as a machine, within SQL text or within a marker;
* `bind`: the bound text.
-/

namespace ExternalTable.Fragment

/-- Why a fragment could not be made.  Offsets count bytes of the encoded text. -/
inductive FragmentError where
  | format (context : String)
  | missingParameter (index available : Nat)
  | unrenderableParameter (index : Nat) (cause : LiteralError)
  | malformedMarker (offset : Nat)
  | unterminatedQuote (offset : Nat)
  deriving DecidableEq

namespace FragmentError

/-- The stable name of the kind of an error. -/
def kind : FragmentError → String
  | .format _ => "format"
  | .missingParameter _ _ => "missing_parameter"
  | .unrenderableParameter _ _ => "unrenderable_parameter"
  | .malformedMarker _ => "malformed_marker"
  | .unterminatedQuote _ => "unterminated_quote"

/-- The message of an error. -/
def message : FragmentError → String
  | .format context => s!"failed to format {context}"
  | .missingParameter index available =>
      s!"placeholder {index} has no bound parameter ({available} supplied)"
  | .unrenderableParameter index cause =>
      s!"parameter {index} cannot be rendered: {cause.message}"
  | .malformedMarker offset => s!"malformed placeholder marker at byte {offset}"
  | .unterminatedQuote offset => s!"unterminated quoted section starting at byte {offset}"

end FragmentError

/-- The literal of a parameter. -/
def parameter (d : Dialect) (params : List Value) (index : Nat) : Except FragmentError Sql :=
  match params[index]? with
  | none => .error (.missingParameter index params.length)
  | some value =>
      match value.literal d with
      | .ok text => .ok text
      | .error cause => .error (.unrenderableParameter index cause)

/-- The character that begins a marker. -/
def markerOpen : Char := '\x7b'

/-- The character that ends a marker. -/
def markerClose : Char := '\x7d'

/-- The marker of a parameter: its number in braces. -/
def marker (index : Nat) : Sql :=
  markerOpen :: Digits.ofNat index ++ [markerClose]

/-- The state of the reader. -/
inductive Cursor where
  /-- Within SQL text. -/
  | text (place : Place)
  /-- Within a marker that began at byte `start`, after the digits of `index` if there were any. -/
  | marker (start : Nat) (index : Option Nat)
  deriving DecidableEq

namespace Cursor

/-- The number after one more decimal digit. -/
def appendDigit (index : Option Nat) (digit : Char) : Nat :=
  index.getD 0 * 10 + (digit.toNat - '0'.toNat)

/-- Reads one character.  The answer is the next state and the text to write. -/
def step (d : Dialect) (params : List Value) (offset : Nat) (c : Char) :
    Cursor → Except FragmentError (Cursor × Sql)
  | .text place =>
      let next := place.read d offset c
      if c = markerOpen ∧ next = .outside then .ok (.marker offset none, [])
      else .ok (.text next, [c])
  | .marker start index =>
      if c.isDigit then
        .ok (.marker start (some (appendDigit index c)), [])
      else
        match index with
        | some n =>
            if c = markerClose ∧ n < twoPow 64 then
              (parameter d params n).map fun text => (.text .outside, text)
            else
              .error (.malformedMarker start)
        | none => .error (.malformedMarker start)

/-- Ends the text, which is an error within a section or a marker. -/
def finish : Cursor → Except FragmentError Unit
  | .marker start _ => .error (.malformedMarker start)
  | .text place =>
      match place.openedAt? with
      | some start => .error (.unterminatedQuote start)
      | none => .ok ()

/-- Reads the rest of a text that goes on at a given offset, up to the first error. -/
def run (d : Dialect) (params : List Value) (offset : Nat) (cursor : Cursor) :
    List Char → Except FragmentError Sql
  | [] => cursor.finish.map fun _ => []
  | c :: rest =>
      match cursor.step d params offset c with
      | .error e => .error e
      | .ok (next, written) => (next.run d params (offset + c.utf8Size) rest).map (written ++ ·)

end Cursor

/-- The fragment with every marker replaced by the literal of its parameter. -/
def bind (d : Dialect) (params : List Value) (fragment : Sql) : Except FragmentError Sql :=
  (Cursor.text .outside).run d params 0 fragment

end ExternalTable.Fragment
