import Mathlib.Data.List.TakeWhile
import ExternalTable.Proofs.IdentifierQuote

/-!
# Tokens of fragments

A fragment read as a row of tokens: whole quoted sections, numbers in braces, and single bytes.
Binding is what it is told to be of this row.  It copies the bytes of each token in turn, but for
numbers in braces, in place of which it writes the literal of a parameter, and gives up at the first
token for which this cannot be done.  This holds of every dialect, also of those whose identifier
quote is a byte within longer characters.

* `section?`, `marker?`: the end of a quoted section, and of a number in braces;
* `Token`, `nextToken`, `tokens`: the tokens of some bytes;
* `Token.write`, `writeAll`: what tokens write, up to the first that cannot be written;
* `Cursor.runBytes`: the reader of fragments, one byte after the other;
* `runBytes_encode`, `runBytes_tokens`: the reader of bytes between the reader of characters and the
  tokens;
* `writeAll_eq_error_iff`: the first token that cannot be written;
* `IsBoundary`, `isBoundary_within`: the offsets between characters, at which alone a text may be cut;
* `bind_tokens`: the main statement.
-/

namespace ExternalTable.Fragment

/-! ### Tokens -/

/-- The bytes of a text. -/
def encode (t : Sql) : List UInt8 :=
  t.flatMap String.utf8EncodeChar

/-- Whether a byte is that of a decimal digit. -/
def isDigitByte (b : UInt8) : Bool :=
  48 ≤ b.toNat && b.toNat ≤ 57

/-- The number that the bytes of digits stand for, after the digits of another one. -/
def numberFrom (n : Nat) (digits : List UInt8) : Nat :=
  digits.foldl (fun n b => n * 10 + (b.toNat - 48)) n

/-- Whether two bytes stay in a section together: a backslash that escapes and the byte that it
protects, or the quote twice. -/
def isPair (quote : UInt8) (escapes : Bool) (b c : UInt8) : Bool :=
  (escapes && b == byteOf '\\') || (b == quote && c == quote)

/-- What follows an opening quote, divided behind the quote that ends the section, if there is
one. -/
def section? (quote : UInt8) (escapes : Bool) : List UInt8 → Option (List UInt8 × List UInt8)
  | [] => none
  | [b] => if b = quote ∧ ¬ (escapes && b == byteOf '\\') then some ([b], []) else none
  | b :: c :: rest =>
      if isPair quote escapes b c then
        (section? quote escapes rest).map fun (inner, after) => (b :: c :: inner, after)
      else if b = quote then
        some ([b], c :: rest)
      else
        (section? quote escapes (c :: rest)).map fun (inner, after) => (b :: inner, after)

/-- What follows an opening brace, divided into digits, at least one, and what comes behind the
closing brace that follows them. -/
def marker? (bytes : List UInt8) : Option (List UInt8 × List UInt8) :=
  let digits := bytes.takeWhile isDigitByte
  let after := bytes.dropWhile isDigitByte
  if digits ≠ [] ∧ after.head? = some (byteOf '\x7d') then some (digits, after.tail) else none

/-- Whether a byte opens a quoted section, and if so whether backslashes escape in it.  The quote of
identifiers opens a section where its number is that of the byte. -/
def opening? (d : Dialect) (b : UInt8) : Option Bool :=
  if b = byteOf '\'' then some d.backslashEscapes
  else if d.identifierQuote.map Char.toNat = some b.toNat then some false
  else none

/-- A piece of a fragment. -/
inductive Token where
  /-- A quoted section: its opening quote, and the bytes after it up to the closing one. -/
  | quoted (quote : UInt8) (inner : List UInt8)
  /-- A section that does not end. -/
  | unterminated (quote : UInt8) (inner : List UInt8)
  /-- Digits in braces. -/
  | marker (digits : List UInt8)
  /-- A byte that belongs to none of these. -/
  | other (byte : UInt8)
  deriving DecidableEq

/-- The bytes of a token. -/
def Token.bytes : Token → List UInt8
  | .quoted quote inner | .unterminated quote inner => quote :: inner
  | .marker digits => byteOf '\x7b' :: digits ++ [byteOf '\x7d']
  | .other b => [b]

/-- The token that begins with a given byte, and what follows it. -/
def nextToken (d : Dialect) (b : UInt8) (rest : List UInt8) : Token × List UInt8 :=
  match opening? d b with
  | some escapes =>
      match section? b escapes rest with
      | some (inner, after) => (.quoted b inner, after)
      | none => (.unterminated b rest, [])
  | none =>
      match if b = byteOf '\x7b' then marker? rest else none with
      | some (digits, after) => (.marker digits, after)
      | none => (.other b, rest)

/-- A section ends just before a byte that is not its quote, and nothing is lost by dividing. -/
theorem section?_spec {quote : UInt8} {escapes : Bool} {bytes inner after : List UInt8}
    (h : section? quote escapes bytes = some (inner, after)) :
    inner ++ after = bytes ∧ after.head? ≠ some quote := by
  induction bytes using section?.induct quote escapes generalizing inner after with
  | case1 => cases h
  | case2 b hb =>
    rw [section?, if_pos hb] at h
    cases h
    exact ⟨rfl, by simp⟩
  | case3 b hb =>
    rw [section?, if_neg hb] at h
    cases h
  | case4 b c rest hpair ih =>
    rw [section?, if_pos hpair] at h
    obtain ⟨⟨inner', after'⟩, hrest, heq⟩ := Option.map_eq_some_iff.1 h
    cases heq
    obtain ⟨hbytes, hhead⟩ := ih hrest
    exact ⟨by simp [hbytes], hhead⟩
  | case5 c rest hpair =>
    rw [section?, if_neg hpair, if_pos rfl] at h
    cases h
    refine ⟨rfl, ?_⟩
    rintro hc
    rw [Option.some.inj hc] at hpair
    simp [isPair] at hpair
  | case6 b c rest hpair hb ih =>
    rw [section?, if_neg hpair, if_neg hb] at h
    obtain ⟨⟨inner', after'⟩, hrest, heq⟩ := Option.map_eq_some_iff.1 h
    cases heq
    obtain ⟨hbytes, hhead⟩ := ih hrest
    exact ⟨by simp [hbytes], hhead⟩

theorem marker?_spec {bytes digits after : List UInt8} (h : marker? bytes = some (digits, after)) :
    bytes = digits ++ byteOf '\x7d' :: after ∧ digits ≠ [] ∧
      ∀ b ∈ digits, isDigitByte b = true := by
  simp only [marker?] at h
  split_ifs at h with hmarker
  cases h
  obtain ⟨hne, hhead⟩ := hmarker
  refine ⟨?_, hne, fun b hb => List.mem_takeWhile_imp hb⟩
  obtain ⟨rest, hrest⟩ := List.head?_eq_some_iff.1 hhead
  conv_lhs => rw [← List.takeWhile_append_dropWhile (p := isDigitByte) (l := bytes)]
  rw [hrest, List.tail_cons]

/-- No byte is lost where a token is read. -/
theorem nextToken_bytes (d : Dialect) (b : UInt8) (rest : List UInt8) :
    (nextToken d b rest).1.bytes ++ (nextToken d b rest).2 = b :: rest := by
  rw [nextToken]
  cases opening? d b with
  | some escapes =>
    cases hsection : section? b escapes rest with
    | none => simp [hsection, Token.bytes]
    | some divided => simp [hsection, Token.bytes, (section?_spec hsection).1]
  | none =>
    by_cases hb : b = byteOf '\x7b'
    · cases hmarker : marker? rest with
      | none => simp [hb, Token.bytes]
      | some divided => simp [hb, Token.bytes, (marker?_spec hmarker).1]
    · simp [hb, Token.bytes]

theorem Token.bytes_ne_nil (t : Token) : t.bytes ≠ [] := by
  cases t <;> simp [Token.bytes]

theorem length_nextToken (d : Dialect) (b : UInt8) (rest : List UInt8) :
    (nextToken d b rest).2.length < (b :: rest).length := by
  have hlength := congrArg List.length (nextToken_bytes d b rest)
  have hpos := List.length_pos_of_ne_nil (nextToken d b rest).1.bytes_ne_nil
  rw [List.length_append] at hlength
  omega

/-- The tokens of some bytes, read from the left to the right. -/
def tokens (d : Dialect) : List UInt8 → List Token
  | [] => []
  | b :: rest => (nextToken d b rest).1 :: tokens d (nextToken d b rest).2
termination_by bytes => bytes.length
decreasing_by exact length_nextToken d b rest

/-- The bytes of the tokens are those that were read. -/
theorem tokens_flatMap_bytes (d : Dialect) (bytes : List UInt8) :
    (tokens d bytes).flatMap Token.bytes = bytes := by
  induction bytes using tokens.induct d with
  | case1 => rw [tokens, List.flatMap_nil]
  | case2 b rest ih => rw [tokens, List.flatMap_cons, ih, nextToken_bytes]

/-- What a token writes that begins at a given offset.  A section has to end, an opening brace has to
begin a marker, and the number of a marker has to fit into 64 bits and to be that of a parameter with
a literal. -/
def Token.write (d : Dialect) (params : List Value) (offset : Nat) :
    Token → Except FragmentError (List UInt8)
  | .quoted quote inner => .ok (quote :: inner)
  | .unterminated _ _ => .error (.unterminatedQuote offset)
  | .marker digits =>
      let n := numberFrom 0 digits
      if n < twoPow 64 then
        match params[n]? with
        | none => .error (.missingParameter n params.length)
        | some value =>
            match value.literal d with
            | .ok text => .ok (encode text)
            | .error cause => .error (.unrenderableParameter n cause)
      else
        .error (.malformedMarker offset)
  | .other b => if b = byteOf '\x7b' then .error (.malformedMarker offset) else .ok [b]

/-- What tokens write one after the other, the first of them at a given offset, or what is wrong with
the first that cannot be written. -/
def writeAll (d : Dialect) (params : List Value) (offset : Nat) :
    List Token → Except FragmentError (List UInt8)
  | [] => .ok []
  | t :: ts =>
      match t.write d params offset with
      | .error e => .error e
      | .ok written => (writeAll d params (offset + t.bytes.length) ts).map (written ++ ·)

/-! ### The reader of bytes -/

variable {d : Dialect} {params : List Value}

/-- Unless it is a single quote, a byte opens a section of the reader if it is the number of the
identifier quote. -/
theorem identifierByte?_eq_some_iff {b : UInt8} (hb : b ≠ byteOf '\'') :
    identifierByte? d = some b ↔ d.identifierQuote.map Char.toNat = some b.toNat := by
  cases hquote : d.identifierQuote with
  | none => simp [identifierByte?, hquote]
  | some q =>
    rw [Option.map_some, Option.some.injEq]
    refine ⟨fun h => (toNat_of_identifierByte? hquote h).symm, fun h => ?_⟩
    have hbyte : byteOf q = b := by rw [byteOf, h, Nat.toUInt8, UInt8.ofNat_toNat]
    have hne : q ≠ '\'' := by
      rintro rfl
      exact hb hbyte.symm
    rw [identifierByte?_of_lt hquote (h ▸ b.toNat_lt) hne, hbyte]

/-- Outside every section the reader opens one at the bytes that do. -/
theorem step_outside (offset : Nat) (b : UInt8) :
    Place.outside.step d offset b =
      match opening? d b with
      | some escapes => .inside b escapes offset
      | none => .outside := by
  have hquote : singleQuote = byteOf '\'' := rfl
  change Place.afterOutside d offset b = _
  rw [Place.afterOutside, opening?, hquote]
  by_cases hb : b = byteOf '\''
  · rw [if_pos hb, if_pos hb]
  · rw [if_neg hb, if_neg hb]
    simp only [identifierByte?_eq_some_iff hb]
    split <;> rfl

/-- A marker writes what the reader asks for. -/
theorem write_marker (offset : Nat) (digits : List UInt8) :
    (Token.marker digits).write d params offset =
      if numberFrom 0 digits < twoPow 64 then
        (parameter d params (numberFrom 0 digits)).map encode
      else
        .error (.malformedMarker offset) := by
  rw [Token.write, parameter]
  cases params[numberFrom 0 digits]? with
  | none => rfl
  | some value =>
    simp only
    cases value.literal d <;> rfl

namespace Cursor

/-- Reads one byte.  The answer is the next state and the bytes to write. -/
def stepByte (d : Dialect) (params : List Value) (offset : Nat) (b : UInt8) :
    Cursor → Except FragmentError (Cursor × List UInt8)
  | .text place =>
      let next := place.step d offset b
      if b = byteOf '\x7b' ∧ next = .outside then .ok (.marker offset none, [])
      else .ok (.text next, [b])
  | .marker start index =>
      if isDigitByte b then
        .ok (.marker start (some (numberFrom (index.getD 0) [b])), [])
      else
        match index with
        | some n =>
            if b = byteOf '\x7d' ∧ n < twoPow 64 then
              (parameter d params n).map fun text => (.text .outside, encode text)
            else
              .error (.malformedMarker start)
        | none => .error (.malformedMarker start)

/-- Reads the rest of some bytes, up to the first error. -/
def runBytes (d : Dialect) (params : List Value) (offset : Nat) (cursor : Cursor) :
    List UInt8 → Except FragmentError (List UInt8)
  | [] => cursor.finish.map fun _ => []
  | b :: rest =>
      match cursor.stepByte d params offset b with
      | .error e => .error e
      | .ok (next, written) => (next.runBytes d params (offset + 1) rest).map (written ++ ·)

theorem map_append_nil (r : Except FragmentError (List UInt8)) : r.map ([] ++ ·) = r := by
  cases r <;> rfl

theorem map_append_map_append (r : Except FragmentError (List UInt8)) (s t : List UInt8) :
    (r.map (t ++ ·)).map (s ++ ·) = r.map (s ++ t ++ ·) := by
  cases r <;> simp [Except.map]

/-- A byte that begins no marker is copied. -/
theorem runBytes_copy {place : Place} {offset : Nat} {b : UInt8}
    (h : ¬ (b = byteOf '\x7b' ∧ place.step d offset b = .outside)) (rest : List UInt8) :
    (Cursor.text place).runBytes d params offset (b :: rest) =
      ((Cursor.text (place.step d offset b)).runBytes d params (offset + 1) rest).map
        ([b] ++ ·) := by
  rw [runBytes, stepByte, if_neg h]

/-- Bytes beyond ASCII are copied, wherever the reader stands. -/
theorem runBytes_high {bytes : List UInt8} (h : ∀ b ∈ bytes, 128 ≤ b.toNat) (place : Place)
    (offset : Nat) (rest : List UInt8) :
    (Cursor.text place).runBytes d params offset (bytes ++ rest) =
      ((Cursor.text (place.stepAll d offset bytes)).runBytes d params (offset + bytes.length)
        rest).map (bytes ++ ·) := by
  induction bytes generalizing place offset with
  | nil =>
    rw [map_append_nil]
    rfl
  | cons b bytes ih =>
    obtain ⟨hb, hbytes⟩ := List.forall_mem_cons.1 h
    have hne : b ≠ byteOf '\x7b' := by
      rintro rfl
      exact absurd hb (by decide)
    rw [List.cons_append, runBytes_copy fun h => hne h.1, ih hbytes, Place.stepAll,
      List.length_cons, Nat.add_assoc, Nat.add_comm 1, map_append_map_append]
    rfl

/-! ### Characters and bytes -/

/-- A byte of an ASCII character is read as this character is. -/
theorem stepByte_byteOf {c : Char} (hc : c.toNat < 128) (cursor : Cursor) (offset : Nat) :
    cursor.stepByte d params offset (byteOf c) =
      (cursor.step d params offset c).map fun (next, written) => (next, encode written) := by
  have hopen : byteOf c = byteOf '\x7b' ↔ c = markerOpen := byteOf_inj hc (by decide)
  have hclose : byteOf c = byteOf '\x7d' ↔ c = markerClose := byteOf_inj hc (by decide)
  have hdigit : isDigitByte (byteOf c) = c.isDigit := by
    rw [isDigitByte, toNat_byteOf hc, Char.isDigit]
    simp [UInt32.le_iff_toNat_le]
  cases cursor with
  | text place =>
    rw [stepByte, step, Place.read_ascii hc]
    simp only [hopen]
    split_ifs
    · rfl
    · simp [Except.map, encode, encode_ascii hc]
  | marker start index =>
    by_cases hc' : c.isDigit = true
    · rw [hc'] at hdigit
      refine (if_pos hdigit).trans ?_
      rw [show step d params offset c (.marker start index) =
        .ok (.marker start (some (appendDigit index c)), []) from if_pos hc']
      simp [Except.map, encode, numberFrom, appendDigit, toNat_byteOf hc]
    · have hbyte : ¬ isDigitByte (byteOf c) = true := by rwa [hdigit]
      cases index with
      | none => simp [stepByte, step, hc', hbyte, Except.map]
      | some n =>
        simp only [stepByte, step, if_neg hc', if_neg hbyte, hclose]
        split_ifs
        · cases parameter d params n <;> rfl
        · rfl

/-- No byte of a longer character is that of a digit or of a brace. -/
theorem stepByte_high {b : UInt8} (hb : 128 ≤ b.toNat) (start offset : Nat) (index : Option Nat) :
    (Cursor.marker start index).stepByte d params offset b = .error (.malformedMarker start) := by
  have hdigit : ¬ isDigitByte b = true := by
    simp only [isDigitByte, Bool.and_eq_true, decide_eq_true_eq]
    omega
  have hclose : b ≠ byteOf '\x7d' := by
    rintro rfl
    exact absurd hb (by decide)
  cases index <;> simp [stepByte, hdigit, hclose]

theorem step_high {c : Char} (hc : 128 ≤ c.toNat) (start offset : Nat) (index : Option Nat) :
    (Cursor.marker start index).step d params offset c = .error (.malformedMarker start) := by
  have hclose : c ≠ markerClose := by
    rintro rfl
    exact absurd hc (by decide)
  cases index <;> simp [step, isDigit_eq_false hc, hclose]

/-- The reader of characters and the reader of bytes write the same. -/
theorem runBytes_encode (cursor : Cursor) (offset : Nat) (t : Sql) :
    cursor.runBytes d params offset (encode t) = (cursor.run d params offset t).map encode := by
  induction t generalizing cursor offset with
  | nil =>
    change cursor.finish.map _ = (cursor.finish.map _).map encode
    cases cursor.finish <;> rfl
  | cons c t ih =>
    have hencode : encode (c :: t) = String.utf8EncodeChar c ++ encode t := List.flatMap_cons
    rcases Nat.lt_or_ge c.toNat 128 with hlt | hge
    · have hsize : c.utf8Size = 1 := by
        rw [← String.length_utf8EncodeChar, encode_ascii hlt]
        rfl
      rw [hencode, encode_ascii hlt, List.singleton_append, runBytes, stepByte_byteOf hlt, run,
        hsize]
      cases hstep : cursor.step d params offset c with
      | error e => rfl
      | ok result =>
        obtain ⟨next, written⟩ := result
        simp only [Except.map, ih]
        cases next.run d params (offset + 1) t <;> simp [encode]
    · have hhigh : ∀ b ∈ String.utf8EncodeChar c, 128 ≤ b.toNat := fun b => le_of_mem_encode hge
      cases cursor with
      | text place =>
        have hstep : (Cursor.text place).step d params offset c =
            .ok (.text (place.read d offset c), [c]) :=
          if_neg fun h => markerOpen_ne hge h.1.symm
        rw [hencode, runBytes_high hhigh, run, hstep, String.length_utf8EncodeChar, ih]
        change _ = Except.map encode (Except.map _ (Cursor.run d params _ _ t))
        rw [Place.read]
        cases Cursor.run d params (offset + c.utf8Size) _ t <;> simp [Except.map, encode]
      | marker start index =>
        rw [hencode, run, step_high hge]
        cases hbytes : String.utf8EncodeChar c with
        | nil => exact absurd hbytes String.utf8EncodeChar_ne_nil
        | cons b bytes =>
          rw [List.cons_append, runBytes, stepByte_high (hhigh b (by rw [hbytes]; simp))]
          rfl

/-! ### Tokens and bytes -/

/-- Two bytes that stay in a section together are copied. -/
theorem runBytes_pair {quote : UInt8} {escapes : Bool} {b c : UInt8}
    (h : isPair quote escapes b c = true) (start offset : Nat) (rest : List UInt8) :
    (Cursor.text (.inside quote escapes start)).runBytes d params offset (b :: c :: rest) =
      ((Cursor.text (.inside quote escapes start)).runBytes d params (offset + 2) rest).map
        ([b, c] ++ ·) := by
  obtain ⟨place, hb, hc, hne⟩ : ∃ place : Place,
      (Place.inside quote escapes start).step d offset b = place ∧
        place.step d (offset + 1) c = .inside quote escapes start ∧ place ≠ .outside := by
    by_cases hescape : (escapes && b == byteOf '\\') = true
    · have hescapes : escapes = true := (Bool.and_eq_true_iff.1 hescape).1
      refine ⟨.escaped quote start, if_pos hescape, ?_, by simp⟩
      rw [hescapes]
      rfl
    · simp only [isPair, hescape, Bool.false_or, Bool.and_eq_true, beq_iff_eq] at h
      obtain ⟨rfl, rfl⟩ := h
      exact ⟨.closing c escapes start, (if_neg hescape).trans (if_pos rfl), if_pos rfl, by simp⟩
  rw [runBytes_copy (by simp [hb, hne]), hb, runBytes_copy (by simp [hc]), hc,
    map_append_map_append]
  rfl

/-- Within a section the reader copies up to the quote that ends it. -/
theorem runBytes_inside (quote : UInt8) (escapes : Bool) (start offset : Nat)
    (bytes : List UInt8) :
    (Cursor.text (.inside quote escapes start)).runBytes d params offset bytes =
      match section? quote escapes bytes with
      | some (inner, after) =>
          ((Cursor.text (.closing quote escapes start)).runBytes d params (offset + inner.length)
            after).map (inner ++ ·)
      | none => .error (.unterminatedQuote start) := by
  induction bytes using section?.induct quote escapes generalizing offset with
  | case1 => rfl
  | case2 b hb =>
    have hstep : (Place.inside quote escapes start).step d offset b =
        .closing quote escapes start := (if_neg hb.2).trans (if_pos hb.1)
    rw [runBytes_copy (by simp [hstep]), hstep, section?, if_pos hb]
    rfl
  | case3 b hb =>
    rw [section?, if_neg hb]
    by_cases hescape : (escapes && b == byteOf '\\') = true
    · have hstep : (Place.inside quote escapes start).step d offset b = .escaped quote start :=
        if_pos hescape
      rw [runBytes_copy (by simp [hstep]), hstep]
      rfl
    · have hquote : b ≠ quote := fun h => hb ⟨h, hescape⟩
      have hstep : (Place.inside quote escapes start).step d offset b =
          .inside quote escapes start := (if_neg hescape).trans (if_neg hquote)
      rw [runBytes_copy (by simp [hstep]), hstep]
      rfl
  | case4 b c rest hpair ih =>
    rw [runBytes_pair hpair, ih, section?, if_pos hpair]
    cases section? quote escapes rest with
    | none => rfl
    | some divided =>
      simp only [Option.map_some, List.length_cons]
      rw [map_append_map_append,
        show offset + 2 + divided.1.length = offset + (divided.1.length + 1 + 1) by omega]
      rfl
  | case5 c rest hpair =>
    have hescape : ¬ (escapes && quote == byteOf '\\') = true := fun h => hpair (by simp [isPair, h])
    have hstep : (Place.inside quote escapes start).step d offset quote =
        .closing quote escapes start := (if_neg hescape).trans (if_pos rfl)
    rw [runBytes_copy (by simp [hstep]), hstep, section?, if_neg hpair, if_pos rfl]
    rfl
  | case6 b c rest hpair hb ih =>
    have hescape : ¬ (escapes && b == byteOf '\\') = true := fun h => hpair (by simp [isPair, h])
    have hstep : (Place.inside quote escapes start).step d offset b =
        .inside quote escapes start := (if_neg hescape).trans (if_neg hb)
    rw [runBytes_copy (by simp [hstep]), hstep, ih, section?, if_neg hpair, if_neg hb]
    cases section? quote escapes (c :: rest) with
    | none => rfl
    | some divided =>
      simp only [Option.map_some, List.length_cons]
      rw [map_append_map_append,
        show offset + 1 + divided.1.length = offset + (divided.1.length + 1) by omega]
      rfl

/-- Behind a section the reader goes on as if it stood outside, but for the same quote. -/
theorem runBytes_closing {quote : UInt8} {bytes : List UInt8} (h : bytes.head? ≠ some quote)
    (escapes : Bool) (start offset : Nat) :
    (Cursor.text (.closing quote escapes start)).runBytes d params offset bytes =
      (Cursor.text .outside).runBytes d params offset bytes := by
  cases bytes with
  | nil => rfl
  | cons b rest =>
    have hb : b ≠ quote := by
      rintro rfl
      exact h rfl
    have hstep : (Place.closing quote escapes start).step d offset b =
        Place.outside.step d offset b := if_neg hb
    rw [runBytes, runBytes, stepByte, stepByte, hstep]

/-- Digits of a marker are gathered into its number. -/
theorem runBytes_digits {digits : List UInt8} (h : ∀ b ∈ digits, isDigitByte b = true)
    (start offset : Nat) (index : Option Nat) (hne : index.isSome = true ∨ digits ≠ [])
    (rest : List UInt8) :
    (Cursor.marker start index).runBytes d params offset (digits ++ rest) =
      (Cursor.marker start (some (numberFrom (index.getD 0) digits))).runBytes d params
        (offset + digits.length) rest := by
  induction digits generalizing offset index with
  | nil =>
    obtain ⟨n, rfl⟩ := Option.isSome_iff_exists.1 (hne.resolve_right (by simp))
    rfl
  | cons b digits ih =>
    obtain ⟨hb, hdigits⟩ := List.forall_mem_cons.1 h
    have hstep : (Cursor.marker start index).stepByte d params offset b =
        .ok (.marker start (some (numberFrom (index.getD 0) [b])), []) := if_pos hb
    rw [List.cons_append, runBytes, hstep]
    change ((Cursor.marker start (some _)).runBytes d params _ _).map _ = _
    rw [map_append_nil, ih hdigits _ _ (.inl rfl), List.length_cons, Nat.add_assoc, Nat.add_comm 1]
    rfl

/-- After an opening brace the reader asks for a parameter, or reports the brace. -/
theorem runBytes_marker (start offset : Nat) (bytes : List UInt8) :
    (Cursor.marker start none).runBytes d params offset bytes =
      match marker? bytes with
      | some (digits, after) =>
          match (Token.marker digits).write d params start with
          | .error e => .error e
          | .ok written =>
              ((Cursor.text .outside).runBytes d params (offset + digits.length + 1) after).map
                (written ++ ·)
      | none => .error (.malformedMarker start) := by
  simp only [marker?]
  have hdigits : ∀ b ∈ bytes.takeWhile isDigitByte, isDigitByte b = true := fun b hb =>
    List.mem_takeWhile_imp hb
  have hend : ∀ b ∈ (bytes.dropWhile isDigitByte).head?, ¬ isDigitByte b = true := by
    intro b hb
    have := List.head?_dropWhile_not isDigitByte bytes
    rw [Option.mem_def.1 hb] at this
    simpa using this
  conv_lhs => rw [← List.takeWhile_append_dropWhile (p := isDigitByte) (l := bytes)]
  generalize bytes.takeWhile isDigitByte = digits at *
  generalize bytes.dropWhile isDigitByte = rest at *
  by_cases hne : digits = []
  · subst hne
    cases rest with
    | nil => rfl
    | cons b rest =>
      have hstep : (Cursor.marker start none).stepByte d params offset b =
          .error (.malformedMarker start) := if_neg (hend b rfl)
      rw [List.nil_append, runBytes, hstep]
      rfl
  · rw [runBytes_digits hdigits start offset none (.inr hne), Option.getD_none]
    cases rest with
    | nil =>
      rw [if_neg (by simp)]
      rfl
    | cons b rest =>
      have hstep : (Cursor.marker start (some (numberFrom 0 digits))).stepByte d params
          (offset + digits.length) b = if b = byteOf '\x7d' ∧ numberFrom 0 digits < twoPow 64
            then (parameter d params (numberFrom 0 digits)).map fun text =>
              (.text .outside, encode text)
            else .error (.malformedMarker start) := if_neg (hend b rfl)
      rw [runBytes, hstep]
      by_cases hclose : b = byteOf '\x7d'
      · subst hclose
        have hfound : (if digits ≠ [] ∧ (byteOf '\x7d' :: rest).head? = some (byteOf '\x7d')
            then some (digits, (byteOf '\x7d' :: rest).tail) else none) =
              some (digits, rest) := if_pos ⟨hne, rfl⟩
        rw [hfound]
        simp only [true_and, write_marker]
        by_cases hn : numberFrom 0 digits < twoPow 64
        · rw [if_pos hn, if_pos hn]
          cases parameter d params (numberFrom 0 digits) <;> rfl
        · rw [if_neg hn, if_neg hn]
      · rw [if_neg fun h => hclose h.1, if_neg fun h => hclose (Option.some.inj h.2)]

/-- The first token is written as it should be, and the reader goes on behind it. -/
theorem runBytes_nextToken (offset : Nat) (b : UInt8) (rest : List UInt8) :
    (Cursor.text .outside).runBytes d params offset (b :: rest) =
      match (nextToken d b rest).1.write d params offset with
      | .error e => .error e
      | .ok written =>
          ((Cursor.text .outside).runBytes d params
            (offset + (nextToken d b rest).1.bytes.length) (nextToken d b rest).2).map
              (written ++ ·) := by
  have hstep := step_outside (d := d) offset b
  cases hopening : opening? d b with
  | some escapes =>
    rw [hopening] at hstep
    rw [runBytes_copy (by simp [hstep]), hstep, runBytes_inside]
    cases hsection : section? b escapes rest with
    | none =>
      have hnext : nextToken d b rest = (.unterminated b rest, []) := by
        simp only [nextToken, hopening, hsection]
      rw [hnext]
      rfl
    | some divided =>
      obtain ⟨inner, after⟩ := divided
      have hnext : nextToken d b rest = (.quoted b inner, after) := by
        simp only [nextToken, hopening, hsection]
      simp only [hnext, Token.write, Token.bytes, List.length_cons]
      rw [runBytes_closing (section?_spec hsection).2, map_append_map_append,
        show offset + 1 + inner.length = offset + (inner.length + 1) by omega]
      rfl
  | none =>
    rw [hopening] at hstep
    by_cases hb : b = byteOf '\x7b'
    · have hopen : (Cursor.text .outside).stepByte d params offset b =
          .ok (.marker offset none, []) := if_pos ⟨hb, hstep⟩
      rw [runBytes, hopen]
      change ((Cursor.marker offset none).runBytes d params _ _).map _ = _
      rw [map_append_nil, runBytes_marker]
      cases hmarker : marker? rest with
      | none =>
        have hnext : nextToken d b rest = (.other b, rest) := by
          simp only [nextToken, hopening, if_pos hb, hmarker]
        have hwrite : (Token.other b).write d params offset = .error (.malformedMarker offset) :=
          if_pos hb
        rw [hnext, hwrite]
      | some divided =>
        obtain ⟨digits, after⟩ := divided
        have hnext : nextToken d b rest = (.marker digits, after) := by
          simp only [nextToken, hopening, if_pos hb, hmarker]
        have hlength : (Token.marker digits).bytes.length = digits.length + 2 := by
          simp [Token.bytes]
        simp only [hnext, hlength]
        rw [show offset + 1 + digits.length + 1 = offset + (digits.length + 2) by omega]
    · have hnext : nextToken d b rest = (.other b, rest) := by
        simp only [nextToken, hopening, if_neg hb]
      rw [runBytes_copy fun h => hb h.1, hstep, hnext, Token.write, if_neg hb]
      rfl

/-- The reader of bytes writes what their tokens write. -/
theorem runBytes_tokens (offset : Nat) (bytes : List UInt8) :
    (Cursor.text .outside).runBytes d params offset bytes =
      writeAll d params offset (tokens d bytes) := by
  induction bytes using tokens.induct d generalizing offset with
  | case1 =>
    rw [tokens]
    rfl
  | case2 b rest ih =>
    rw [tokens, writeAll, runBytes_nextToken]
    cases (nextToken d b rest).1.write d params offset with
    | error e => rfl
    | ok written => simp only [ih]

end Cursor

/-! ### The first error -/

theorem writeAll_cons_eq_ok_iff {offset : Nat} {t : Token} {ts : List Token}
    {written : List UInt8} :
    writeAll d params offset (t :: ts) = .ok written ↔
      ∃ piece rest, t.write d params offset = .ok piece ∧
        writeAll d params (offset + t.bytes.length) ts = .ok rest ∧ piece ++ rest = written := by
  rw [writeAll]
  cases t.write d params offset with
  | error e => simp
  | ok piece => cases writeAll d params (offset + t.bytes.length) ts <;> simp [Except.map]

theorem writeAll_cons_eq_error_iff {offset : Nat} {t : Token} {ts : List Token}
    {e : FragmentError} :
    writeAll d params offset (t :: ts) = .error e ↔
      t.write d params offset = .error e ∨
        ∃ piece, t.write d params offset = .ok piece ∧
          writeAll d params (offset + t.bytes.length) ts = .error e := by
  rw [writeAll]
  cases t.write d params offset with
  | error e' => simp
  | ok piece => cases writeAll d params (offset + t.bytes.length) ts <;> simp [Except.map]

/-- Tokens cannot be written exactly where one of them cannot be and those before it can, and then for
the reason that it gives. -/
theorem writeAll_eq_error_iff {offset : Nat} {ts : List Token} {e : FragmentError} :
    writeAll d params offset ts = .error e ↔
      ∃ before t after written, ts = before ++ t :: after ∧
        writeAll d params offset before = .ok written ∧
        t.write d params (offset + (before.flatMap Token.bytes).length) = .error e := by
  induction ts generalizing offset with
  | nil => simp [writeAll]
  | cons t ts ih =>
    rw [writeAll_cons_eq_error_iff]
    constructor
    · rintro (herror | ⟨piece, hwrite, hrest⟩)
      · exact ⟨[], t, ts, [], rfl, rfl, herror⟩
      · obtain ⟨before, t', after, written, rfl, hbefore, herror⟩ := ih.1 hrest
        refine ⟨t :: before, t', after, piece ++ written, rfl, ?_, ?_⟩
        · exact writeAll_cons_eq_ok_iff.2 ⟨piece, written, hwrite, hbefore, rfl⟩
        · rwa [List.flatMap_cons, List.length_append, ← Nat.add_assoc]
    · rintro ⟨before, t', after, written, hts, hbefore, herror⟩
      cases before with
      | nil =>
        cases hts
        exact .inl herror
      | cons _ before =>
        obtain ⟨rfl, rfl⟩ := List.cons_eq_cons.1 hts
        obtain ⟨piece, rest, hwrite, hrest, -⟩ := writeAll_cons_eq_ok_iff.1 hbefore
        rw [List.flatMap_cons, List.length_append, ← Nat.add_assoc] at herror
        exact .inr ⟨piece, hwrite, ih.2 ⟨before, t', after, rest, rfl, hrest, herror⟩⟩

/-! ### Boundaries of characters -/

/-- Whether a text can be cut at an offset: the offset is that of a character or of the end. -/
def IsBoundary (t : Sql) (offset : Nat) : Prop :=
  ∃ s u, t = s ++ u ∧ (encode s).length = offset

/-- A byte of ASCII is a whole character, wherever it stands. -/
theorem exists_of_encode_ascii {t : Sql} {before after : List UInt8} {b : UInt8}
    (h : encode t = before ++ b :: after) (hb : b.toNat < 128) :
    ∃ s c u, t = s ++ c :: u ∧ encode s = before ∧ String.utf8EncodeChar c = [b] := by
  induction t generalizing before with
  | nil => simp [encode] at h
  | cons c t ih =>
    have hencode : encode (c :: t) = String.utf8EncodeChar c ++ encode t := List.flatMap_cons
    rw [hencode, List.append_eq_append_iff] at h
    obtain ⟨rest, hbefore, hrest⟩ | ⟨rest, hchar, hafter⟩ := h
    · obtain ⟨s, c', u, rfl, rfl, hc'⟩ := ih hrest
      refine ⟨c :: s, c', u, rfl, ?_, hc'⟩
      rw [hbefore]
      exact List.flatMap_cons
    · cases rest with
      | nil =>
        have hrest : encode t = [] ++ b :: after := hafter.symm
        obtain ⟨s, c', u, rfl, hs, hc'⟩ := ih hrest
        refine ⟨c :: s, c', u, rfl, ?_, hc'⟩
        rw [List.append_nil] at hchar
        rw [← hchar, ← List.append_nil (String.utf8EncodeChar c), ← hs]
        exact List.flatMap_cons
      | cons b' rest =>
        obtain ⟨rfl, -⟩ := List.cons_eq_cons.1 hafter
        have hc : c.toNat < 128 := by
          by_contra hge
          have := le_of_mem_encode (Nat.le_of_not_lt hge) (b := b) (by rw [hchar]; simp)
          omega
        have hbyte : before ++ b :: rest = [byteOf c] := hchar.symm.trans (encode_ascii hc)
        obtain ⟨rfl, rfl, rfl⟩ : before = [] ∧ b = byteOf c ∧ rest = [] := by
          simpa [List.append_eq_singleton_iff] using hbyte
        exact ⟨[], c, t, rfl, rfl, hchar⟩

/-- A text can be cut before and behind each byte of ASCII. -/
theorem isBoundary_of_ascii {t : Sql} {before after : List UInt8} {b : UInt8}
    (h : encode t = before ++ b :: after) (hb : b.toNat < 128) :
    IsBoundary t before.length ∧ IsBoundary t (before.length + 1) := by
  obtain ⟨s, c, u, rfl, rfl, hc⟩ := exists_of_encode_ascii h hb
  refine ⟨⟨s, c :: u, rfl, rfl⟩, s ++ [c], u, by simp, ?_⟩
  simp [encode, hc]

/-- A text can be cut anywhere in a piece of ASCII. -/
theorem isBoundary_within {t : Sql} {before piece after : List UInt8}
    (h : encode t = before ++ (piece ++ after)) (hne : piece ≠ [])
    (hascii : ∀ b ∈ piece, b.toNat < 128) {k : Nat} (hk : k ≤ piece.length) :
    IsBoundary t (before.length + k) := by
  induction piece generalizing before k with
  | nil => exact absurd rfl hne
  | cons b piece ih =>
    obtain ⟨hb, hpiece⟩ := List.forall_mem_cons.1 hascii
    obtain ⟨hstart, hnext⟩ := isBoundary_of_ascii h hb
    cases k with
    | zero => exact hstart
    | succ k =>
      by_cases hlast : piece = []
      · subst hlast
        obtain rfl : k = 0 := by simpa using hk
        exact hnext
      · have hsplit : encode t = (before ++ [b]) ++ (piece ++ after) := by simpa using h
        have := ih hsplit hlast hpiece (Nat.le_of_succ_le_succ hk)
        rwa [List.length_append, List.length_singleton, Nat.add_assoc, Nat.add_comm 1] at this

/-- Whether the reader looks for a marker at a token. -/
def Token.IsBraced : Token → Prop
  | .marker _ => True
  | .other b => b = byteOf '\x7b'
  | .quoted _ _ | .unterminated _ _ => False

theorem digits_of_nextToken {b : UInt8} {rest digits : List UInt8}
    (h : (nextToken d b rest).1 = .marker digits) : ∀ b ∈ digits, isDigitByte b = true := by
  unfold nextToken at h
  split at h
  · split at h <;> cases h
  · split at h
    · next hmarker =>
      cases h
      split_ifs at hmarker
      exact (marker?_spec hmarker).2.2
    · cases h

/-- All bytes of a token with a brace are those of ASCII characters. -/
theorem ascii_of_isBraced {bytes : List UInt8} {t : Token} (ht : t ∈ tokens d bytes)
    (hbraced : t.IsBraced) : ∀ b ∈ t.bytes, b.toNat < 128 := by
  induction bytes using tokens.induct d with
  | case1 => simp [tokens] at ht
  | case2 b rest ih =>
    rw [tokens, List.mem_cons] at ht
    obtain rfl | ht := ht
    · cases hnext : (nextToken d b rest).1 with
      | quoted quote inner => simp [hnext, Token.IsBraced] at hbraced
      | unterminated quote inner => simp [hnext, Token.IsBraced] at hbraced
      | other byte =>
        rw [hnext] at hbraced
        obtain rfl : byte = byteOf '\x7b' := hbraced
        simp only [Token.bytes, List.forall_mem_singleton]
        decide
      | marker digits =>
        intro b' hb'
        simp only [Token.bytes, List.cons_append, List.mem_cons, List.mem_append,
          List.not_mem_nil, or_false] at hb'
        obtain rfl | hdigit | rfl := hb'
        · decide
        · have := digits_of_nextToken hnext b' hdigit
          simp only [isDigitByte, Bool.and_eq_true, decide_eq_true_eq] at this
          omega
        · decide
    · exact ih ht

/-! ### Binding as a rewriting of tokens -/

/-- **Binding rewrites tokens**.  For every dialect, every fragment and all parameters:

* the bytes that binding writes, or the error that it reports, are those of the tokens of the
  fragment written one after the other;
* there is an error exactly where some token cannot be written and all before it can, and it is the
  error of that token, at the offset of its first byte;
* the bytes of the tokens are those of the fragment, so none is lost and none comes twice;
* where the reader looks for a marker, every offset up to the end of the token is one between
  characters, so that the text is never cut within one. -/
theorem bind_tokens (d : Dialect) (params : List Value) (fragment : Sql) :
    (bind d params fragment).map encode = writeAll d params 0 (tokens d (encode fragment)) ∧
      (∀ e, bind d params fragment = .error e ↔
        ∃ before t after written, tokens d (encode fragment) = before ++ t :: after ∧
          writeAll d params 0 before = .ok written ∧
          t.write d params (before.flatMap Token.bytes).length = .error e) ∧
      (tokens d (encode fragment)).flatMap Token.bytes = encode fragment ∧
      ∀ before t after, tokens d (encode fragment) = before ++ t :: after → t.IsBraced →
        ∀ k ≤ t.bytes.length,
          IsBoundary fragment ((before.flatMap Token.bytes).length + k) := by
  have hbind : (bind d params fragment).map encode =
      writeAll d params 0 (tokens d (encode fragment)) :=
    (Cursor.runBytes_encode _ _ _).symm.trans (Cursor.runBytes_tokens _ _)
  refine ⟨hbind, fun e => ?_, tokens_flatMap_bytes d _, ?_⟩
  · have herror : bind d params fragment = .error e ↔
        (bind d params fragment).map encode = .error e := by
      cases bind d params fragment <;> simp [Except.map]
    rw [herror, hbind, writeAll_eq_error_iff]
    simp only [Nat.zero_add]
  · intro before t after htokens hbraced k hk
    have hbytes : encode fragment = before.flatMap Token.bytes ++
        (t.bytes ++ after.flatMap Token.bytes) := by
      rw [← tokens_flatMap_bytes d (encode fragment), htokens, List.flatMap_append,
        List.flatMap_cons]
    have ht : t ∈ tokens d (encode fragment) := by
      rw [htokens]
      simp
    exact isBoundary_within hbytes t.bytes_ne_nil (ascii_of_isBraced ht hbraced) hk

end ExternalTable.Fragment
