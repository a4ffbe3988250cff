import Mathlib.Tactic.Common
import ExternalTable.Json.Record
import ExternalTable.Json.Writer

/-!
# Reading written JSON

A text that was written as a JSON string, or as an object of values that were written so, reads back
as what it was written from, whatever follows it.

* `Piece.ofChar`, `pieces`: how the characters of a written string are read;
* `characters?_pieces`: they stand for the characters that were written;
* `Reads`: a text that the machine cuts into given tokens (`reads_quote`);
* `Writes`: a text that is read as a given document (`writes_quote`, `writes_object`);
* `membersOf?_written`: the members of a written object, by their keys.
-/

namespace ExternalTable.Json

/-- How a character of a written string is read: as itself, but for the controls that have no escape
letter, which are written by their number. -/
def Piece.ofChar (c : Char) : Piece :=
  if 0x20 ≤ c.toNat ∨ c ∈ ['\x08', '\t', '\n', '\x0c', '\r'] then .char c else .unit c.toNat

/-- How a written string is read. -/
def pieces (text : List Char) : List Piece :=
  text.map Piece.ofChar

/-! ### Strings -/

theorem scan_cons {mode next : Mode} {c : Char} {ended : List Token}
    (h : mode.step c = some (next, ended)) (rest : List Char) :
    mode.scan (c :: rest) = (next.scan rest).map (ended ++ ·) := by
  rw [Mode.scan, h]

theorem scan_silent {mode : Mode} (next : Mode) {c : Char} (h : mode.step c = some (next, []))
    (rest : List Char) : mode.scan (c :: rest) = next.scan rest := by
  rw [scan_cons h]
  simp

/-- A letter after a backslash is read as the character that it stands for. -/
theorem scan_letter {letter c : Char} (hu : letter ≠ 'u') (h : Mode.escaped? letter = some c)
    (read : List Piece) (rest : List Char) :
    (Mode.text read).scan ('\\' :: letter :: rest) = (Mode.text (.char c :: read)).scan rest := by
  have hstep : (Mode.escape read).step letter = some (.text (.char c :: read), []) := by
    simp [Mode.step, hu, h]
  rw [scan_silent (.escape read) rfl, scan_silent _ hstep]

theorem hexValue?_hexDigit : ∀ n < 16, Mode.hexValue? (hexDigit n) = some n := by
  decide

/-- Four hexadecimal digits after `\u` are read as a code unit. -/
theorem scan_unit {high low : Nat} (hhigh : high < 16) (hlow : low < 16) (read : List Piece)
    (rest : List Char) :
    (Mode.text read).scan ('\\' :: 'u' :: '0' :: '0' :: hexDigit high :: hexDigit low :: rest) =
      (Mode.text (.unit (high * 16 + low) :: read)).scan rest := by
  have hthird : (Mode.hex read 2 0).step (hexDigit high) = some (.hex read 3 high, []) := by
    simp [Mode.step, hexValue?_hexDigit high hhigh]
  have hfourth : (Mode.hex read 3 high).step (hexDigit low) =
      some (.text (.unit (high * 16 + low) :: read), []) := by
    simp [Mode.step, hexValue?_hexDigit low hlow]
  rw [scan_silent (.escape read) rfl, scan_silent (.hex read 0 0) rfl,
    scan_silent (.hex read 1 0) rfl, scan_silent (.hex read 2 0) rfl, scan_silent _ hthird,
    scan_silent _ hfourth]

/-- A character of a written string. -/
theorem scan_escape (c : Char) (read : List Piece) (rest : List Char) :
    (Mode.text read).scan (escape c ++ rest) = (Mode.text (.ofChar c :: read)).scan rest := by
  unfold escape
  split
  · exact scan_letter (by decide) rfl read rest
  · exact scan_letter (by decide) rfl read rest
  · exact scan_letter (by decide) rfl read rest
  · exact scan_letter (by decide) rfl read rest
  · exact scan_letter (by decide) rfl read rest
  · exact scan_letter (by decide) rfl read rest
  · exact scan_letter (by decide) rfl read rest
  · next hquote hbackslash hb hf hn hr ht =>
    -- The character has no escape letter, so it is written by its number or as it is.
    by_cases hcontrol : c.toNat < 0x20
    · have hunit : Piece.ofChar c = .unit (c.toNat / 16 * 16 + c.toNat % 16) := by
        have hletter : c ∉ ['\x08', '\t', '\n', '\x0c', '\r'] := by
          simp only [List.mem_cons, List.not_mem_nil, or_false, not_or]
          exact ⟨hb, ht, hn, hf, hr⟩
        rw [Piece.ofChar, if_neg (not_or.2 ⟨Nat.not_le_of_lt hcontrol, hletter⟩)]
        congr 1
        omega
      rw [if_pos hcontrol, hunit]
      exact scan_unit (by omega) (by omega) read rest
    · have hchar : Piece.ofChar c = .char c := if_pos (.inl (Nat.le_of_not_lt hcontrol))
      have hstep : (Mode.text read).step c = some (.text (.char c :: read), []) := by
        rw [Mode.step, if_neg hquote, if_neg hbackslash, if_neg hcontrol]
      rw [if_neg hcontrol, hchar]
      exact scan_silent _ hstep rest

/-- A whole written string, from its first character to the closing quote. -/
theorem scan_flatMap_escape (text : List Char) (read : List Piece) (rest : List Char) :
    (Mode.text read).scan (text.flatMap escape ++ '"' :: rest) =
      (Mode.between.scan rest).map (.text (read.reverse ++ pieces text) :: ·) := by
  induction text generalizing read with
  | nil =>
    have hclose : (Mode.text read).step '"' = some (.between, [.text read.reverse]) := rfl
    simp [scan_cons hclose, pieces]
  | cons c text ih =>
    rw [List.flatMap_cons, List.append_assoc, scan_escape, ih]
    simp [pieces]

/-- The pieces of a written character stand for that character. -/
theorem characters?_ofChar (c : Char) (rest : List Piece) :
    characters? (.ofChar c :: rest) = (characters? rest).map (c :: ·) := by
  unfold Piece.ofChar
  split
  · rw [characters?]
  · next h =>
    have hlt : c.toNat < 0x20 := Nat.lt_of_not_le (not_or.1 h).1
    have hhigh : isHighSurrogate c.toNat = false := by
      simp only [isHighSurrogate, decide_eq_false_iff_not]
      omega
    have hlow : isLowSurrogate c.toNat = false := by
      simp only [isLowSurrogate, decide_eq_false_iff_not]
      omega
    -- What follows is looked at, as a code unit may be the first of a pair.
    cases rest with
    | nil => simp [characters?, hhigh, hlow, Char.ofNat_toNat]
    | cons p rest =>
      cases p with
      | char d => simp [characters?, hhigh, hlow, Char.ofNat_toNat]
      | unit low => rw [characters?]; simp [hhigh, hlow, Char.ofNat_toNat]

theorem characters?_pieces (text : List Char) : characters? (pieces text) = some text := by
  induction text with
  | nil => rfl
  | cons c text ih =>
    rw [pieces, List.map_cons, characters?_ofChar]
    exact congrArg (Option.map (c :: ·)) ih

@[simp] theorem text?_pieces (s : String) : text? (pieces s.toList) = some s := by
  rw [text?, characters?_pieces, Option.map_some, String.ofList_toList]

/-! ### Tokens -/

/-- Between two tokens, the machine cuts a text into given tokens, and goes on with what follows. -/
def Reads (text : List Char) (tokens : List Token) : Prop :=
  ∀ rest, Mode.between.scan (text ++ rest) = (Mode.between.scan rest).map (tokens ++ ·)

theorem Reads.append {s t : List Char} {ss ts : List Token} (hs : Reads s ss) (ht : Reads t ts) :
    Reads (s ++ t) (ss ++ ts) := by
  intro rest
  rw [List.append_assoc, hs, ht, Option.map_map]
  congr 1
  funext tokens
  simp

theorem reads_mark {c : Char} {token : Token} (h : Mode.begin c = some (.between, [token])) :
    Reads [c] [token] := by
  have hstep : Mode.between.step c = some (.between, [token]) := h
  exact fun rest => scan_cons hstep rest

theorem reads_quote (text : List Char) : Reads (quote text) [.text (pieces text)] := by
  intro rest
  rw [quote, List.cons_append, List.cons_append, scan_silent (.text []) rfl,
    List.append_assoc]
  exact scan_flatMap_escape text [] rest

/-- The tokens of a text that reads so. -/
theorem Reads.tokens?_eq {text : List Char} {tokens : List Token} (h : Reads text tokens) :
    tokens? text = some tokens := by
  simpa [tokens?, Mode.scan, Mode.finish] using h []

/-! ### Documents -/

/-- A text is read as a document: where a value is expected, its tokens make up this value. -/
def Writes (text : List Char) (v : Raw) : Prop :=
  ∃ tokens, Reads text tokens ∧ ∀ frames rest,
    (State.value frames).run (tokens ++ rest) = (State.after v frames).run rest

theorem Writes.read?_eq {text : List Char} {v : Raw} (h : Writes text v) :
    Raw.read? text = some v := by
  obtain ⟨tokens, hreads, hrun⟩ := h
  have hvalue : (State.value []).run tokens = some (.after v []) := by
    simpa [State.run] using hrun [] []
  rw [Raw.read?, hreads.tokens?_eq]
  simp [Raw.ofTokens?, hvalue]

theorem writes_quote (text : List Char) : Writes (quote text) (.text (pieces text)) :=
  ⟨_, reads_quote text, fun _ _ => rfl⟩

/-- A key and a value, as they are written in an object. -/
theorem Writes.exists_member {text : List Char} {v : Raw} (h : Writes text v) (key : String) :
    ∃ tokens,
      Reads (quote key.toList ++ ':' :: text) (.text (pieces key.toList) :: .colon :: tokens) ∧
      ∀ frames rest,
        (State.value frames).run (tokens ++ rest) = (State.after v frames).run rest := by
  obtain ⟨tokens, hreads, hrun⟩ := h
  have hcolon : Reads (':' :: text) (.colon :: tokens) := (reads_mark rfl).append hreads
  exact ⟨tokens, (reads_quote key.toList).append hcolon, hrun⟩

/-- Further members of an object, up to its end. -/
theorem exists_reads_members (members : List (String × List Char × Raw))
    (h : ∀ m ∈ members, Writes m.2.1 m.2.2) :
    ∃ tokens,
      Reads ((members.flatMap fun m => ',' :: (quote m.1.toList ++ ':' :: m.2.1)) ++ ['\x7d'])
        tokens ∧
      ∀ v before key frames rest,
        (State.after v (.object before key :: frames)).run (tokens ++ rest) =
          (State.after (.object (((key, v) :: before).reverse ++
            members.map fun m => (pieces m.1.toList, m.2.2))) frames).run rest := by
  induction members with
  | nil =>
    refine ⟨[.closeObject], reads_mark rfl, fun v before key frames rest => ?_⟩
    rw [List.map_nil, List.append_nil]
    rfl
  | cons m members ih =>
    obtain ⟨hm, hmembers⟩ := List.forall_mem_cons.1 h
    obtain ⟨value, hvalue, hrun⟩ := hm.exists_member m.1
    obtain ⟨tokens, htokens, hrest⟩ := ih hmembers
    have hcomma : Reads [','] [.comma] := reads_mark rfl
    refine ⟨.comma :: .text (pieces m.1.toList) :: .colon :: (value ++ tokens), ?_,
      fun v before key frames rest => ?_⟩
    · simpa using (hcomma.append hvalue).append htokens
    · simp only [List.cons_append, List.append_assoc]
      change (State.value (.object ((key, v) :: before) (pieces m.1.toList) :: frames)).run
        (value ++ (tokens ++ rest)) = _
      rw [hrun, hrest]
      simp

theorem intercalate_comma (t : List Char) (ts : List (List Char)) :
    [','].intercalate (t :: ts) = t ++ ts.flatMap (',' :: ·) := by
  induction ts generalizing t with
  | nil => simp [List.intercalate]
  | cons u ts ih => simp [List.intercalate_cons_cons, ih]

/-- An object of values that are written already is read with these values under its keys. -/
theorem writes_object (members : List (String × List Char × Raw))
    (h : ∀ m ∈ members, Writes m.2.1 m.2.2) :
    Writes (writeObject (members.map fun m => (m.1, m.2.1)))
      (.object (members.map fun m => (pieces m.1.toList, m.2.2))) := by
  have hopen : Reads ['\x7b'] [.openObject] := reads_mark rfl
  have hclose : Reads ['\x7d'] [.closeObject] := reads_mark rfl
  cases members with
  | nil => exact ⟨_, hopen.append hclose, fun _ _ => rfl⟩
  | cons m members =>
    obtain ⟨hm, hmembers⟩ := List.forall_mem_cons.1 h
    obtain ⟨value, hvalue, hrun⟩ := hm.exists_member m.1
    obtain ⟨tokens, htokens, hrest⟩ := exists_reads_members members hmembers
    refine ⟨.openObject :: .text (pieces m.1.toList) :: .colon :: (value ++ tokens), ?_,
      fun frames rest => ?_⟩
    · rw [writeObject, List.map_cons, List.map_cons, intercalate_comma]
      simpa [List.flatMap_map] using (hopen.append hvalue).append htokens
    · simp only [List.cons_append, List.append_assoc]
      change (State.value (.object [] (pieces m.1.toList) :: frames)).run
        (value ++ (tokens ++ rest)) = _
      rw [hrun, hrest]
      simp

/-- The members of a written object that belong to a field are those of its name. -/
theorem membersOf?_written (field : String) (members : List (String × Raw)) :
    Record.membersOf? field (members.map fun m => (pieces m.1.toList, m.2)) =
      some ((members.filter fun m => m.1 = field).map Prod.snd) := by
  induction members with
  | nil => rfl
  | cons m members ih =>
    rw [List.map_cons, Record.membersOf?, text?_pieces, ih]
    by_cases h : m.1 = field <;> simp [h]

end ExternalTable.Json
