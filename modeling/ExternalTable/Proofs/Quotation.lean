import ExternalTable.Proofs.Token

/-!
# Quotations read back

A text literal and a quoted identifier are written character by character, and the reader of
fragments looks for their end byte by byte.  Both agree on what is quoted: it can be read back, and
the reader leaves the section just behind the closing quote, whatever the text holds and whatever
follows, unless that is the same quote again.

* `readQuoted?`, `unquote?`: the rules by which a quotation is read;
* `Place.sectionEnd?`: the offset at which the reader of fragments leaves a section;
* `unquote?_enclose`, `sectionEnd?_enclose`: text between two quotes, with the special characters
  doubled;
* `IsQuotation`, `isQuotation_textLiteral`, `isQuotation_identifier`: text literals and quoted
  identifiers, whatever follows them;
* `quotation_read_back`: the main statement.
-/

namespace ExternalTable.Fragment

/-! ### Reading quotations -/

/-- Reads the rest of a quotation behind its opening quote, up to the quote that ends it.  Two
quotes stand for one, and two backslashes for one where backslashes escape; there is no other
escape.  The answer is the text and what follows the quotation. -/
def readQuoted? (quote : Char) (escapes : Bool) : Sql → Option (Sql × Sql)
  | [] => none
  | [c] => if c = quote then some ([], []) else none
  | c :: c' :: rest =>
      if escapes = true ∧ c = '\\' then
        if c' = '\\' then
          (readQuoted? quote escapes rest).map fun (text, after) => (c :: text, after)
        else
          none
      else if c = quote then
        if c' = quote then
          (readQuoted? quote escapes rest).map fun (text, after) => (c :: text, after)
        else
          some ([], c' :: rest)
      else
        (readQuoted? quote escapes (c' :: rest)).map fun (text, after) => (c :: text, after)

/-- Reads a quotation at the front of a text.  The answer is what is quoted and what follows. -/
def unquote? (quote : Char) (escapes : Bool) : Sql → Option (Sql × Sql)
  | [] => none
  | c :: rest => if c = quote then readQuoted? quote escapes rest else none

section

variable {q : Char} {e : Bool} {special : Char → Bool}

/-- Doubled text is read back up to the quote behind it, if the quote stands alone there. -/
theorem readQuoted?_double (h : Place.Doubles q e special) (t : Sql) {s : Sql}
    (hs : s.head? ≠ some q) :
    readQuoted? q e (Quoted.double special t ++ q :: s) = some (t, s) := by
  have hne : ¬ (e = true ∧ q = '\\') := fun hec => h.ne_backslash hec.1 hec.2
  induction t with
  | nil =>
    cases s with
    | nil => exact if_pos rfl
    | cons c s =>
      have hc : c ≠ q := by
        rintro rfl
        exact hs rfl
      rw [Quoted.double_nil, List.nil_append, readQuoted?, if_neg hne, if_pos rfl, if_neg hc]
  | cons c t ih =>
    by_cases hc : special c = true
    · rw [Quoted.double, if_pos hc, List.cons_append, List.cons_append, readQuoted?, ih]
      rcases (h.special_iff c).1 hc with rfl | hescape
      · rw [if_neg hne, if_pos rfl, if_pos rfl]
        rfl
      · rw [if_pos hescape, if_pos hescape.2]
        rfl
    · have hescape : ¬ (e = true ∧ c = '\\') := fun hec => hc ((h.special_iff c).2 (.inr hec))
      have hquote : c ≠ q := fun hcq => hc ((h.special_iff c).2 (.inl hcq))
      -- What follows an ordinary character is not empty, for there is the closing quote.
      obtain ⟨c', rest, hrest⟩ : ∃ c' rest, Quoted.double special t ++ q :: s = c' :: rest :=
        List.exists_cons_of_ne_nil (List.append_ne_nil_of_right_ne_nil _ (List.cons_ne_nil _ _))
      rw [hrest] at ih
      rw [Quoted.double, if_neg hc, List.cons_append, hrest, readQuoted?, if_neg hescape,
        if_neg hquote, ih]
      rfl

theorem unquote?_enclose (h : Place.Doubles q e special) (t : Sql) {s : Sql}
    (hs : s.head? ≠ some q) : unquote? q e (Quoted.enclose q special t ++ s) = some (t, s) := by
  have hread := readQuoted?_double h t hs
  rw [Quoted.enclose, List.cons_append, List.cons_append, unquote?, if_pos rfl, List.append_assoc]
  exact hread

end

/-! ### The end of a section -/

namespace Place

/-- Whether a reader has left its section, given the byte that follows: it stands behind a quote
that may end the section, and the same quote does not follow. -/
def hasLeft (next : Option UInt8) : Place → Bool
  | .closing quote _ _ => next != some quote
  | _ => false

/-- The offset at which a reader leaves the section in which it stands, or the next one that it
comes to. -/
def sectionEnd? (d : Dialect) (offset : Nat) (place : Place) (bytes : List UInt8) : Option Nat :=
  if place.hasLeft bytes.head? then
    some offset
  else
    match bytes with
    | [] => none
    | b :: rest => (place.step d offset b).sectionEnd? d (offset + 1) rest

variable {d : Dialect}

theorem sectionEnd?_of_hasLeft {place : Place} {bytes : List UInt8}
    (h : place.hasLeft bytes.head? = true) (offset : Nat) :
    place.sectionEnd? d offset bytes = some offset := by
  rw [sectionEnd?.eq_def, if_pos h]

theorem sectionEnd?_cons {place : Place} {b : UInt8} (h : place.hasLeft (some b) = false)
    (offset : Nat) (rest : List UInt8) :
    place.sectionEnd? d offset (b :: rest) =
      (place.step d offset b).sectionEnd? d (offset + 1) rest := by
  rw [sectionEnd?, List.head?_cons, h]
  rfl

/-- Two bytes that stay in a section together are read in it. -/
theorem sectionEnd?_pair {quote : UInt8} {escapes : Bool} {b c : UInt8}
    (h : isPair quote escapes b c = true) (start offset : Nat) (rest : List UInt8) :
    (Place.inside quote escapes start).sectionEnd? d offset (b :: c :: rest) =
      (Place.inside quote escapes start).sectionEnd? d (offset + 2) rest := by
  rw [sectionEnd?_cons rfl]
  by_cases hescape : (escapes && b == byteOf '\\') = true
  · have hescapes : escapes = true := (Bool.and_eq_true_iff.1 hescape).1
    have hstep : (Place.inside quote escapes start).step d offset b = .escaped quote start :=
      if_pos hescape
    rw [hstep, sectionEnd?_cons rfl, hescapes]
    rfl
  · simp only [isPair, hescape, Bool.false_or, Bool.and_eq_true, beq_iff_eq] at h
    obtain ⟨rfl, rfl⟩ := h
    have hstep : (Place.inside c escapes start).step d offset c = .closing c escapes start :=
      (if_neg hescape).trans (if_pos rfl)
    have hclosing : (Place.closing c escapes start).step d (offset + 1) c =
        .inside c escapes start := if_pos rfl
    rw [hstep, sectionEnd?_cons (by simp [hasLeft]), hclosing]

/-- A reader within a section leaves it where the section is divided off. -/
theorem sectionEnd?_inside (quote : UInt8) (escapes : Bool) (start offset : Nat)
    (bytes : List UInt8) :
    (Place.inside quote escapes start).sectionEnd? d offset bytes =
      (section? quote escapes bytes).map fun divided => offset + divided.1.length := by
  induction bytes using section?.induct quote escapes generalizing offset with
  | case1 => rfl
  | case2 b hb =>
    have hstep : (Place.inside quote escapes start).step d offset b =
        .closing quote escapes start := (if_neg hb.2).trans (if_pos hb.1)
    rw [section?, if_pos hb, sectionEnd?_cons rfl, hstep]
    rfl
  | case3 b hb =>
    rw [section?, if_neg hb, sectionEnd?_cons rfl]
    by_cases hescape : (escapes && b == byteOf '\\') = true
    · have hstep : (Place.inside quote escapes start).step d offset b = .escaped quote start :=
        if_pos hescape
      rw [hstep]
      rfl
    · have hquote : b ≠ quote := fun h => hb ⟨h, hescape⟩
      have hstep : (Place.inside quote escapes start).step d offset b =
          .inside quote escapes start := (if_neg hescape).trans (if_neg hquote)
      rw [hstep]
      rfl
  | case4 b c rest hpair ih =>
    rw [section?, if_pos hpair, sectionEnd?_pair hpair, ih, Option.map_map]
    refine congrArg (Option.map · _) (funext fun divided => ?_)
    simp only [Function.comp, List.length_cons]
    omega
  | case5 c rest hpair =>
    have hescape : ¬ (escapes && quote == byteOf '\\') = true := fun h => hpair (by simp [isPair, h])
    have hquote : c ≠ quote := by
      rintro rfl
      exact hpair (by simp [isPair])
    have hstep : (Place.inside quote escapes start).step d offset quote =
        .closing quote escapes start := (if_neg hescape).trans (if_pos rfl)
    rw [section?, if_neg hpair, if_pos rfl, sectionEnd?_cons rfl, hstep,
      sectionEnd?_of_hasLeft (by simpa [hasLeft] using hquote)]
    rfl
  | case6 b c rest hpair hb ih =>
    have hescape : ¬ (escapes && b == byteOf '\\') = true := fun h => hpair (by simp [isPair, h])
    have hstep : (Place.inside quote escapes start).step d offset b =
        .inside quote escapes start := (if_neg hescape).trans (if_neg hb)
    rw [section?, if_neg hpair, if_neg hb, sectionEnd?_cons rfl, hstep, ih, Option.map_map]
    refine congrArg (Option.map · _) (funext fun divided => ?_)
    simp only [Function.comp, List.length_cons]
    omega

end Place

section

variable {q : Char} {e : Bool} {special : Char → Bool}

/-- Bytes that neither end a section nor escape are passed over. -/
theorem section?_plain {quote : UInt8} {escapes : Bool} {bytes rest : List UInt8}
    (h : ∀ b ∈ bytes, b ≠ quote ∧ ¬ (escapes && b == byteOf '\\') = true)
    (hrest : rest ≠ []) : section? quote escapes (bytes ++ rest) =
      (section? quote escapes rest).map fun (inner, after) => (bytes ++ inner, after) := by
  induction bytes with
  | nil => simp
  | cons b bytes ih =>
    obtain ⟨⟨hquote, hescape⟩, hbytes⟩ := List.forall_mem_cons.1 h
    obtain ⟨c, tail, htail⟩ : ∃ c tail, bytes ++ rest = c :: tail :=
      List.exists_cons_of_ne_nil (List.append_ne_nil_of_right_ne_nil _ hrest)
    have hpair : ¬ isPair quote escapes b c = true := by
      simp [isPair, hescape, hquote]
    rw [List.cons_append, htail, section?, if_neg hpair, if_neg hquote, ← htail, ih hbytes,
      Option.map_map]
    rfl

/-- The byte of an ASCII character escapes where the character does. -/
theorem escapes_byteOf {c : Char} (hc : c.toNat < 128) :
    (e && byteOf c == byteOf '\\') = true ↔ e = true ∧ c = '\\' := by
  have hbackslash : byteOf c = byteOf '\\' ↔ c = '\\' :=
    byteOf_inj (q := '\\') hc (by decide)
  rw [Bool.and_eq_true, beq_iff_eq, hbackslash]

/-- No byte of an ordinary character ends a section or escapes in it. -/
theorem plain_encode (hq : q.toNat < 128) {c : Char} (hquote : c ≠ q)
    (hescape : ¬ (e = true ∧ c = '\\')) :
    ∀ b ∈ String.utf8EncodeChar c, b ≠ byteOf q ∧ ¬ (e && b == byteOf '\\') = true := by
  intro b hb
  rcases Nat.lt_or_ge c.toNat 128 with hlt | hge
  · rw [encode_ascii hlt, List.mem_singleton] at hb
    rw [hb, escapes_byteOf hlt, Ne, byteOf_inj hlt hq]
    exact ⟨hquote, hescape⟩
  · have hhigh := le_of_mem_encode hge hb
    refine ⟨?_, fun hb => ?_⟩
    · rintro rfl
      rw [toNat_byteOf hq] at hhigh
      omega
    · rw [beq_iff_eq.1 (Bool.and_eq_true_iff.1 hb).2] at hhigh
      exact absurd hhigh (by decide)

/-- A text that does not begin with an ASCII character does not begin with its byte. -/
theorem head?_encode_ne (hq : q.toNat < 128) {s : Sql} (hs : s.head? ≠ some q) :
    (encode s).head? ≠ some (byteOf q) := by
  cases s with
  | nil => simp [encode]
  | cons c s =>
    have hc : c ≠ q := by
      rintro rfl
      exact hs rfl
    cases hbytes : String.utf8EncodeChar c with
    | nil => exact absurd hbytes String.utf8EncodeChar_ne_nil
    | cons b bytes =>
      have hb := (plain_encode hq hc (e := false) (by simp) b (by simp [hbytes])).1
      simpa [encode, hbytes] using hb

/-- A section ends with its quote where the same quote does not follow. -/
theorem section?_quote {quote : UInt8} {escapes : Bool}
    (hescape : ¬ (escapes && quote == byteOf '\\') = true) {after : List UInt8}
    (hafter : after.head? ≠ some quote) : section? quote escapes (quote :: after) =
      some ([quote], after) := by
  cases after with
  | nil => exact if_pos ⟨rfl, hescape⟩
  | cons c after =>
    have hc : c ≠ quote := by
      rintro rfl
      exact hafter rfl
    have hpair : ¬ isPair quote escapes quote c = true := by
      simp [isPair, hescape, hc]
    rw [section?, if_neg hpair, if_pos rfl]

/-- The section of doubled text ends with the quote behind it. -/
theorem section?_double (h : Place.Doubles q e special) (t : Sql) {after : List UInt8}
    (hafter : after.head? ≠ some (byteOf q)) : section? (byteOf q) e
      (encode (Quoted.double special t) ++ byteOf q :: after) =
        some (encode (Quoted.double special t) ++ [byteOf q], after) := by
  induction t with
  | nil =>
    refine section?_quote ?_ hafter
    rw [escapes_byteOf h.toNat_lt]
    exact fun hec => h.ne_backslash hec.1 hec.2
  | cons c t ih =>
    by_cases hc : special c = true
    · have hlt : c.toNat < 128 := by
        rcases (h.special_iff c).1 hc with rfl | ⟨-, rfl⟩
        · exact h.toNat_lt
        · decide
      have hpair : isPair (byteOf q) e (byteOf c) (byteOf c) = true := by
        rw [isPair, Bool.or_eq_true, escapes_byteOf hlt]
        exact ((h.special_iff c).1 hc).symm.imp_right fun hcq => by simp [hcq]
      have hencode : encode (Quoted.double special (c :: t)) =
          byteOf c :: byteOf c :: encode (Quoted.double special t) := by
        rw [Quoted.double, if_pos hc]
        simp [encode, encode_ascii hlt]
      rw [hencode, List.cons_append, List.cons_append, section?, if_pos hpair, ih]
      rfl
    · have hescape : ¬ (e = true ∧ c = '\\') := fun hec => hc ((h.special_iff c).2 (.inr hec))
      have hquote : c ≠ q := fun hcq => hc ((h.special_iff c).2 (.inl hcq))
      have hencode : encode (Quoted.double special (c :: t)) =
          String.utf8EncodeChar c ++ encode (Quoted.double special t) := by
        rw [Quoted.double, if_neg hc]
        rfl
      rw [hencode, List.append_assoc, section?_plain (plain_encode h.toNat_lt hquote hescape)
        (by simp), ih]
      simp

/-- A reader leaves a text between two quotes just behind it. -/
theorem sectionEnd?_enclose (h : Place.Doubles q e special)
    (hopen : ∀ offset, Place.outside.step d offset (byteOf q) = .inside (byteOf q) e offset)
    (t : Sql) {s : Sql} (hs : s.head? ≠ some q) (offset : Nat) :
    Place.outside.sectionEnd? d offset (encode (Quoted.enclose q special t ++ s)) =
      some (offset + (encode (Quoted.enclose q special t)).length) := by
  have hencode : ∀ u, encode (Quoted.enclose q special t ++ u) =
      byteOf q :: (encode (Quoted.double special t) ++ byteOf q :: encode u) := by
    intro u
    simp [Quoted.enclose, encode, encode_ascii h.toNat_lt]
  have hlength := congrArg List.length (hencode [])
  rw [List.append_nil] at hlength
  have hsection := section?_double h t (head?_encode_ne h.toNat_lt hs)
  rw [hencode, Place.sectionEnd?_cons rfl, hopen, Place.sectionEnd?_inside, hsection, hlength,
    Option.map_some]
  simp only [List.length_append, List.length_cons, encode, List.flatMap_nil, List.length_nil]
  exact congrArg some (by omega)

end

/-! ### Literals and identifiers -/

/-- A quotation of a text: unless its quote follows, it can be read back, and the reader of
fragments leaves it just behind its last byte. -/
structure IsQuotation (d : Dialect) (q : Char) (escapes : Bool) (quotation text : Sql) : Prop where
  unquote : ∀ rest : Sql, rest.head? ≠ some q →
    unquote? q escapes (quotation ++ rest) = some (text, rest)
  sectionEnd : ∀ rest : Sql, rest.head? ≠ some q → ∀ offset,
    Place.outside.sectionEnd? d offset (encode (quotation ++ rest)) =
      some (offset + (encode quotation).length)

theorem isQuotation_textLiteral (d : Dialect) (text : Sql) :
    IsQuotation d '\'' d.backslashEscapes (d.textLiteral text) text := by
  have hdoubles : Place.Doubles '\'' d.backslashEscapes
      (fun c => c == '\'' || (d.backslashEscapes && c == '\\')) :=
    ⟨by decide, fun _ => by decide, fun c => by simp⟩
  exact ⟨fun _ => unquote?_enclose hdoubles text,
    fun _ => sectionEnd?_enclose hdoubles (fun _ => rfl) text⟩

theorem isQuotation_identifier {q : Char} (hquote : d.identifierQuote = some q)
    (hlt : q.toNat < 128) (hne : q ≠ '\'') (name : String) :
    IsQuotation d q false (d.identifier name) name.toList := by
  have hd : d.HasAsciiQuote := by
    rintro q' hq'
    cases hquote.symm.trans hq'
    exact ⟨hlt, hne⟩
  have hdoubles : Place.Doubles q false (· == q) :=
    ⟨hlt, fun h => Bool.noConfusion h, fun c => by simp⟩
  have hopen : ∀ offset, Place.outside.step d offset (byteOf q) =
      .inside (byteOf q) false offset := by
    intro offset
    rw [← Place.read_ascii hlt, Place.read_outside_identifierQuote hd hquote]
  rw [Dialect.identifier, hquote]
  exact ⟨fun _ => unquote?_enclose hdoubles _, fun _ => sectionEnd?_enclose hdoubles hopen _⟩

/-- **What is quoted can be read back, and ends where the reader of fragments takes it to end.**
This holds of the literal of every text, whether backslashes escape or not, and of every name in a
dialect whose identifier quote is an ASCII character other than the single quote; whatever text
follows, unless it begins with the same quote. -/
theorem quotation_read_back (d : Dialect) :
    (∀ text : String, ∃ literal, (Value.text text).literal d = .ok literal ∧
      IsQuotation d '\'' d.backslashEscapes literal text.toList) ∧
    ∀ q, d.identifierQuote = some q → q.toNat < 128 → q ≠ '\'' → ∀ name : String,
      IsQuotation d q false (d.identifier name) name.toList :=
  ⟨fun text => ⟨_, rfl, isQuotation_textLiteral d text.toList⟩,
    fun _ hquote hlt hne name => isQuotation_identifier hquote hlt hne name⟩

/-- A text with a quote within it and a backslash at its end, and a name that begins and ends with a
backtick and holds a letter of two bytes. -/
theorem quotation_read_back_mysql :
    let rest := " = ''".toList
    let name := "\x60né\x60"
    Dialect.mysql.identifierQuote = some '\x60' ∧ rest.head? ≠ some '\x60' ∧
      (∃ literal, (Value.text "it's \\").literal .mysql = .ok literal ∧
        literal = "'it''s \\\\'".toList ∧
        unquote? '\'' true (literal ++ rest) = some ("it's \\".toList, rest) ∧
        Place.outside.sectionEnd? .mysql 7 (encode (literal ++ rest)) = some 17) ∧
      Dialect.mysql.identifier name = "\x60\x60\x60né\x60\x60\x60".toList ∧
      unquote? '\x60' false (Dialect.mysql.identifier name ++ rest) = some (name.toList, rest) ∧
      Place.outside.sectionEnd? .mysql 7 (encode (Dialect.mysql.identifier name ++ rest)) =
        some 16 := by
  intro rest name
  obtain ⟨hliterals, hnames⟩ := quotation_read_back .mysql
  obtain ⟨literal, hliteral, hquotation⟩ := hliterals "it's \\"
  have hname := hnames '\x60' rfl (by decide) (by decide) name
  have htext : literal = "'it''s \\\\'".toList := (Except.ok.inj hliteral).symm
  have hidentifier : Dialect.mysql.identifier name = "\x60\x60\x60né\x60\x60\x60".toList := by
    decide +kernel
  have hrest : rest.head? ≠ some '\'' := by decide
  have hrest' : rest.head? ≠ some '\x60' := by decide
  refine ⟨rfl, hrest', ⟨literal, hliteral, htext, hquotation.unquote rest hrest, ?_⟩, hidentifier,
    hname.unquote rest hrest', ?_⟩
  · rw [hquotation.sectionEnd rest hrest 7, htext]
    rfl
  · rw [hname.sectionEnd rest hrest' 7, hidentifier]
    rfl

end ExternalTable.Fragment
