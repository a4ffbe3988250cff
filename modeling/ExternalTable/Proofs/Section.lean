import Mathlib.Tactic.Common
import ExternalTable.Fragment.Section

/-!
# Reading quoted sections

How the byte reader of SQL text sees whole characters and whole sections, in a dialect whose
identifier quote, if it has one, is an ASCII character other than the single quote.  No byte of a
longer character is then mistaken for a quote or a backslash, so the reader can be followed
character by character.

* `Dialect.HasAsciiQuote`, `Dialect.isQuote`: the dialects in question, and their quotes;
* `Place.read_outside` and its companions: the place after one character;
* `Place.StaysInside`: reading a text without leaving a section;
* `IsSection`: a text that is one whole section, such as a text literal (`isSection_textLiteral`) or
  a quoted identifier (`isSection_identifier`);
* `Clear`: a text that cannot prolong a section before it.
-/

namespace ExternalTable

/-- The identifier quote, if there is one, is an ASCII character other than the single quote. -/
def Dialect.HasAsciiQuote (d : Dialect) : Prop :=
  ∀ q ∈ d.identifierQuote, q.toNat < 128 ∧ q ≠ '\''

/-- Whether a character opens a quoted section. -/
def Dialect.isQuote (d : Dialect) (c : Char) : Bool :=
  c == '\'' || d.identifierQuote == some c

theorem Dialect.HasAsciiQuote.toNat_lt {d : Dialect} (hd : d.HasAsciiQuote) {q : Char}
    (hq : d.isQuote q = true) : q.toNat < 128 := by
  rcases Bool.or_eq_true_iff.1 hq with h | h
  · rw [beq_iff_eq.1 h]
    decide
  · exact (hd q (beq_iff_eq.1 h)).1

namespace Fragment

/-- The length of a text in bytes. -/
def encodedLength : Sql → Nat
  | [] => 0
  | c :: rest => c.utf8Size + encodedLength rest

@[simp] theorem encodedLength_nil : encodedLength [] = 0 := rfl

@[simp] theorem encodedLength_cons (c : Char) (t : Sql) :
    encodedLength (c :: t) = c.utf8Size + encodedLength t := rfl

@[simp] theorem encodedLength_append (s t : Sql) :
    encodedLength (s ++ t) = encodedLength s + encodedLength t := by
  induction s with
  | nil => simp
  | cons c s ih => simp [ih, Nat.add_assoc]

/-! ### Bytes of a character -/

/-- The byte of an ASCII character. -/
def byteOf (c : Char) : UInt8 := c.toNat.toUInt8

theorem toNat_byteOf {c : Char} (hc : c.toNat < 128) : (byteOf c).toNat = c.toNat := by
  simp only [byteOf, Nat.toUInt8, UInt8.toNat_ofNat']
  omega

theorem byteOf_inj {c q : Char} (hc : c.toNat < 128) (hq : q.toNat < 128) :
    byteOf c = byteOf q ↔ c = q := by
  constructor
  · intro h
    have hn : c.toNat = q.toNat := by rw [← toNat_byteOf hc, h, toNat_byteOf hq]
    exact Char.toNat_inj.1 hn
  · rintro rfl
    rfl

theorem encode_ascii {c : Char} (hc : c.toNat < 128) : String.utf8EncodeChar c = [byteOf c] := by
  have h : c.val.toNat ≤ 127 := Nat.le_of_lt_succ hc
  simp only [String.utf8EncodeChar, h, if_true]
  rfl

/-- Every byte of a character beyond ASCII is at least 128. -/
theorem le_of_mem_encode {c : Char} (hc : 128 ≤ c.toNat) {b : UInt8}
    (hb : b ∈ String.utf8EncodeChar c) : 128 ≤ b.toNat := by
  have h : ¬ c.val.toNat ≤ 127 := Nat.not_le_of_lt hc
  simp only [String.utf8EncodeChar, h, if_false] at hb
  split_ifs at hb <;> simp only [List.mem_cons, List.not_mem_nil, or_false] at hb
  · rcases hb with rfl | rfl <;> simp <;> omega
  · rcases hb with rfl | rfl | rfl <;> simp <;> omega
  · rcases hb with rfl | rfl | rfl | rfl <;> simp <;> omega

/-! ### Places after one character -/

namespace Place

variable {d : Dialect}

theorem read_ascii {c : Char} (hc : c.toNat < 128) (offset : Nat) (p : Place) :
    p.read d offset c = p.step d offset (byteOf c) := by
  rw [read, encode_ascii hc]
  rfl

theorem identifierByte?_eq {q : Char} (h : d.identifierQuote = some q) (hd : d.HasAsciiQuote) :
    identifierByte? d = some (byteOf q) := by
  obtain ⟨hlt, hne⟩ := hd q h
  have h256 : q.toNat < 256 := by omega
  simp [identifierByte?, h, h256, hne, byteOf]

/-- The identifier byte is that of the identifier quote. -/
theorem exists_of_identifierByte? (hd : d.HasAsciiQuote) {b : UInt8}
    (h : identifierByte? d = some b) : ∃ q, d.identifierQuote = some q ∧ b = byteOf q := by
  cases hq : d.identifierQuote with
  | none => simp [identifierByte?, hq] at h
  | some q =>
    rw [identifierByte?_eq hq hd] at h
    exact ⟨q, rfl, (Option.some.inj h).symm⟩

/-- A byte that belongs to no quote leaves the reader outside. -/
theorem afterOutside_of_not_quote (hd : d.HasAsciiQuote) {b : UInt8}
    (h : ∀ q, d.isQuote q = true → b ≠ byteOf q) (offset : Nat) :
    afterOutside d offset b = .outside := by
  have hs : b ≠ singleQuote := h '\'' rfl
  have hi : identifierByte? d ≠ some b := by
    intro hb
    obtain ⟨q, hq, rfl⟩ := exists_of_identifierByte? hd hb
    exact h q (by simp [Dialect.isQuote, hq]) rfl
  rw [afterOutside, if_neg hs, if_neg hi]

/-- Bytes of characters beyond ASCII are read over outside of sections, and within them. -/
theorem stepAll_high (hd : d.HasAsciiQuote) {p : Place}
    (hp : p = .outside ∨ ∃ q e s, q.toNat < 128 ∧ p = .inside q e s) {bs : List UInt8}
    (hb : ∀ b ∈ bs, 128 ≤ b.toNat) (offset : Nat) : p.stepAll d offset bs = p := by
  induction bs generalizing offset with
  | nil => rfl
  | cons b bs ih =>
    have hb' : 128 ≤ b.toNat := hb b (by simp)
    have hstep : p.step d offset b = p := by
      rcases hp with rfl | ⟨q, e, s, hq, rfl⟩
      · refine afterOutside_of_not_quote hd (fun q hq hbq => ?_) offset
        have hlt := hd.toNat_lt hq
        rw [hbq, toNat_byteOf hlt] at hb'
        omega
      · have hbackslash : b ≠ backslash := by
          rintro rfl
          exact absurd hb' (by decide)
        have hquote : b ≠ q := by
          rintro rfl
          omega
        simp [step, hbackslash, hquote]
    rw [stepAll, hstep]
    exact ih (fun b hb' => hb b (by simp [hb'])) (offset + 1)

theorem read_high (hd : d.HasAsciiQuote) {c : Char} (hc : 128 ≤ c.toNat) {p : Place}
    (hp : p = .outside ∨ ∃ q e s, q.toNat < 128 ∧ p = .inside q e s) (offset : Nat) :
    p.read d offset c = p :=
  stepAll_high hd hp (fun _ hb => le_of_mem_encode hc hb) offset

/-- A character that is no quote is read over outside of sections. -/
theorem read_outside (hd : d.HasAsciiQuote) {c : Char} (hc : d.isQuote c = false) (offset : Nat) :
    Place.outside.read d offset c = .outside := by
  rcases Nat.lt_or_ge c.toNat 128 with hlt | hge
  · rw [read_ascii hlt]
    refine afterOutside_of_not_quote hd (fun q hq hbq => ?_) offset
    rw [byteOf_inj hlt (hd.toNat_lt hq)] at hbq
    rw [hbq, hq] at hc
    exact Bool.noConfusion hc
  · exact read_high hd hge (.inl rfl) offset

/-- A single quote opens a literal. -/
theorem read_outside_singleQuote (offset : Nat) :
    Place.outside.read d offset '\'' = .inside (byteOf '\'') d.backslashEscapes offset := by
  rw [read_ascii (by decide)]
  rfl

/-- The identifier quote opens an identifier. -/
theorem read_outside_identifierQuote (hd : d.HasAsciiQuote) {q : Char}
    (hq : d.identifierQuote = some q) (offset : Nat) :
    Place.outside.read d offset q = .inside (byteOf q) false offset := by
  obtain ⟨hlt, hne⟩ := hd q hq
  have hs : byteOf q ≠ singleQuote := fun h => hne ((byteOf_inj hlt (by decide)).1 h)
  rw [read_ascii hlt]
  simp [step, afterOutside, hs, identifierByte?_eq hq hd]

/-- Within a section a backslash that escapes protects the next byte, and the quote of the section
may end it. -/
theorem read_inside (hd : d.HasAsciiQuote) {q : Char} (hq : q.toNat < 128) (e : Bool) (s : Nat)
    (c : Char) (offset : Nat) :
    (Place.inside (byteOf q) e s).read d offset c =
      if e = true ∧ c = '\\' then .escaped (byteOf q) s
      else if c = q then .closing (byteOf q) e s else .inside (byteOf q) e s := by
  rcases Nat.lt_or_ge c.toNat 128 with hlt | hge
  · have hbackslash : byteOf c = byteOf '\\' ↔ c = '\\' := byteOf_inj hlt (by decide)
    rw [show byteOf '\\' = backslash from rfl] at hbackslash
    rw [read_ascii hlt]
    simp [step, hbackslash, byteOf_inj hlt hq]
  · have hbackslash : c ≠ '\\' := by
      rintro rfl
      exact absurd hge (by decide)
    have hquote : c ≠ q := by
      rintro rfl
      omega
    rw [read_high hd hge (.inr ⟨_, _, _, by rw [toNat_byteOf hq]; exact hq, rfl⟩)]
    simp [hbackslash, hquote]

/-- A protected character stays in its section. -/
theorem read_escaped (hd : d.HasAsciiQuote) {q : Char} (hq : q.toNat < 128) (s : Nat) (c : Char)
    (offset : Nat) :
    (Place.escaped (byteOf q) s).read d offset c = .inside (byteOf q) true s := by
  rw [read]
  cases hbs : String.utf8EncodeChar c with
  | nil => exact absurd hbs String.utf8EncodeChar_ne_nil
  | cons b bs =>
    refine stepAll_high hd (.inr ⟨_, _, _, by rw [toNat_byteOf hq]; exact hq, rfl⟩) ?_ (offset + 1)
    intro b' hb'
    rcases Nat.lt_or_ge c.toNat 128 with hlt | hge
    · rw [encode_ascii hlt] at hbs
      rw [(List.cons.inj hbs).2.symm] at hb'
      exact absurd hb' List.not_mem_nil
    · exact le_of_mem_encode hge (by rw [hbs]; exact List.mem_cons_of_mem _ hb')

/-- After a quote that may end its section, the same quote stays in the section. -/
theorem read_closing_self {q : Char} (hq : q.toNat < 128) (e : Bool) (s offset : Nat) :
    (Place.closing (byteOf q) e s).read d offset q = .inside (byteOf q) e s := by
  rw [read_ascii hq]
  simp [step]

/-- After a quote that may end its section, any character but that quote is read outside. -/
theorem read_closing {q c : Char} (hq : q.toNat < 128) (hc : c ≠ q) (e : Bool) (s offset : Nat) :
    (Place.closing (byteOf q) e s).read d offset c = Place.outside.read d offset c := by
  have key : ∀ b bs, b ≠ byteOf q → (Place.closing (byteOf q) e s).stepAll d offset (b :: bs) =
      Place.outside.stepAll d offset (b :: bs) := by
    intro b bs hb
    simp [stepAll, step, hb]
  rw [read, read]
  rcases Nat.lt_or_ge c.toNat 128 with hlt | hge
  · rw [encode_ascii hlt]
    exact key _ _ (fun h => hc ((byteOf_inj hlt hq).1 h))
  · cases hbs : String.utf8EncodeChar c with
    | nil => exact absurd hbs String.utf8EncodeChar_ne_nil
    | cons b bs =>
      refine key b bs ?_
      rintro rfl
      have := le_of_mem_encode hge (b := byteOf q) (by rw [hbs]; exact List.mem_cons_self)
      rw [toNat_byteOf hq] at this
      omega

/-! ### Whole sections -/

/-- Whether a reader is within a section, or just after a quote that may end one, after every
character of a text. -/
def StaysInside (d : Dialect) (offset : Nat) (p : Place) : Sql → Prop
  | [] => True
  | c :: rest =>
      p.read d offset c ≠ .outside ∧
        (p.read d offset c).StaysInside d (offset + c.utf8Size) rest

theorem readAll_append (d : Dialect) (offset : Nat) (p : Place) (s t : Sql) :
    p.readAll d offset (s ++ t) =
      (p.readAll d offset s).readAll d (offset + encodedLength s) t := by
  induction s generalizing offset p with
  | nil => rfl
  | cons c s ih => simp [readAll, ih, Nat.add_assoc]

theorem staysInside_append {offset : Nat} {p : Place} {s t : Sql} :
    p.StaysInside d offset (s ++ t) ↔ p.StaysInside d offset s ∧
      (p.readAll d offset s).StaysInside d (offset + encodedLength s) t := by
  induction s generalizing offset p with
  | nil => simp [StaysInside, readAll]
  | cons c s ih => simp [StaysInside, readAll, ih, Nat.add_assoc, and_assoc]

/-- What doubling has to do for a text between two quotes `q`: exactly the quote, and the backslash
where it escapes, are written twice. -/
structure Doubles (q : Char) (escapes : Bool) (special : Char → Bool) : Prop where
  toNat_lt : q.toNat < 128
  ne_backslash : escapes = true → q ≠ '\\'
  special_iff : ∀ c, special c = true ↔ c = q ∨ (escapes = true ∧ c = '\\')

/-- Doubled text does not end the section it stands in. -/
theorem inside_double (hd : d.HasAsciiQuote) {q : Char} {e : Bool} {special : Char → Bool}
    (h : Doubles q e special) (s : Nat) (t : Sql) (offset : Nat) :
    (Place.inside (byteOf q) e s).StaysInside d offset (Quoted.double special t) ∧
      (Place.inside (byteOf q) e s).readAll d offset (Quoted.double special t) =
        .inside (byteOf q) e s := by
  induction t generalizing offset with
  | nil => exact ⟨trivial, rfl⟩
  | cons c t ih =>
    by_cases hc : special c = true
    · rw [Quoted.double, if_pos hc]
      simp only [StaysInside, readAll, read_inside hd h.toNat_lt]
      rcases (h.special_iff c).1 hc with rfl | ⟨he, rfl⟩
      · have hne : ¬ (e = true ∧ c = '\\') := fun hec => h.ne_backslash hec.1 hec.2
        simp [hne, read_closing_self h.toNat_lt, ih]
      · subst he
        simp [read_escaped hd h.toNat_lt, ih]
    · have hne : ¬ (e = true ∧ c = '\\') := fun hec => hc ((h.special_iff c).2 (.inr hec))
      have hq : c ≠ q := fun hcq => hc ((h.special_iff c).2 (.inl hcq))
      rw [Quoted.double, if_neg hc]
      simp [StaysInside, readAll, read_inside hd h.toNat_lt, hne, hq, ih]

end Place

/-- A text that a reader takes for one whole section: it stays inside from the opening quote on, and
ends just after a quote of the dialect. -/
def IsSection (d : Dialect) (t : Sql) : Prop :=
  ∀ offset, Place.outside.StaysInside d offset t ∧
    ∃ q e, d.isQuote q = true ∧
      Place.outside.readAll d offset t = .closing (byteOf q) e offset

/-- Doubled text between two quotes is one section. -/
theorem isSection_enclose {d : Dialect} (hd : d.HasAsciiQuote) {q : Char} {e : Bool}
    {special : Char → Bool} (h : Place.Doubles q e special) (hq : d.isQuote q = true)
    (hopen : ∀ offset, Place.outside.read d offset q = .inside (byteOf q) e offset) (t : Sql) :
    IsSection d (Quoted.enclose q special t) := by
  intro offset
  have hne : ¬ (e = true ∧ q = '\\') := fun hec => h.ne_backslash hec.1 hec.2
  obtain ⟨hstay, hread⟩ := Place.inside_double hd h offset t (offset + q.utf8Size)
  have hclose : ∀ o,
      (Place.inside (byteOf q) e offset).read d o q = .closing (byteOf q) e offset := by
    intro o
    rw [Place.read_inside hd h.toNat_lt, if_neg hne, if_pos rfl]
  refine ⟨?_, q, e, hq, ?_⟩
  · simp [Quoted.enclose, Place.StaysInside, Place.staysInside_append, hopen, hstay, hread, hclose]
  · simp [Quoted.enclose, Place.readAll, Place.readAll_append, hopen, hread, hclose]

/-- A text literal is one section. -/
theorem isSection_textLiteral {d : Dialect} (hd : d.HasAsciiQuote) (t : Sql) :
    IsSection d (d.textLiteral t) := by
  refine isSection_enclose hd (e := d.backslashEscapes) ⟨by decide, fun _ => by decide, fun c => ?_⟩
    rfl Place.read_outside_singleQuote t
  simp

/-- A quoted identifier is one section. -/
theorem isSection_identifier {d : Dialect} (hd : d.HasAsciiQuote) {q : Char}
    (hq : d.identifierQuote = some q) (name : String) : IsSection d (d.identifier name) := by
  have hdoubles : Place.Doubles q false (· == q) :=
    ⟨(hd q hq).1, fun h => Bool.noConfusion h, fun c => by simp⟩
  have := isSection_enclose hd hdoubles (by simp [Dialect.isQuote, hq])
    (Place.read_outside_identifierQuote hd hq) name.toList
  simpa [Dialect.identifier, hq] using this

/-- A text that does not begin with a quote, so that it cannot prolong a section before it. -/
def Clear (d : Dialect) (t : Sql) : Prop :=
  ∀ c ∈ t.head?, d.isQuote c = false

@[simp] theorem clear_nil (d : Dialect) : Clear d [] := by
  simp [Clear]

@[simp] theorem clear_cons {d : Dialect} {c : Char} {t : Sql} :
    Clear d (c :: t) ↔ d.isQuote c = false := by
  simp [Clear]

theorem Clear.append {d : Dialect} {s t : Sql} (hs : Clear d s) (ht : Clear d t) :
    Clear d (s ++ t) := by
  cases s with
  | nil => exact ht
  | cons c s => exact clear_cons.2 (clear_cons.1 hs)

/-- After a quote that may end its section, a clear text is read outside. -/
theorem Clear.read_closing {d : Dialect} (hd : d.HasAsciiQuote) {q c : Char} {t : Sql}
    (h : Clear d (c :: t)) (hq : d.isQuote q = true) (e : Bool) (s offset : Nat) :
    (Place.closing (byteOf q) e s).read d offset c = Place.outside.read d offset c := by
  refine Place.read_closing (hd.toNat_lt hq) ?_ e s offset
  rintro rfl
  rw [clear_cons.1 h] at hq
  exact Bool.noConfusion hq

end Fragment

end ExternalTable
