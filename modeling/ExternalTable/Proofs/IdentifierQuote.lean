import ExternalTable.Proofs.Binding
import ExternalTable.Proofs.Exposure

/-!
# Identifier quotes

Binding copies a quoted identifier, whatever stands in its name, where the identifier quote is an
ASCII character.  The reader looks for a single byte, so with every other quote there is a name in
which it takes a brace for the beginning of a marker.

* `IsVerbatim`: a name that binding and grouping treat as a whole;
* `isVerbatim_of_ascii`: every name, where the quote is an ASCII character;
* `bind_of_exposed`: a brace in a name that the reader sees outside of sections;
* `exists_exposed`: such a name for every other quote;
* `isVerbatim_or_malformed`: the main statement.
-/

namespace ExternalTable.Fragment

variable {d : Dialect} {q : Char}

/-- A name whose spelling is one whole section: whatever it contains, binding copies it, and no `OR`
is found in it. -/
structure IsVerbatim (d : Dialect) (name : String) : Prop where
  quoted : IsSection d (d.identifier name)
  copied : ∀ params, bind d params (d.identifier name) = .ok (d.identifier name)
  whole : hasTopLevelOr d (d.identifier name) = false

/-! ### ASCII quotes -/

theorem isVerbatim_of_ascii (hquote : d.identifierQuote = some q) (hlt : q.toNat < 128)
    (hne : q ≠ '\'') (name : String) : IsVerbatim d name := by
  have hd : d.HasAsciiQuote := by
    intro q' hq'
    cases hquote.symm.trans hq'
    exact ⟨hlt, hne⟩
  have hsection : IsSection d (d.identifier name) := isSection_identifier hd hquote name
  refine ⟨hsection, fun params => ?_, ?_⟩
  · have hfills : Fills d params (d.identifier name) [] (d.identifier name) :=
      fills_section hd hsection
    have hrun := hfills 0 [] (clear_nil d)
    rw [List.append_nil] at hrun
    rw [bind, hrun]
    exact congrArg Except.ok (List.append_nil _)
  · obtain ⟨hstay, q', e, -, hread⟩ := hsection 0
    have hskip := hasTopLevelOrFrom_staysInside hstay 0 []
    rw [List.append_nil, hread] at hskip
    exact hskip

/-! ### Other quotes -/

theorem identifierByte?_of_lt (hquote : d.identifierQuote = some q) (hlt : q.toNat < 256)
    (hne : q ≠ '\'') : identifierByte? d = some (byteOf q) := by
  rw [identifierByte?, hquote]
  exact if_pos ⟨hlt, hne⟩

/-- The identifier byte, where there is one, has the value of the quote. -/
theorem toNat_of_identifierByte? (hquote : d.identifierQuote = some q) {b : UInt8}
    (hb : identifierByte? d = some b) : b.toNat = q.toNat := by
  by_cases hq : q.toNat < 256 ∧ q ≠ '\''
  · cases (identifierByte?_of_lt hquote hq.1 hq.2).symm.trans hb
    exact UInt8.toNat_ofNat_of_lt' hq.1
  · rw [identifierByte?, hquote] at hb
    cases (if_neg hq).symm.trans hb

theorem identifierByte?_ne (hquote : d.identifierQuote = some q) {b : UInt8}
    (hb : b.toNat ≠ q.toNat) : identifierByte? d ≠ some b :=
  fun h => hb (toNat_of_identifierByte? hquote h)

/-- The two bytes of a character from U+0080 to U+00FF. -/
theorem encode_latin {c : Char} (hge : 128 ≤ c.toNat) (hlt : c.toNat < 256) :
    String.utf8EncodeChar c =
      [UInt8.ofNat (c.toNat / 64 + 192), UInt8.ofNat (c.toNat % 64 + 128)] := by
  have h7 : ¬ c.val.toNat ≤ 127 := Nat.not_le_of_lt hge
  have h11 : c.val.toNat ≤ 2047 := Nat.le_trans (Nat.le_of_lt hlt) (by decide)
  have hlead : c.toNat / 64 % 32 = c.toNat / 64 := by omega
  rw [← hlead]
  simp only [String.utf8EncodeChar, h7, h11, if_false, if_true]
  rfl

namespace Place

/-- A character none of whose bytes is a quote is read over outside of sections. -/
theorem read_unseen {c : Char}
    (hc : ∀ b ∈ String.utf8EncodeChar c, b ≠ singleQuote ∧ identifierByte? d ≠ some b)
    (offset : Nat) : Place.outside.read d offset c = .outside := by
  rw [read]
  generalize String.utf8EncodeChar c = bs at hc
  induction bs generalizing offset with
  | nil => rfl
  | cons b bs ih =>
    obtain ⟨⟨hsingle, hident⟩, hbs⟩ := List.forall_mem_cons.1 hc
    rw [stepAll, step, afterOutside, if_neg hsingle, if_neg hident]
    exact ih (offset + 1) hbs

/-- A brace is read over outside of sections, where the identifier quote is no ASCII character. -/
theorem read_markerOpen (hquote : d.identifierQuote = some q) (hq : 128 ≤ q.toNat) (offset : Nat) :
    Place.outside.read d offset markerOpen = .outside := by
  refine read_unseen (fun b hb => ?_) offset
  obtain rfl : b = 123 := List.mem_singleton.1 hb
  refine ⟨by decide, identifierByte?_ne hquote ?_⟩
  change 123 ≠ q.toNat
  omega

end Place

/-- Characters that begin no marker are copied, wherever the reader stands. -/
theorem run_unmarked {s : Sql} (hs : markerOpen ∉ s) (params : List Value) (p : Place)
    (offset : Nat) (rest : Sql) :
    (Cursor.text p).run d params offset (s ++ rest) =
      ((Cursor.text (p.readAll d offset s)).run d params (offset + encodedLength s) rest).map
        (s ++ ·) := by
  induction s generalizing offset p with
  | nil =>
    cases h : (Cursor.text p).run d params offset rest <;> simp [Except.map, Place.readAll, h]
  | cons c s ih =>
    obtain ⟨hc, hs⟩ := not_or.1 (List.mem_cons.not.1 hs)
    have hstep : (Cursor.text p).step d params offset c = .ok (.text (p.read d offset c), [c]) :=
      if_neg fun h => hc h.1.symm
    rw [List.cons_append, Cursor.run, hstep, encodedLength_cons, ← Nat.add_assoc]
    change ((Cursor.text (p.read d offset c)).run d params (offset + c.utf8Size)
      (s ++ rest)).map _ = _
    rw [ih hs, map_map_append]
    rfl

theorem double_eq_self {special : Char → Bool} {s : Sql} (hs : ∀ c ∈ s, special c = false) :
    Quoted.double special s = s := by
  induction s with
  | nil => rfl
  | cons c s ih =>
    obtain ⟨hc, hs⟩ := List.forall_mem_cons.1 hs
    rw [Quoted.double, hc, ih hs]
    rfl

theorem isDigit_eq_false {c : Char} (hc : 128 ≤ c.toNat) : c.isDigit = false := by
  have hle : ¬ c.val ≤ '9'.val := fun h => absurd (UInt32.le_iff_toNat_le.1 h)
    (Nat.not_le_of_lt (Nat.lt_of_lt_of_le (by decide) hc))
  rw [Char.isDigit, decide_eq_false hle, Bool.and_false]

/-- A reader that stands outside of sections after the quote and a part of the name. -/
def Exposed (d : Dialect) (q : Char) (t : Sql) : Prop :=
  markerOpen ∉ q :: t ∧ q ∉ t ∧
    (Place.outside.readAll d 0 (q :: t)).read d (encodedLength (q :: t)) markerOpen = .outside

/-- A brace that the reader sees outside of sections begins a marker, and the quote after it is no
digit. -/
theorem bind_of_exposed (hquote : d.identifierQuote = some q) (hq : q.isDigit = false) {t : Sql}
    (ht : Exposed d q t) (params : List Value) :
    bind d params (d.identifier (String.ofList (t ++ [markerOpen]))) =
      .error (.malformedMarker (encodedLength (q :: t))) := by
  obtain ⟨hunmarked, hquotes, hplace⟩ := ht
  have hspelling : d.identifier (String.ofList (t ++ [markerOpen])) = (q :: t) ++ [markerOpen, q] := by
    have hdouble : Quoted.double (· == q) (t ++ [markerOpen]) = t ++ [markerOpen] := by
      refine double_eq_self fun c hc => beq_eq_false_iff_ne.2 ?_
      rintro rfl
      rcases List.mem_append.1 hc with hc | hc
      · exact hquotes hc
      · exact hunmarked (List.mem_singleton.1 hc ▸ List.mem_cons_self)
    rw [Dialect.identifier, hquote]
    simp only [Quoted.enclose, String.toList_ofList, hdouble, List.cons_append, List.append_assoc,
      List.nil_append]
  have hopen : (Cursor.text (Place.outside.readAll d 0 (q :: t))).step d params
      (encodedLength (q :: t)) markerOpen = .ok (.marker (encodedLength (q :: t)) none, []) :=
    if_pos ⟨rfl, hplace⟩
  rw [bind, hspelling, run_unmarked hunmarked, Nat.zero_add, Cursor.run, hopen]
  simp [Cursor.run, Cursor.step, hq, Except.map]

theorem markerOpen_ne {c : Char} (hc : 128 ≤ c.toNat) : markerOpen ≠ c := by
  rintro rfl
  exact absurd hc (by decide)

/-- A quote none of whose bytes is looked for does not open a section. -/
theorem exposed_nil (hquote : d.identifierQuote = some q) (hq : 128 ≤ q.toNat)
    (hbytes : ∀ b ∈ String.utf8EncodeChar q, b.toNat ≠ q.toNat) : Exposed d q [] := by
  have hread : Place.outside.read d 0 q = .outside := by
    refine Place.read_unseen (fun b hb => ⟨?_, identifierByte?_ne hquote (hbytes b hb)⟩) 0
    rintro rfl
    exact absurd (le_of_mem_encode hq hb) (by decide)
  refine ⟨List.mem_singleton.not.2 (markerOpen_ne hq), List.not_mem_nil, ?_⟩
  · rw [Place.readAll, hread]
    exact Place.read_markerOpen hquote hq _

theorem exists_char {n : Nat} (hn : n < 256) : ∃ c : Char, c.toNat = n := by
  have hvalid : n.isValidChar := .inl (by omega)
  exact ⟨Char.ofNat n, by rw [Char.ofNat, dif_pos hvalid]; rfl⟩

theorem ne_byteOf (hlt : q.toNat < 256) {b : UInt8} (hb : b.toNat ≠ q.toNat) : b ≠ byteOf q := by
  rintro rfl
  exact hb (UInt8.toNat_ofNat_of_lt' hlt)

/-- A quote up to U+00BF is found as the last byte of itself, and of the character 64 places after
it, which thereby ends the section. -/
theorem exposed_next (hquote : d.identifierQuote = some q) (hge : 128 ≤ q.toNat)
    (hlt : q.toNat < 192) {c : Char} (hc : c.toNat = q.toNat + 64) : Exposed d q [c] := by
  have hlt' : q.toNat < 256 := by omega
  have hident : identifierByte? d = some (byteOf q) :=
    identifierByte?_of_lt hquote hlt' (by rintro rfl; exact absurd hge (by decide))
  have hencode : String.utf8EncodeChar q = [194, byteOf q] := by
    rw [encode_latin hge hlt', show q.toNat / 64 + 192 = 194 by omega,
      show q.toNat % 64 + 128 = q.toNat by omega]
    rfl
  have hencode' : String.utf8EncodeChar c = [195, byteOf q] := by
    rw [encode_latin (by omega) (by omega), show c.toNat / 64 + 192 = 195 by omega,
      show c.toNat % 64 + 128 = q.toNat by omega]
    rfl
  have h39 : (39 : UInt8) ≠ byteOf q := ne_byteOf hlt' (by change 39 ≠ _; omega)
  have h194 : (194 : UInt8) ≠ byteOf q := ne_byteOf hlt' (by change 194 ≠ _; omega)
  have h195 : (195 : UInt8) ≠ byteOf q := ne_byteOf hlt' (by change 195 ≠ _; omega)
  have h123 : (123 : UInt8) ≠ byteOf q := ne_byteOf hlt' (by change 123 ≠ _; omega)
  have hopen : ∀ o, Place.outside.read d o q = .inside (byteOf q) false (o + 1) := by
    intro o
    rw [Place.read, hencode]
    simp [Place.stepAll, Place.step, Place.afterOutside, hident, h39.symm, h194.symm,
      singleQuote]
  have hclose : ∀ o s, (Place.inside (byteOf q) false s).read d o c =
      .closing (byteOf q) false s := by
    intro o s
    rw [Place.read, hencode']
    simp [Place.stepAll, Place.step, h195]
  have hleave : ∀ o s, (Place.closing (byteOf q) false s).read d o markerOpen = .outside := by
    intro o s
    rw [← Place.read_markerOpen hquote hge o]
    exact if_neg h123
  refine ⟨?_, ?_, ?_⟩
  · simp [markerOpen_ne hge, markerOpen_ne (by omega : 128 ≤ c.toNat)]
  · rw [List.mem_singleton]
    rintro rfl
    omega
  · simp only [Place.readAll, hopen, hclose, hleave]

/-- The quote U+00C3 is found as the first byte of itself and of its neighbours. -/
theorem exposed_lead (hquote : d.identifierQuote = some 'Ã') : Exposed d 'Ã' ['À'] := by
  have hident : identifierByte? d = some 195 :=
    identifierByte?_of_lt hquote (by decide) (by decide)
  refine ⟨by decide, by decide, ?_⟩
  have hbytes : String.utf8EncodeChar 'Ã' = [195, 131] ∧ String.utf8EncodeChar 'À' = [195, 128] ∧
      String.utf8EncodeChar markerOpen = [123] := by decide
  simp [Place.readAll, Place.read, hbytes, Place.stepAll, Place.step, Place.afterOutside, hident,
    singleQuote]

/-- With a quote beyond ASCII there is a part of a name after which the reader stands outside. -/
theorem exists_exposed (hquote : d.identifierQuote = some q) (hq : 128 ≤ q.toNat) :
    ∃ t, Exposed d q t := by
  rcases Nat.lt_or_ge q.toNat 256 with hlt | hge
  · rcases Nat.lt_or_ge q.toNat 192 with hlt' | hge'
    · obtain ⟨c, hc⟩ := exists_char (n := q.toNat + 64) (by omega)
      exact ⟨[c], exposed_next hquote hq hlt' hc⟩
    · by_cases hlead : q = 'Ã'
      · subst hlead
        exact ⟨_, exposed_lead hquote⟩
      · have hne : q.toNat ≠ 195 := fun h => hlead (Char.toNat_inj.1 h)
        refine ⟨[], exposed_nil hquote hq ?_⟩
        rw [encode_latin hq hlt, show q.toNat / 64 + 192 = 195 by omega]
        refine List.forall_mem_cons.2 ⟨hne.symm, List.forall_mem_singleton.2 ?_⟩
        rw [UInt8.toNat_ofNat_of_lt' (by change _ < 256; omega)]
        omega
  · refine ⟨[], exposed_nil hquote hq fun b hb => ?_⟩
    have := b.toNat_lt
    omega

/-- **Binding copies quoted identifiers where their quote is an ASCII character.**  Then every name is
one whole section, which is copied whatever the parameters are, and in which no `OR` is found.  With
any other quote there is a name that is refused, with whatever parameters, as a brace in it is taken
for the beginning of a marker. -/
theorem isVerbatim_or_malformed (hquote : d.identifierQuote = some q) (hne : q ≠ '\'') :
    (q.toNat < 128 → ∀ name, IsVerbatim d name) ∧
      (128 ≤ q.toNat → ∃ name start, ∀ params,
        bind d params (d.identifier name) = .error (.malformedMarker start)) := by
  refine ⟨fun hlt => isVerbatim_of_ascii hquote hlt hne, fun hge => ?_⟩
  obtain ⟨t, ht⟩ := exists_exposed hquote hge
  exact ⟨_, _, bind_of_exposed hquote (isDigit_eq_false hge) ht⟩

/-- A name full of markers, quotes and connectives between backquotes, and a dialect whose quote is
the byte of a letter. -/
theorem isVerbatim_or_malformed_backquote :
    IsVerbatim .mysql "\x7b0\x7d' OR \x60" ∧
      ∃ name start, ∀ params, bind ⟨"guillemet", some '«', false⟩ params
        (Dialect.identifier ⟨"guillemet", some '«', false⟩ name) =
          .error (.malformedMarker start) :=
  ⟨(isVerbatim_or_malformed (d := .mysql) rfl (by decide)).1 (by decide) _,
    (isVerbatim_or_malformed rfl (by decide)).2 (by decide)⟩

/-- A marker within a name is replaced where the identifier quote is a curly one. -/
theorem identifier_filled_between_curly_quotes :
    let d : Dialect := ⟨"curly", some '“', false⟩
    d.identifier "\x7b0\x7d" = "“\x7b0\x7d“".toList ∧
      bind d [.int 1] (d.identifier "\x7b0\x7d") = .ok "“1“".toList := by
  decide

end ExternalTable.Fragment
