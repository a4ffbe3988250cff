import ExternalTable.Proofs.Grouping
import ExternalTable.Proofs.Token

/-!
# Binding a bound text

What stands in place of a marker is not read again.  Nothing would come of it if it were: a reader of
the bound text keeps step with the reader of the fragment, and meets the braces, quotes and backslashes
of the parameters in quoted sections only, also where literals merge with the sections around them.

* `Binds.run_eq_ok`: the reader copies a bound text, whatever its own parameters are;
* `exists_write_of_writeAll`: tokens that are written together are written one by one;
* `bind_bound`: the main statement.
-/

namespace ExternalTable.Fragment

variable {d : Dialect} {params : List Value}

/-- A reader that keeps step with the binding of a text copies the bound text. -/
theorem Binds.run_eq_ok (hd : d.IsCommon) {p p' : Place} {offset : Nat} {t bound : Sql}
    (h : Binds d params p offset t bound) (hp : p.Shadows d p') (others : List Value)
    (offset' : Nat) : (Cursor.text p').run d others offset' bound = .ok bound := by
  have hascii := hd.hasAsciiQuote
  induction h generalizing p' offset' with
  | done hend =>
    rw [Cursor.run, Cursor.finish, hp.openedAt?_eq_none_iff.1 hend]
    rfl
  | @copy p offset c rest bound hopen _ ih =>
    have hagrees := hp.read hascii c offset offset'
    have hstep : (Cursor.text p').step d others offset' c = .ok (.text (p'.read d offset' c), [c]) :=
      if_neg fun h => hopen ⟨h.1, hagrees.eq_outside_iff.2 h.2⟩
    rw [Cursor.run, hstep]
    simp only [ih (.same hagrees)]
    rfl
  | @fill p offset digits rest text bound hread _ _ hparameter _ ih =>
    rcases literal_of_parameter hparameter with ⟨s, rfl⟩ | hword
    · obtain ⟨hstay, hshadows⟩ := hp.textLiteral hascii hread s offset'
      rw [run_staysInside hstay, ih hshadows]
      rfl
    · obtain ⟨hne, hchars⟩ := isWord_of_literal hword
      have hplain : ∀ c ∈ text, IsPlain d c := fun c hc => isPlain_of_isWordChar hd (hchars c hc)
      obtain ⟨c, s, rfl⟩ := List.exists_cons_of_ne_nil hne
      have hquote := (hplain c List.mem_cons_self).1
      -- The word is read as it would be read outside of sections, where it is copied.
      have hfirst : (Cursor.text p').run d others offset' (c :: s ++ bound) =
          (Cursor.text .outside).run d others offset' (c :: s ++ bound) := by
        rw [List.cons_append, Cursor.run, Cursor.run, Cursor.step, Cursor.step,
          hp.read_of_not_quote hascii hread hquote, Place.read_outside hascii hquote]
      rw [hfirst, run_plain hascii hplain, ih (.same .outside)]
      rfl

/-- Tokens that are written together are written one by one. -/
theorem exists_write_of_writeAll {offset : Nat} {ts : List Token} {written : List UInt8}
    (h : writeAll d params offset ts = .ok written) :
    ∀ t ∈ ts, ∃ start piece, t.write d params start = .ok piece := by
  induction ts generalizing offset written with
  | nil => simp
  | cons t ts ih =>
    obtain ⟨piece, rest, hwrite, hrest, -⟩ := writeAll_cons_eq_ok_iff.1 h
    exact List.forall_mem_cons.2 ⟨⟨offset, piece, hwrite⟩, ih hrest⟩

/-- Without parameters, no marker can be written. -/
theorem token_of_write_nil {t : Token} {start : Nat} {piece : List UInt8}
    (h : t.write d [] start = .ok piece) :
    (∃ quote inner, t = .quoted quote inner) ∨ ∃ b, t = .other b ∧ b ≠ byteOf markerOpen := by
  cases t with
  | quoted quote inner => exact .inl ⟨quote, inner, rfl⟩
  | unterminated quote inner => cases h
  | marker digits =>
    rw [write_marker, parameter] at h
    split_ifs at h
    cases h
  | other b =>
    rw [Token.write] at h
    split_ifs at h with hb
    exact .inr ⟨b, rfl, hb⟩

/-- **No marker survives binding**.  In a common dialect, a bound text is bound to itself, whatever
the parameters are: its tokens are whole quoted sections and other bytes, none of which is an opening
brace. -/
theorem bind_bound (hd : d.IsCommon) {fragment bound : Sql}
    (h : bind d params fragment = .ok bound) :
    (∀ others, bind d others bound = .ok bound) ∧
      ∀ t ∈ tokens d (encode bound),
        (∃ quote inner, t = .quoted quote inner) ∨ ∃ b, t = .other b ∧ b ≠ byteOf markerOpen := by
  have hrebind : ∀ others, bind d others bound = .ok bound := fun others =>
    (binds_of_run h).run_eq_ok hd (.same .outside) others 0
  refine ⟨hrebind, fun t ht => ?_⟩
  have hwrite : writeAll d [] 0 (tokens d (encode bound)) = .ok (encode bound) := by
    rw [← Cursor.runBytes_tokens, Cursor.runBytes_encode]
    exact congrArg (Except.map encode) (hrebind [])
  obtain ⟨_, _, ht⟩ := exists_write_of_writeAll hwrite t ht
  exact token_of_write_nil ht

/-- A literal that merges with the one before it, and holds a marker, a quote and a backslash. -/
theorem bind_bound_merged :
    let params : List Value := [.null, .text "\x7b0\x7d'\\"]
    let bound := "a='\\\\''\x7b0\x7d''\\\\'".toList
    Dialect.mysql.IsCommon ∧ bind .mysql params "a='\\\\'\x7b1\x7d".toList = .ok bound ∧
      ∀ others, bind .mysql others bound = .ok bound := by
  intro params bound
  have hd : Dialect.mysql.IsCommon := .inr (.inl rfl)
  have hbind : bind .mysql params "a='\\\\'\x7b1\x7d".toList = .ok bound := by decide
  exact ⟨hd, hbind, (bind_bound hd hbind).1⟩

/-- A closing brace that ends no marker is copied, and stands outside of sections. -/
theorem bind_markerClose :
    bind .generic [] [markerClose] = .ok [markerClose] ∧
      tokens .generic (encode [markerClose]) = [.other (byteOf markerClose)] := by
  have hbytes : encode [markerClose] = [byteOf markerClose] := by decide
  have hnext : nextToken .generic (byteOf markerClose) [] = (.other (byteOf markerClose), []) := by
    decide
  refine ⟨by decide, ?_⟩
  rw [hbytes, tokens, hnext, tokens]

end ExternalTable.Fragment
