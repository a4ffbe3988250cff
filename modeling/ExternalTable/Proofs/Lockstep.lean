import Mathlib.Data.List.TakeWhile
import ExternalTable.Proofs.Binding

/-!
# A fragment and its bound text

Binding copies a fragment but for its markers, so a reader of the bound text keeps step with a reader
of the fragment.  A literal may prolong the section before it, and be prolonged by the section after
it, where these are single-quoted too.  Even then both readers leave their sections together.

* `Binds`, `binds_of_run`: a successful binding, told without a machine;
* `openedAt?_of_run`: where binding reports an unterminated section, the reader ends in one;
* `Place.Agrees`, `Place.Shadows`: where the two readers may stand at the same time;
* `Place.Shadows.read`: reading one character, they keep step;
* `Place.Shadows.textLiteral`, `Place.Shadows.read_of_not_quote`: reading a literal in place of a
  marker, they keep step too.
-/

namespace ExternalTable.Fragment

variable {d : Dialect} {params : List Value}

/-! ### Binding without a machine -/

/-- A reader at a given place and offset binds a text: it copies all but the markers that it meets
outside of sections, writes their parameters in place of those, and does not end within a section. -/
inductive Binds (d : Dialect) (params : List Value) : Place → Nat → Sql → Sql → Prop
  | done {p : Place} {offset : Nat} : p.openedAt? = none → Binds d params p offset [] []
  | copy {p : Place} {offset : Nat} {c : Char} {rest bound : Sql} :
      ¬ (c = markerOpen ∧ p.read d offset c = .outside) →
      Binds d params (p.read d offset c) (offset + c.utf8Size) rest bound →
      Binds d params p offset (c :: rest) (c :: bound)
  | fill {p : Place} {offset : Nat} {digits rest text bound : Sql} :
      p.read d offset markerOpen = .outside → digits ≠ [] → (∀ c ∈ digits, c.isDigit = true) →
      parameter d params (Digits.value digits) = .ok text →
      Binds d params .outside (offset + encodedLength (markerOpen :: (digits ++ [markerClose])))
        rest bound →
      Binds d params p offset (markerOpen :: (digits ++ [markerClose]) ++ rest) (text ++ bound)

/-- A marker that is read without an error has digits and an end, and its parameter a literal. -/
theorem exists_of_run_marker {start offset : Nat} {t bound : Sql}
    (h : (Cursor.marker start none).run d params offset t = .ok bound) :
    ∃ digits rest text bound', t = digits ++ [markerClose] ++ rest ∧ digits ≠ [] ∧
      (∀ c ∈ digits, c.isDigit = true) ∧ parameter d params (Digits.value digits) = .ok text ∧
      bound = text ++ bound' ∧
      (Cursor.text .outside).run d params (offset + encodedLength (digits ++ [markerClose])) rest =
        .ok bound' := by
  have hdigits : ∀ c ∈ t.takeWhile Char.isDigit, c.isDigit = true := fun c hc =>
    List.mem_takeWhile_imp hc
  have hend : ∀ c ∈ (t.dropWhile Char.isDigit).head?, c.isDigit = false := fun c hc => by
    have := List.head?_dropWhile_not Char.isDigit t
    rw [Option.mem_def.1 hc] at this
    simpa using this
  rw [← List.takeWhile_append_dropWhile (p := Char.isDigit) (l := t)] at h ⊢
  generalize t.takeWhile Char.isDigit = digits at *
  generalize t.dropWhile Char.isDigit = rest at *
  by_cases hne : digits = []
  · -- Without a digit there is no number, and the character after the brace is an error.
    subst hne
    cases rest with
    | nil => cases h
    | cons c rest =>
      have hc : c.isDigit = false := hend c rfl
      simp [Cursor.run, Cursor.step, hc] at h
  · rw [run_digits hdigits start offset none (.inr hne)] at h
    cases rest with
    | nil => cases h
    | cons c rest =>
      have hc : c.isDigit = false := hend c rfl
      simp only [Cursor.run, Cursor.step, hc, Bool.false_eq_true, if_false, Option.getD_none] at h
      by_cases hclose : c = markerClose ∧ Nat.ofDigitChars 10 digits 0 < twoPow 64
      · rw [if_pos hclose] at h
        obtain ⟨rfl, -⟩ := hclose
        cases hp : parameter d params (Nat.ofDigitChars 10 digits 0) with
        | error e => simp [hp, Except.map] at h
        | ok text =>
          simp only [hp, Except.map] at h
          cases hrest : (Cursor.text .outside).run d params
              (offset + encodedLength digits + markerClose.utf8Size) rest with
          | error e => simp [hrest] at h
          | ok bound' =>
            simp only [hrest, Except.ok.injEq] at h
            refine ⟨digits, rest, text, bound', by simp, hne, hdigits, hp, h.symm, ?_⟩
            rw [encodedLength_append, ← Nat.add_assoc]
            exact hrest
      · rw [if_neg hclose] at h
        cases h

/-- What the machine makes of a text without an error is its bound text. -/
theorem binds_of_run {p : Place} {offset : Nat} {t bound : Sql}
    (h : (Cursor.text p).run d params offset t = .ok bound) : Binds d params p offset t bound := by
  induction hn : t.length using Nat.strongRecOn generalizing p offset t bound with
  | ind n ih =>
    cases t with
    | nil =>
      rw [Cursor.run, Cursor.finish] at h
      cases hp : p.openedAt? with
      | some start => simp [hp, Except.map] at h
      | none =>
        simp only [hp, Except.map, Except.ok.injEq] at h
        exact h ▸ .done hp
    | cons c t =>
      rw [Cursor.run, Cursor.step] at h
      by_cases hopen : c = markerOpen ∧ p.read d offset c = .outside
      · simp only [if_pos hopen, List.nil_append] at h
        obtain ⟨rfl, hread⟩ := hopen
        obtain ⟨bound', hrun, rfl⟩ : ∃ bound', (Cursor.marker offset none).run d params
            (offset + markerOpen.utf8Size) t = .ok bound' ∧ bound' = bound := by
          cases hrun : (Cursor.marker offset none).run d params (offset + markerOpen.utf8Size) t with
          | error e => simp [hrun, Except.map] at h
          | ok bound' => exact ⟨bound', rfl, by simpa [hrun, Except.map] using h⟩
        obtain ⟨digits, rest, text, bound', rfl, hne, hdigits, hparameter, rfl, hrest⟩ :=
          exists_of_run_marker hrun
        refine .fill hread hne hdigits hparameter (ih rest.length ?_ ?_ rfl)
        · rw [← hn]
          simp
          omega
        · rw [encodedLength_cons, ← Nat.add_assoc]
          exact hrest
      · simp only [if_neg hopen] at h
        cases hrun : (Cursor.text (p.read d offset c)).run d params (offset + c.utf8Size) t with
        | error e => simp [hrun, Except.map] at h
        | ok bound' =>
          simp only [hrun, Except.map, Except.ok.injEq, List.singleton_append] at h
          exact h ▸ .copy hopen (ih t.length (by rw [← hn]; exact Nat.lt_succ_self _) hrun rfl)

/-- The place at which a reader of the fragment stands. -/
def Cursor.place : Cursor → Place
  | .text p => p
  | .marker _ _ => .outside

/-- Where binding reports a section as unterminated, a reader of the fragment ends in this
section. -/
theorem openedAt?_of_run (hd : d.IsCommon) {cursor : Cursor} {offset start : Nat} {t : Sql}
    (h : cursor.run d params offset t = .error (.unterminatedQuote start)) :
    (cursor.place.readAll d offset t).openedAt? = some start := by
  have hquote : ∀ c, c.isDigit = true ∨ c = markerClose → d.isQuote c = false := by
    rintro c (hc | rfl)
    · exact isQuote_of_isWordChar hd (isWordChar_of_isNumberChar (isNumberChar_of_isDigit hc))
    · exact hd.isQuote_eq_false (by decide)
  induction t generalizing cursor offset with
  | nil =>
    cases cursor with
    | marker => cases h
    | text p =>
      rw [Cursor.run, Cursor.finish] at h
      cases hp : p.openedAt? with
      | none => simp [hp, Except.map] at h
      | some _ => simpa [hp, Except.map, Cursor.place, Place.readAll] using h
  | cons c t ih =>
    have hrest : ∀ (next : Cursor) (written : Sql), cursor.step d params offset c =
        .ok (next, written) → next.place = cursor.place.read d offset c →
        (cursor.place.readAll d offset (c :: t)).openedAt? = some start := by
      intro next written hstep hplace
      rw [Cursor.run, hstep] at h
      rw [Place.readAll, ← hplace]
      apply ih
      cases hrun : next.run d params (offset + c.utf8Size) t with
      | ok _ => simp [hrun, Except.map] at h
      | error e => simpa [hrun, Except.map] using h
    cases cursor with
    | text p =>
      by_cases hopen : c = markerOpen ∧ p.read d offset c = .outside
      · exact hrest (.marker offset none) _ (if_pos hopen) hopen.2.symm
      · exact hrest (.text (p.read d offset c)) _ (if_neg hopen) rfl
    | marker begun index =>
      by_cases hdigit : c.isDigit = true
      · exact hrest (.marker begun (some (Cursor.appendDigit index c))) _ (if_pos hdigit)
          (Place.read_outside hd.hasAsciiQuote (hquote c (.inl hdigit)) offset).symm
      · rw [Cursor.run] at h
        cases index with
        | none => simp [Cursor.step, hdigit] at h
        | some n =>
          simp only [Cursor.step, if_neg hdigit] at h
          by_cases hclose : c = markerClose ∧ n < twoPow 64
          · cases hp : parameter d params n with
            | error e =>
              simp only [if_pos hclose, hp, Except.map, Except.error.injEq] at h
              rcases parameter_eq_error hp with ⟨-, he⟩ | ⟨_, _, -, -, he⟩ <;>
                exact absurd (h.symm.trans he) FragmentError.noConfusion
            | ok text =>
              refine hrest (.text .outside) text ?_
                (Place.read_outside hd.hasAsciiQuote (hquote c (.inr hclose.1)) offset).symm
              simp [Cursor.step, hdigit, if_pos hclose, hp, Except.map]
          · simp only [if_neg hclose] at h
            cases h

/-! ### Two readers -/

/-- Whether a section of a dialect may stand between two such quotes, with a backslash that escapes
or not. -/
def Encloses (d : Dialect) (q : Char) (escapes : Bool) : Prop :=
  (q = '\'' ∧ escapes = d.backslashEscapes) ∨ (d.identifierQuote = some q ∧ escapes = false)

theorem Encloses.isQuote {q : Char} {e : Bool} (h : Encloses d q e) : d.isQuote q = true := by
  rcases h with ⟨rfl, -⟩ | ⟨hq, -⟩
  · rfl
  · simp [Dialect.isQuote, hq]

theorem Encloses.eq_backslashEscapes (hd : d.HasAsciiQuote) {e : Bool} (h : Encloses d '\'' e) :
    e = d.backslashEscapes := by
  rcases h with ⟨-, he⟩ | ⟨hq, -⟩
  · exact he
  · exact absurd rfl (hd _ hq).2

namespace Place

/-- Two readers stand outside of sections, or at the same kind of place in two sections with the same
quotes. -/
inductive Agrees (d : Dialect) : Place → Place → Prop
  | outside : Agrees d .outside .outside
  | inside {q : Char} {e : Bool} (s s' : Nat) : Encloses d q e →
      Agrees d (.inside (byteOf q) e s) (.inside (byteOf q) e s')
  | escaped {q : Char} (s s' : Nat) : Encloses d q true →
      Agrees d (.escaped (byteOf q) s) (.escaped (byteOf q) s')
  | closing {q : Char} {e : Bool} (s s' : Nat) : Encloses d q e →
      Agrees d (.closing (byteOf q) e s) (.closing (byteOf q) e s')

/-- Where a reader of the bound text may stand while the reader of the fragment stands at a given
place: they agree, or a marker has just been filled with the literal of a text. -/
inductive Shadows (d : Dialect) : Place → Place → Prop
  | same {p p' : Place} : Agrees d p p' → Shadows d p p'
  | filled (s : Nat) : Shadows d .outside (.closing (byteOf '\'') d.backslashEscapes s)

variable {p p' : Place}

theorem Agrees.eq_outside_iff (h : Agrees d p p') : p = .outside ↔ p' = .outside := by
  cases h <;> simp

theorem Shadows.openedAt?_eq_none_iff (h : Shadows d p p') :
    p.openedAt? = none ↔ p'.openedAt? = none := by
  cases h with
  | same h => cases h <;> simp [openedAt?]
  | filled s => simp [openedAt?]

theorem agrees_read_outside (hd : d.HasAsciiQuote) (c : Char) (offset offset' : Nat) :
    Agrees d (Place.outside.read d offset c) (Place.outside.read d offset' c) := by
  by_cases hquote : c = '\''
  · subst hquote
    rw [read_outside_singleQuote, read_outside_singleQuote]
    exact .inside _ _ (.inl ⟨rfl, rfl⟩)
  · by_cases hidentifier : d.identifierQuote = some c
    · rw [read_outside_identifierQuote hd hidentifier, read_outside_identifierQuote hd hidentifier]
      exact .inside _ _ (.inr ⟨hidentifier, rfl⟩)
    · have hc : d.isQuote c = false := by simp [Dialect.isQuote, hquote, hidentifier]
      rw [read_outside hd hc, read_outside hd hc]
      exact .outside

/-- Reading the same character, the two readers come to places that agree. -/
theorem Shadows.read (hd : d.HasAsciiQuote) (h : Shadows d p p') (c : Char)
    (offset offset' : Nat) : Agrees d (p.read d offset c) (p'.read d offset' c) := by
  cases h with
  | filled s =>
    by_cases hc : c = '\''
    · subst hc
      rw [read_outside_singleQuote, read_closing_self (by decide)]
      exact .inside _ _ (.inl ⟨rfl, rfl⟩)
    · rw [read_closing (by decide) hc]
      exact agrees_read_outside hd c offset offset'
  | same h =>
    cases h with
    | outside => exact agrees_read_outside hd c offset offset'
    | @inside q e s s' hq =>
      have hlt := hd.toNat_lt hq.isQuote
      rw [read_inside hd hlt, read_inside hd hlt]
      split_ifs with hescape hclose
      · exact .escaped s s' (hescape.1 ▸ hq)
      · exact .closing s s' hq
      · exact .inside s s' hq
    | @escaped q s s' hq =>
      have hlt := hd.toNat_lt hq.isQuote
      rw [read_escaped hd hlt, read_escaped hd hlt]
      exact .inside s s' hq
    | @closing q e s s' hq =>
      have hlt := hd.toNat_lt hq.isQuote
      by_cases hc : c = q
      · subst hc
        rw [read_closing_self hlt, read_closing_self hlt]
        exact .inside s s' hq
      · rw [read_closing hlt hc, read_closing hlt hc]
        exact agrees_read_outside hd c offset offset'

/-- Where the fragment has a marker, the reader of the bound text stands outside of sections or just
after one. -/
theorem Shadows.marker_cases (hd : d.HasAsciiQuote) (h : Shadows d p p') {offset : Nat}
    (hread : p.read d offset markerOpen = .outside) :
    p' = .outside ∨ ∃ q e s, Encloses d q e ∧ p' = .closing (byteOf q) e s := by
  cases h with
  | filled s => exact .inr ⟨_, _, s, .inl ⟨rfl, rfl⟩, rfl⟩
  | same h =>
    cases h with
    | outside => exact .inl rfl
    | inside s s' hq =>
      rw [read_inside hd (hd.toNat_lt hq.isQuote)] at hread
      split_ifs at hread
    | escaped s s' hq =>
      rw [read_escaped hd (hd.toNat_lt hq.isQuote)] at hread
      cases hread
    | closing s s' hq => exact .inr ⟨_, _, s', hq, rfl⟩

/-- In place of a marker, a character that is no quote is read outside of sections. -/
theorem Shadows.read_of_not_quote (hd : d.HasAsciiQuote) (h : Shadows d p p') {offset : Nat}
    (hread : p.read d offset markerOpen = .outside) {c : Char} (hc : d.isQuote c = false)
    (offset' : Nat) : p'.read d offset' c = .outside := by
  rcases h.marker_cases hd hread with rfl | ⟨q, e, s, hq, rfl⟩
  · exact read_outside hd hc offset'
  · rw [Clear.read_closing hd (clear_cons (t := []).2 hc) hq.isQuote]
    exact read_outside hd hc offset'

/-- In place of a marker, the literal of a text is read within one section, be it a new one or that
which ended just before. -/
theorem Shadows.textLiteral (hd : d.HasAsciiQuote) (h : Shadows d p p') {offset : Nat}
    (hread : p.read d offset markerOpen = .outside) (t : Sql) (offset' : Nat) :
    p'.StaysInside d offset' (d.textLiteral t) ∧
      Shadows d .outside (p'.readAll d offset' (d.textLiteral t)) := by
  obtain ⟨start, hopen⟩ : ∃ start, p'.read d offset' '\'' =
      .inside (byteOf '\'') d.backslashEscapes start := by
    rcases h.marker_cases hd hread with rfl | ⟨q, e, s, hq, rfl⟩
    · exact ⟨_, read_outside_singleQuote offset'⟩
    · by_cases hsingle : q = '\''
      · subst hsingle
        rw [read_closing_self (by decide), hq.eq_backslashEscapes hd]
        exact ⟨_, rfl⟩
      · rw [read_closing (hd.toNat_lt hq.isQuote) (Ne.symm hsingle)]
        exact ⟨_, read_outside_singleQuote offset'⟩
  have hdoubles : Doubles '\'' d.backslashEscapes
      (fun c => c == '\'' || (d.backslashEscapes && c == '\\')) :=
    ⟨by decide, fun _ => by decide, fun c => by simp⟩
  obtain ⟨hstay, hend⟩ := inside_double hd hdoubles start t (offset' + ('\'').utf8Size)
  have hclose : ∀ o, (Place.inside (byteOf '\'') d.backslashEscapes start).read d o '\'' =
      .closing (byteOf '\'') d.backslashEscapes start := by
    intro o
    rw [read_inside hd (by decide), if_neg (by simp), if_pos rfl]
  refine ⟨?_, ?_⟩
  · simp [Dialect.textLiteral, Quoted.enclose, StaysInside, staysInside_append, hopen, hstay, hend,
      hclose]
  · rw [show p'.readAll d offset' (d.textLiteral t) =
        .closing (byteOf '\'') d.backslashEscapes start by
      simp [Dialect.textLiteral, Quoted.enclose, readAll, readAll_append, hopen, hend, hclose]]
    exact .filled start

end Place

end ExternalTable.Fragment
