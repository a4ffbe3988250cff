import ExternalTable.Proofs.IdentifierQuote

/-!
# One marker of a fragment

A marker stands between two parts of a fragment.  Where the whole can be bound, and the part before
the marker alone too, the bound text is that of the first part, the literal of the parameter, and
the bound text of the second part.

* `Cursor.Moves`, `step_eq_ok_iff`: all that a reader can do at one character without an error;
* `Place.relative`, `Cursor.relative`: where a reader stands, but for the offsets that it keeps;
* `run_congr`: offsets do not matter to a binding that succeeds;
* `Place.KnowsQuotes`: the quotes that a reader waits for are those of the dialect;
* `exists_run_append`: binding goes on after a part of the fragment;
* `exists_of_bind_marker`: the main statement.
-/

namespace ExternalTable.Fragment

variable {d : Dialect} {params : List Value}

/-! ### Offsets -/

namespace Place

/-- The place of a reader that takes every section to begin at the same byte. -/
def relative : Place → Place
  | .outside => .outside
  | .inside quote escapes _ => .inside quote escapes 0
  | .escaped quote _ => .escaped quote 0
  | .closing quote escapes _ => .closing quote escapes 0

variable {p p' : Place}

theorem relative_eq_outside_iff : p.relative = .outside ↔ p = .outside := by
  cases p <;> simp [relative]

theorem openedAt?_eq_none_congr (h : p.relative = p'.relative) :
    p.openedAt? = none ↔ p'.openedAt? = none := by
  cases p <;> cases p' <;> simp_all [relative, openedAt?]

theorem relative_afterOutside (offset : Nat) (byte : UInt8) :
    (afterOutside d offset byte).relative = (afterOutside d 0 byte).relative := by
  unfold afterOutside
  split_ifs <;> rfl

theorem relative_step (p : Place) (offset : Nat) (byte : UInt8) :
    (p.step d offset byte).relative = (p.relative.step d 0 byte).relative := by
  cases p with
  | outside => exact relative_afterOutside offset byte
  | inside quote escapes start =>
    simp only [relative, step]
    split_ifs <;> rfl
  | escaped quote start => rfl
  | closing quote escapes start =>
    simp only [relative, step]
    split_ifs
    · rfl
    · exact relative_afterOutside offset byte

theorem relative_stepAll_congr (h : p.relative = p'.relative) (offset offset' : Nat)
    (bytes : List UInt8) :
    (p.stepAll d offset bytes).relative = (p'.stepAll d offset' bytes).relative := by
  induction bytes generalizing p p' offset offset' with
  | nil => exact h
  | cons byte bytes ih =>
    rw [stepAll, stepAll]
    apply ih
    rw [relative_step, h, ← relative_step]

theorem relative_read_congr (h : p.relative = p'.relative) (offset offset' : Nat) (c : Char) :
    (p.read d offset c).relative = (p'.read d offset' c).relative :=
  relative_stepAll_congr h offset offset' _

end Place

namespace Cursor

/-- What a reader does at a character that is no error: the state before, the state after, and the
text that it writes. -/
inductive Moves (d : Dialect) (params : List Value) (offset : Nat) (c : Char) :
    Cursor → Cursor → Sql → Prop
  | opens {p : Place} : c = markerOpen → p.read d offset c = .outside →
      Moves d params offset c (.text p) (.marker offset none) []
  | copies {p : Place} : ¬ (c = markerOpen ∧ p.read d offset c = .outside) →
      Moves d params offset c (.text p) (.text (p.read d offset c)) [c]
  | gathers {start : Nat} {index : Option Nat} : c.isDigit = true →
      Moves d params offset c (.marker start index) (.marker start (some (appendDigit index c))) []
  | fills {start n : Nat} {text : Sql} : ¬ c.isDigit = true → c = markerClose → n < twoPow 64 →
      parameter d params n = .ok text →
      Moves d params offset c (.marker start (some n)) (.text .outside) text

variable {cursor cursor' : Cursor}

theorem step_eq_ok_iff {offset : Nat} {c : Char} {next : Cursor} {written : Sql} :
    cursor.step d params offset c = .ok (next, written) ↔
      Moves d params offset c cursor next written := by
  constructor
  · intro h
    cases cursor with
    | text p =>
      by_cases hopen : c = markerOpen ∧ p.read d offset c = .outside
      · cases (if_pos hopen).symm.trans h
        exact .opens hopen.1 hopen.2
      · cases (if_neg hopen).symm.trans h
        exact .copies hopen
    | marker start index =>
      by_cases hdigit : c.isDigit = true
      · cases (if_pos hdigit).symm.trans h
        exact .gathers hdigit
      · cases index with
        | none => cases (if_neg hdigit).symm.trans h
        | some n =>
          have hend := (if_neg hdigit).symm.trans h
          by_cases hclose : c = markerClose ∧ n < twoPow 64
          · have hfill := (if_pos hclose).symm.trans hend
            cases hp : parameter d params n with
            | error e => simp [hp, Except.map] at hfill
            | ok text =>
              rw [hp] at hfill
              cases hfill
              exact .fills hdigit hclose.1 hclose.2 hp
          · cases (if_neg hclose).symm.trans hend
  · intro h
    cases h with
    | opens hc hread => exact if_pos ⟨hc, hread⟩
    | copies hc => exact if_neg hc
    | gathers hdigit => exact if_pos hdigit
    | fills hdigit hc hn hp =>
      refine (if_neg hdigit).trans ((if_pos ⟨hc, hn⟩).trans ?_)
      rw [hp]
      rfl

/-- The state of a reader, but for the offsets that it keeps for messages. -/
def relative : Cursor → Cursor
  | .text place => .text place.relative
  | .marker _ index => .marker 0 index

theorem exists_moves_congr (h : cursor.relative = cursor'.relative) {offset : Nat} {c : Char}
    {next : Cursor} {written : Sql} (hmoves : Moves d params offset c cursor next written)
    (offset' : Nat) :
    ∃ next', Moves d params offset' c cursor' next' written ∧ next.relative = next'.relative := by
  have hread : ∀ {p p' : Place}, p.relative = p'.relative →
      (p.read d offset c).relative = (p'.read d offset' c).relative := fun hp =>
    Place.relative_read_congr hp offset offset' c
  have houtside : ∀ {p p' : Place}, p.relative = p'.relative →
      (p.read d offset c = .outside ↔ p'.read d offset' c = .outside) := fun hp => by
    rw [← Place.relative_eq_outside_iff, hread hp, Place.relative_eq_outside_iff]
  cases hmoves with
  | @opens p hc hp =>
    cases cursor' with
    | marker start index => cases h
    | text p' => exact ⟨_, .opens hc ((houtside (Cursor.text.inj h)).1 hp), rfl⟩
  | @copies p hc =>
    cases cursor' with
    | marker start index => cases h
    | text p' =>
      have hp := Cursor.text.inj h
      refine ⟨_, .copies fun h' => hc ⟨h'.1, (houtside hp).2 h'.2⟩, ?_⟩
      exact congrArg Cursor.text (hread hp)
  | @gathers start index hdigit =>
    cases cursor' with
    | text p' => cases h
    | marker start' index' =>
      cases (Cursor.marker.inj h).2
      exact ⟨_, .gathers hdigit, rfl⟩
  | @fills start n text hdigit hc hn hp =>
    cases cursor' with
    | text p' => cases h
    | marker start' index' =>
      cases (Cursor.marker.inj h).2
      exact ⟨_, .fills hdigit hc hn hp, rfl⟩

/-- A reader that meets no error writes the same at any offset. -/
theorem run_congr (h : cursor.relative = cursor'.relative) {offset : Nat} {t bound : Sql}
    (hrun : cursor.run d params offset t = .ok bound) (offset' : Nat) :
    cursor'.run d params offset' t = .ok bound := by
  induction t generalizing cursor cursor' offset offset' bound with
  | nil =>
    cases cursor with
    | marker start index => cases hrun
    | text p =>
      cases cursor' with
      | marker start index => cases h
      | text p' =>
        have hopened := Place.openedAt?_eq_none_congr (Cursor.text.inj h)
        rw [run, finish] at hrun ⊢
        cases hp : p.openedAt? with
        | some start => simp [hp, Except.map] at hrun
        | none =>
          rw [hp] at hrun
          rw [hopened.1 hp]
          exact hrun
  | cons c t ih =>
    rw [run] at hrun ⊢
    cases hstep : cursor.step d params offset c with
    | error e => simp [hstep] at hrun
    | ok result =>
      obtain ⟨next, written⟩ := result
      obtain ⟨next', hmoves, hnext⟩ := exists_moves_congr h (step_eq_ok_iff.1 hstep) offset'
      rw [hstep] at hrun
      rw [step_eq_ok_iff.2 hmoves]
      simp only at hrun ⊢
      cases hrest : next.run d params (offset + c.utf8Size) t with
      | error e => simp [hrest, Except.map] at hrun
      | ok rest =>
        rw [ih hnext hrest (offset' + c.utf8Size)]
        rw [hrest] at hrun
        exact hrun

end Cursor

/-! ### Quotes -/

namespace Place

/-- The quote that a reader waits for within a section is one of the dialect. -/
def KnowsQuotes (d : Dialect) : Place → Prop
  | .outside => True
  | .inside quote _ _ | .escaped quote _ | .closing quote _ _ =>
      quote = singleQuote ∨ identifierByte? d = some quote

theorem knowsQuotes_afterOutside (offset : Nat) (byte : UInt8) :
    (afterOutside d offset byte).KnowsQuotes d := by
  unfold afterOutside
  split_ifs with hsingle hident
  · exact .inl hsingle
  · exact .inr hident
  · trivial

theorem KnowsQuotes.step {p : Place} (h : p.KnowsQuotes d) (offset : Nat) (byte : UInt8) :
    (p.step d offset byte).KnowsQuotes d := by
  cases p with
  | outside => exact knowsQuotes_afterOutside offset byte
  | inside quote escapes start =>
    simp only [Place.step]
    split_ifs <;> exact h
  | escaped quote start => exact h
  | closing quote escapes start =>
    simp only [Place.step]
    split_ifs
    · exact h
    · exact knowsQuotes_afterOutside offset byte

theorem KnowsQuotes.read {p : Place} (h : p.KnowsQuotes d) (offset : Nat) (c : Char) :
    (p.read d offset c).KnowsQuotes d := by
  unfold Place.read
  generalize String.utf8EncodeChar c = bytes
  induction bytes generalizing p offset with
  | nil => exact h
  | cons byte bytes ih => exact ih (h.step offset byte) (offset + 1)

/-- Outside of sections, or after the end of one, a brace is read as SQL text. -/
theorem KnowsQuotes.read_markerOpen {p : Place} (h : p.KnowsQuotes d) (hp : p.openedAt? = none)
    (hd : d.identifierQuote ≠ some markerOpen) (offset : Nat) :
    p.read d offset markerOpen = .outside := by
  have hbyte : identifierByte? d ≠ some 123 := by
    cases hquote : d.identifierQuote with
    | none => simp [identifierByte?, hquote]
    | some q =>
      refine identifierByte?_ne hquote fun hq => hd ?_
      rw [hquote, ← Char.toNat_inj.1 (show markerOpen.toNat = q.toNat from hq)]
  have houtside : ∀ o, afterOutside d o 123 = .outside := fun o => by
    rw [afterOutside, if_neg (by decide), if_neg hbyte]
  cases p with
  | outside => exact houtside offset
  | inside quote escapes start => cases hp
  | escaped quote start => cases hp
  | closing quote escapes start =>
    have hne : (123 : UInt8) ≠ quote := by
      rintro rfl
      rcases h with h | h
      · exact absurd h (by decide)
      · exact hbyte h
    exact (if_neg hne).trans (houtside offset)

end Place

namespace Cursor

/-- What a reader knows of quotes, if it reads SQL text. -/
def KnowsQuotes (d : Dialect) : Cursor → Prop
  | .text place => place.KnowsQuotes d
  | .marker _ _ => True

theorem KnowsQuotes.moves {cursor next : Cursor} (h : cursor.KnowsQuotes d) {offset : Nat}
    {c : Char} {written : Sql} (hmoves : Moves d params offset c cursor next written) :
    next.KnowsQuotes d := by
  cases hmoves with
  | opens hc hp => trivial
  | copies hc => exact Place.KnowsQuotes.read h offset c
  | gathers hdigit => trivial
  | fills hdigit hc hn hp => trivial

end Cursor

/-! ### The marker -/

/-- The reader goes on after a text that it could have ended with, outside of sections. -/
theorem exists_run_append (cursor : Cursor) {offset : Nat} {s b : Sql}
    (hquotes : cursor.KnowsQuotes d) (h : cursor.run d params offset s = .ok b) :
    ∃ p : Place, p.openedAt? = none ∧ p.KnowsQuotes d ∧ ∀ rest,
      cursor.run d params offset (s ++ rest) =
        ((Cursor.text p).run d params (offset + encodedLength s) rest).map (b ++ ·) := by
  induction s generalizing cursor offset b with
  | nil =>
    cases cursor with
    | marker start index => cases h
    | text p =>
      rw [Cursor.run, Cursor.finish] at h
      cases hp : p.openedAt? with
      | some start => simp [hp, Except.map] at h
      | none =>
        simp only [hp, Except.map, Except.ok.injEq] at h
        subst h
        refine ⟨p, hp, hquotes, fun rest => ?_⟩
        cases hrest : (Cursor.text p).run d params offset rest <;> simp [hrest, Except.map]
  | cons c s ih =>
    rw [Cursor.run] at h
    cases hstep : cursor.step d params offset c with
    | error e => simp [hstep] at h
    | ok result =>
      obtain ⟨next, written⟩ := result
      simp only [hstep] at h
      cases hrun : next.run d params (offset + c.utf8Size) s with
      | error e => simp [hrun, Except.map] at h
      | ok b' =>
        simp only [hrun, Except.map, Except.ok.injEq] at h
        subst h
        have hnext : next.KnowsQuotes d := hquotes.moves (Cursor.step_eq_ok_iff.1 hstep)
        obtain ⟨p, hp, hknows, hrest⟩ := ih next hnext hrun
        refine ⟨p, hp, hknows, fun rest => ?_⟩
        rw [List.cons_append, Cursor.run, hstep, encodedLength_cons, ← Nat.add_assoc]
        simp only [hrest]
        exact map_map_append _ _ _

/-- Binding a fragment with a marker after a part that can be bound: the literal comes after the
bound text of this part, and before that of what follows the marker. -/
theorem exists_of_bind_marker (hd : d.identifierQuote ≠ some markerOpen)
    {before digits after b bound : Sql} (hbefore : bind d params before = .ok b)
    (hne : digits ≠ []) (hdigits : ∀ c ∈ digits, c.isDigit = true)
    (h : bind d params (before ++ (markerOpen :: digits ++ markerClose :: after)) = .ok bound) :
    ∃ text rest, parameter d params (Digits.value digits) = .ok text ∧
      bind d params after = .ok rest ∧ bound = b ++ text ++ rest := by
  obtain ⟨p, hp, hknows, hgoes⟩ := exists_run_append (.text .outside) trivial hbefore
  have hopen : ∀ o, (Cursor.text p).step d params o markerOpen = .ok (.marker o none, []) :=
    fun o => if_pos ⟨rfl, hknows.read_markerOpen hp hd o⟩
  rw [bind, hgoes, List.cons_append, Cursor.run, hopen] at h
  simp only [run_digits hdigits _ _ none (.inr hne), Option.getD_none] at h
  rw [Cursor.run, Cursor.step, if_neg (by decide)] at h
  generalize 0 + encodedLength before = start at h
  generalize start + markerOpen.utf8Size + encodedLength digits + markerClose.utf8Size = offset at h
  by_cases hn : Nat.ofDigitChars 10 digits 0 < twoPow 64
  · cases hparameter : parameter d params (Nat.ofDigitChars 10 digits 0) with
    | error e => simp [hn, hparameter, Except.map] at h
    | ok text =>
      cases hrest : (Cursor.text .outside).run d params offset after with
      | error e => simp [hn, hparameter, hrest, Except.map] at h
      | ok rest =>
        simp only [hn, hparameter, hrest, Except.map, and_self, if_true, List.nil_append,
          Except.ok.injEq] at h
        refine ⟨text, rest, hparameter, Cursor.run_congr rfl hrest 0, ?_⟩
        rw [← h, List.append_assoc]
  · simp [hn, Except.map] at h

end ExternalTable.Fragment
