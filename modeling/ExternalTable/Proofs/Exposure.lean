import ExternalTable.Fragment.Connective
import ExternalTable.Proofs.Spelling

/-!
# The top level of a text

The characters of a SQL text that lie outside of quoted sections and parentheses, and what can be
cut there.

* `Mark`, `exposure`: every character of a text, with whether it is exposed;
* `exposes`: whether a text has given words at its top level;
* `conjuncts`: a condition cut at every `AND` of its top level, but for those of a `BETWEEN`;
* `Closed`: a text that leaves sections and parentheses as it finds them;
* `hasTopLevelOr_eq`: what is found in a closed text is an exposed `OR`.
-/

namespace ExternalTable.Fragment

/-- A character, with whether it lies outside of quoted sections and parentheses. -/
abbrev Mark := Char × Bool

/-- The characters of a text with their marks, for a reader at a given place and depth of
parentheses.  Parentheses themselves are not exposed. -/
def exposure (d : Dialect) (place : Place) (depth offset : Nat) : Sql → List Mark
  | [] => []
  | c :: rest =>
      let next := place.read d offset c
      if next = .outside then
        (c, depth == 0 && nesting depth c == 0)
          :: exposure d next (nesting depth c) (offset + c.utf8Size) rest
      else
        (c, false) :: exposure d next depth (offset + c.utf8Size) rest

/-- A text all of whose characters are exposed. -/
def shown (t : Sql) : List Mark :=
  t.map fun c => (c, true)

/-- A text none of whose characters is exposed. -/
def hidden (t : Sql) : List Mark :=
  t.map fun c => (c, false)

/-- The characters of a marked text. -/
def chars (ms : List Mark) : Sql :=
  ms.map Prod.fst

/-- Whether a marked text begins with given words, all of them exposed. -/
def begins (words : Sql) (ms : List Mark) : Bool :=
  (shown words).isPrefixOf ms

/-- Whether a marked text has given words anywhere, all of them exposed. -/
def exposes (words : Sql) : List Mark → Bool
  | [] => false
  | m :: ms => begins words (m :: ms) || exposes words ms

/-- Puts text in front of the first of several pieces. -/
def prolong (t : Sql) : List Sql → List Sql
  | [] => [t]
  | p :: ps => (t ++ p) :: ps

/-- What joins conditions. -/
def andConnective : Sql := " AND ".toList

/-- What takes the next `AND` for itself. -/
def betweenKeyword : Sql := " BETWEEN ".toList

/-- The pieces of a marked text between the exposed occurrences of `AND`.  One that completes a
`BETWEEN` before it, which is `pending` until then, does not count.  The first `skip` characters
belong to an `AND` that was counted. -/
def cut (pending : Bool) : Nat → List Mark → List Sql
  | _, [] => [[]]
  | skip + 1, _ :: ms => cut pending skip ms
  | 0, m :: ms =>
      if begins andConnective (m :: ms) then
        if pending then prolong [m.1] (cut false 0 ms) else [] :: cut false 4 ms
      else if begins betweenKeyword (m :: ms) then
        prolong [m.1] (cut true 0 ms)
      else
        prolong [m.1] (cut pending 0 ms)

/-- The conjuncts of a condition. -/
def conjuncts (d : Dialect) (condition : Sql) : List Sql :=
  cut false 0 (exposure d .outside 0 0 condition)

/-- A text with parentheses and sections of its own is cut at its top level only. -/
example : conjuncts .generic "a BETWEEN 1 AND 2 AND (b AND c) AND d=' AND '".toList =
    ["a BETWEEN 1 AND 2".toList, "(b AND c)".toList, "d=' AND '".toList] := by decide

/-! ### Marked text -/

@[simp] theorem chars_append (ms ns : List Mark) : chars (ms ++ ns) = chars ms ++ chars ns :=
  List.map_append

@[simp] theorem chars_shown (t : Sql) : chars (shown t) = t := by
  simp [chars, shown, Function.comp_def]

@[simp] theorem chars_hidden (t : Sql) : chars (hidden t) = t := by
  simp [chars, hidden, Function.comp_def]

@[simp] theorem hidden_append (s t : Sql) : hidden (s ++ t) = hidden s ++ hidden t :=
  List.map_append

theorem chars_exposure (d : Dialect) (place : Place) (depth offset : Nat) (t : Sql) :
    chars (exposure d place depth offset t) = t := by
  induction t generalizing place depth offset with
  | nil => rfl
  | cons c t ih =>
    rw [exposure]
    split <;> exact congrArg (c :: ·) (ih _ _ _)

theorem prolong_prolong (s t : Sql) (ps : List Sql) :
    prolong s (prolong t ps) = prolong (s ++ t) ps := by
  cases ps <;> simp [prolong]

theorem cut_ne_nil (pending : Bool) (skip : Nat) (ms : List Mark) : cut pending skip ms ≠ [] := by
  induction ms generalizing pending skip with
  | nil => simp [cut]
  | cons m ms ih =>
    have hprolong : ∀ t ps, prolong t ps ≠ [] := by
      intro t ps
      cases ps <;> simp [prolong]
    cases skip with
    | succ skip => exact ih pending skip
    | zero =>
      rw [cut]
      split_ifs <;> simp [hprolong]

/-! ### Closed texts -/

/-- Marks at a depth of parentheses: within parentheses nothing is exposed. -/
def veil (depth : Nat) (ms : List Mark) : List Mark :=
  if depth = 0 then ms else hidden (chars ms)

@[simp] theorem veil_zero (ms : List Mark) : veil 0 ms = ms := rfl

@[simp] theorem veil_succ (depth : Nat) (ms : List Mark) :
    veil (depth + 1) ms = hidden (chars ms) := rfl

theorem veil_append (depth : Nat) (ms ns : List Mark) :
    veil depth (ms ++ ns) = veil depth ms ++ veil depth ns := by
  rw [veil, veil, veil]
  split <;> simp

theorem veil_hidden (depth : Nat) (t : Sql) : veil depth (hidden t) = hidden t := by
  rw [veil]
  split <;> simp

/-- A text after which a reader stands outside of sections and at the depth of parentheses from
which it came, with its marks at the top level. -/
structure Closed (d : Dialect) (t : Sql) (ms : List Mark) : Prop where
  exposure_append : ∀ depth offset rest, Clear d rest →
    exposure d .outside depth offset (t ++ rest) =
      veil depth ms ++ exposure d .outside depth (offset + encodedLength t) rest
  openedAt?_append : ∀ offset rest, Clear d rest →
    (Place.outside.readAll d offset (t ++ rest)).openedAt? =
      (Place.outside.readAll d (offset + encodedLength t) rest).openedAt?

variable {d : Dialect}

namespace Closed

theorem exposure_eq {t : Sql} {ms : List Mark} (h : Closed d t ms) (offset : Nat) :
    exposure d .outside 0 offset t = ms := by
  have := h.exposure_append 0 offset [] (clear_nil d)
  simpa [exposure] using this

theorem chars_eq {t : Sql} {ms : List Mark} (h : Closed d t ms) : chars ms = t := by
  rw [← h.exposure_eq 0, chars_exposure]

theorem nil : Closed d [] [] :=
  ⟨fun depth _ _ _ => by cases depth <;> simp [chars, hidden], fun _ _ _ => rfl⟩

theorem append {s t : Sql} {ms ns : List Mark} (hs : Closed d s ms) (ht : Closed d t ns)
    (hclear : Clear d t) : Closed d (s ++ t) (ms ++ ns) := by
  refine ⟨fun depth offset rest hrest => ?_, fun offset rest hrest => ?_⟩
  · rw [List.append_assoc, hs.exposure_append _ _ _ (hclear.append hrest),
      ht.exposure_append _ _ _ hrest, veil_append, encodedLength_append, List.append_assoc,
      Nat.add_assoc]
  · rw [List.append_assoc, hs.openedAt?_append _ _ (hclear.append hrest),
      ht.openedAt?_append _ _ hrest, encodedLength_append, Nat.add_assoc]

end Closed

/-- A character that is read outside of sections and changes no depth. -/
def IsFlat (d : Dialect) (c : Char) : Prop :=
  d.isQuote c = false ∧ c ≠ '(' ∧ c ≠ ')'

theorem nesting_of_isFlat {c : Char} (hc : IsFlat d c) (depth : Nat) : nesting depth c = depth := by
  rw [nesting.eq_def]
  split
  · exact absurd rfl hc.2.1
  · exact absurd rfl hc.2.2
  · rfl

/-- Flat text is exposed outside of parentheses, whatever follows it. -/
theorem exposure_flat (hd : d.HasAsciiQuote) {s : Sql} (hs : ∀ c ∈ s, IsFlat d c)
    (depth offset : Nat) (rest : Sql) :
    exposure d .outside depth offset (s ++ rest) =
      veil depth (shown s) ++ exposure d .outside depth (offset + encodedLength s) rest := by
  induction s generalizing offset with
  | nil => cases depth <;> rfl
  | cons c s ih =>
    have hc : IsFlat d c := hs c (by simp)
    have hmark : veil depth (shown (c :: s)) = (c, depth == 0) :: veil depth (shown s) := by
      cases depth <;> rfl
    simp only [List.cons_append, exposure, Place.read_outside hd hc.1, if_true,
      nesting_of_isFlat hc, Bool.and_self, encodedLength_cons, ← Nat.add_assoc]
    rw [ih (fun c hc => hs c (by simp [hc])), hmark]
    rfl

/-- After flat text a reader is still outside of sections. -/
theorem readAll_flat (hd : d.HasAsciiQuote) {s : Sql} (hs : ∀ c ∈ s, IsFlat d c) (offset : Nat)
    (rest : Sql) :
    Place.outside.readAll d offset (s ++ rest) =
      Place.outside.readAll d (offset + encodedLength s) rest := by
  induction s generalizing offset with
  | nil => rfl
  | cons c s ih =>
    rw [List.cons_append, Place.readAll, Place.read_outside hd (hs c (by simp)).1,
      ih fun c hc => hs c (by simp [hc]), encodedLength_cons, Nat.add_assoc]

/-- Flat text in front of a closed text is exposed. -/
theorem Closed.shown_append (hd : d.HasAsciiQuote) {s t : Sql} {ms : List Mark}
    (hs : ∀ c ∈ s, IsFlat d c) (h : Closed d t ms) : Closed d (s ++ t) (shown s ++ ms) := by
  refine ⟨fun depth offset rest hrest => ?_, fun offset rest hrest => ?_⟩
  · rw [List.append_assoc, exposure_flat hd hs, h.exposure_append _ _ _ hrest, veil_append,
      encodedLength_append, List.append_assoc, Nat.add_assoc]
  · rw [List.append_assoc, readAll_flat hd hs, h.openedAt?_append _ _ hrest,
      encodedLength_append, Nat.add_assoc]

/-- Flat text is exposed. -/
theorem closed_shown (hd : d.HasAsciiQuote) {s : Sql} (hs : ∀ c ∈ s, IsFlat d c) :
    Closed d s (shown s) := by
  simpa using Closed.nil.shown_append hd hs

/-- Where the reader stays inside sections nothing is exposed. -/
theorem exposure_staysInside {p : Place} {offset : Nat} {s : Sql} (hs : p.StaysInside d offset s)
    (depth : Nat) (rest : Sql) :
    exposure d p depth offset (s ++ rest) =
      hidden s ++ exposure d (p.readAll d offset s) depth (offset + encodedLength s) rest := by
  induction s generalizing offset p with
  | nil => rfl
  | cons c s ih =>
    rw [List.cons_append, exposure, if_neg hs.1, ih hs.2, encodedLength_cons, ← Nat.add_assoc]
    rfl

/-- Where the reader stays inside sections no `OR` is found. -/
theorem hasTopLevelOrFrom_staysInside {p : Place} {offset : Nat} {s : Sql}
    (hs : p.StaysInside d offset s) (depth : Nat) (rest : Sql) :
    hasTopLevelOrFrom d p depth offset (s ++ rest) =
      hasTopLevelOrFrom d (p.readAll d offset s) depth (offset + encodedLength s) rest := by
  induction s generalizing offset p with
  | nil => rfl
  | cons c s ih =>
    rw [List.cons_append, hasTopLevelOrFrom, if_neg hs.1, ih hs.2, encodedLength_cons,
      ← Nat.add_assoc]
    rfl

/-- A section is closed, and nothing of it is exposed. -/
theorem closed_section (hd : d.HasAsciiQuote) {s : Sql} (hs : IsSection d s) :
    Closed d s (hidden s) := by
  refine ⟨fun depth offset rest hrest => ?_, fun offset rest hrest => ?_⟩ <;>
    obtain ⟨hstay, q, e, hq, hread⟩ := hs offset
  · rw [exposure_staysInside hstay, hread, veil_hidden]
    congr 1
    cases rest with
    | nil => rfl
    | cons c rest => rw [exposure, exposure, hrest.read_closing hd hq]
  · rw [Place.readAll_append, hread]
    cases rest with
    | nil => rfl
    | cons c rest => rw [Place.readAll, Place.readAll, hrest.read_closing hd hq]

/-- A closed text in parentheses is closed, and nothing of it is exposed. -/
theorem Closed.parenthesized (hd : d.IsCommon) {t : Sql} {ms : List Mark} (h : Closed d t ms) :
    Closed d (parenthesized t) (hidden (parenthesized t)) := by
  have hopen : d.isQuote '(' = false := isQuote_of_isSeparatorChar hd (by decide)
  have hclose : d.isQuote ')' = false := isQuote_of_isSeparatorChar hd (by decide)
  have hclear : ∀ rest, Clear d (')' :: rest) := fun rest => clear_cons.2 hclose
  refine ⟨fun depth offset rest _ => ?_, fun offset rest _ => ?_⟩
  · rw [veil_hidden, Fragment.parenthesized, List.append_assoc, List.cons_append, exposure,
      Place.read_outside hd.hasAsciiQuote hopen, if_pos rfl]
    rw [show nesting depth '(' = depth + 1 from rfl, List.singleton_append,
      h.exposure_append _ _ _ (hclear rest), exposure,
      Place.read_outside hd.hasAsciiQuote hclose, if_pos rfl]
    rw [show nesting (depth + 1) ')' = depth from rfl, veil_succ, h.chars_eq]
    simp [hidden, Nat.add_assoc]
  · rw [Fragment.parenthesized, List.append_assoc, List.cons_append, Place.readAll,
      Place.read_outside hd.hasAsciiQuote hopen, List.singleton_append,
      h.openedAt?_append _ _ (hclear rest), Place.readAll,
      Place.read_outside hd.hasAsciiQuote hclose]
    simp [Nat.add_assoc]

/-- Closed texts with flat separators in front of each are closed. -/
theorem closed_trail (hd : d.HasAsciiQuote) {first others : Sql}
    (hfirst : ∀ c ∈ first, IsFlat d c) (hothers : ∀ c ∈ others, IsFlat d c) {ts : List Sql}
    {mss : List (List Mark)} (h : List.Forall₂ (Closed d) ts mss)
    (h1 : 1 ≤ ts.length → first ≠ []) (h2 : 2 ≤ ts.length → others ≠ []) :
    Closed d (trail first others ts) (trail (shown first) (shown others) mss) ∧
      Clear d (trail first others ts) := by
  induction h generalizing first with
  | nil => exact ⟨.nil, clear_nil d⟩
  | @cons t ms ts mss ht _ ih =>
    have hlast : 1 ≤ ts.length → others ≠ [] := fun h => h2 (by simpa using h)
    obtain ⟨htail, hclear⟩ := ih hothers hlast (fun h => hlast (by omega))
    refine ⟨?_, ?_⟩
    · simpa only [trail, List.append_assoc] using (ht.append htail hclear).shown_append hd hfirst
    · obtain ⟨c, s, rfl⟩ := List.exists_cons_of_ne_nil (h1 (by simp))
      exact clear_cons.2 (hfirst c (by simp)).1

/-! ### The search for a top-level `OR` -/

theorem begins_of_hidden (c : Char) (words : Sql) (c' : Char) (ms : List Mark) :
    begins (c :: words) ((c', false) :: ms) = false := by
  rw [begins, shown, List.map_cons, List.isPrefixOf_cons_cons]
  simp

/-- Only the first character has to be looked at to see whether a connective is exposed. -/
theorem begins_orConnective (hd : d.IsCommon) (place : Place) (depth offset : Nat) (c : Char)
    (rest : Sql) :
    begins orConnective (exposure d place depth offset (c :: rest)) =
      (decide (place.read d offset c = .outside) && depth == 0 &&
        orConnective.isPrefixOf (c :: rest)) := by
  by_cases hprefix : orConnective <+: c :: rest
  · obtain ⟨more, hmore⟩ := hprefix
    have hread : ∀ c ∈ orConnective, ∀ o, Place.outside.read d o c = .outside := fun c hc =>
      Place.read_outside hd.hasAsciiQuote (isQuote_of_isSeparatorChar hd (by revert c; decide))
    rw [show orConnective = [' ', 'O', 'R', ' '] from rfl] at hmore hread ⊢
    obtain ⟨rfl, rfl⟩ := List.cons.inj hmore
    by_cases hplace : place.read d offset ' ' = .outside
    · cases depth with
      | zero => simp [exposure, begins, shown, hplace, hread, nesting]
      | succ depth =>
        rw [exposure, if_pos hplace, show (depth + 1 == 0) = false from rfl, Bool.false_and,
          begins_of_hidden]
        simp
    · rw [exposure, if_neg hplace, begins_of_hidden]
      simp [hplace]
  · have hchars : ¬ begins orConnective (exposure d place depth offset (c :: rest)) = true := by
      intro h
      have := (List.isPrefixOf_iff_prefix.1 h).map Prod.fst
      rw [show List.map Prod.fst (exposure d place depth offset (c :: rest)) = c :: rest from
        chars_exposure d place depth offset (c :: rest)] at this
      exact hprefix (by simpa [shown, Function.comp_def] using this)
    rw [← List.isPrefixOf_iff_prefix] at hprefix
    simp [hchars, hprefix]

theorem hasTopLevelOrFrom_eq (hd : d.IsCommon) (place : Place) (depth offset : Nat) (t : Sql) :
    hasTopLevelOrFrom d place depth offset t =
      (exposes orConnective (exposure d place depth offset t) ||
        (place.readAll d offset t).openedAt?.isSome) := by
  induction t generalizing place depth offset with
  | nil => rfl
  | cons c t ih =>
    have hbegins := begins_orConnective hd place depth offset c t
    have hexposes : exposes orConnective (exposure d place depth offset (c :: t)) =
        (begins orConnective (exposure d place depth offset (c :: t)) ||
          exposes orConnective (exposure d place depth offset (c :: t)).tail) := by
      rw [exposure]
      split <;> rfl
    rw [hexposes, hbegins, hasTopLevelOrFrom, exposure]
    by_cases hplace : place.read d offset c = .outside
    · simp only [hplace, if_true, decide_true, Bool.true_and, ih, List.tail_cons, Bool.or_assoc]
      rw [Place.readAll, hplace]
    · simp only [hplace, if_false, decide_false, Bool.false_and, Bool.false_or, ih, List.tail_cons]
      rw [Place.readAll]

/-- In a closed text a top-level `OR` is found exactly if one is exposed. -/
theorem hasTopLevelOr_eq (hd : d.IsCommon) {t : Sql} {ms : List Mark} (h : Closed d t ms) :
    hasTopLevelOr d t = exposes orConnective ms := by
  have hopen := h.openedAt?_append 0 [] (clear_nil d)
  rw [List.append_nil] at hopen
  rw [hasTopLevelOr, hasTopLevelOrFrom_eq hd, h.exposure_eq, hopen]
  simp [Place.readAll, Place.openedAt?]

end ExternalTable.Fragment
