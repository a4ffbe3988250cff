import ExternalTable.Proofs.Lockstep
import ExternalTable.Proofs.Obstruction

/-!
# Disjunctions among conjuncts

Before fragments are joined by `AND`, each is searched for an `OR` at its top level.  In a text with
balanced parentheses and finished sections, the search finds the keyword exactly where it is spelled in
capitals between two spaces.  Any other spelling of the same keyword is missed, and the fragment then
stands without parentheses.

* `Content`, `Balanced`: the grammar of such texts, told without a reader;
* `WordAt`: a word at the top level of a text, and what surrounds it;
* `hasTopLevelOrFrom_quoted`, `Balanced.hasTopLevelOrFrom_append`: nothing is found in sections and in
  parentheses;
* `Balanced.hasTopLevelOrFrom_word`, `Balanced.wordAt_of_hasTopLevelOrFrom`: what is found at the top
  level;
* `hasTopLevelOr_balanced`: the main statement.
-/

namespace ExternalTable.Fragment

variable {d : Dialect}

/-! ### Balanced texts -/

/-- What may stand between two quotes: the quote itself is written twice, and where a backslash
escapes, it takes the next character with it. -/
inductive Content (q : Char) (escapes : Bool) : Sql → Prop
  | nil : Content q escapes []
  | char {c : Char} {t : Sql} : c ≠ q → ¬ (escapes = true ∧ c = '\\') → Content q escapes t →
      Content q escapes (c :: t)
  | twice {t : Sql} : Content q escapes t → Content q escapes (q :: q :: t)
  | escape {c : Char} {t : Sql} : escapes = true → Content q escapes t →
      Content q escapes ('\\' :: c :: t)

/-- A text whose parentheses are balanced and whose sections end. -/
inductive Balanced (d : Dialect) : Sql → Prop
  | nil : Balanced d []
  | flat {c : Char} {t : Sql} : IsFlat d c → Balanced d t → Balanced d (c :: t)
  | quoted {q : Char} {e : Bool} {inner t : Sql} : Encloses d q e → Content q e inner →
      t.head? ≠ some q → Balanced d t → Balanced d (q :: inner ++ [q] ++ t)
  | group {s t : Sql} : Balanced d s → Balanced d t → Balanced d ('(' :: s ++ [')'] ++ t)

/-- Whether a word stands at the top level of a text, between two given characters: what comes before
it is balanced, and so is what comes after it. -/
def WordAt (d : Dialect) (word : Sql) (left right : Char) (text : Sql) : Prop :=
  ∃ before after, text = before ++ word ++ after ∧ Balanced d before ∧ Balanced d after ∧
    before.getLast? = some left ∧ after.head? = some right

theorem balanced_of_flat {t : Sql} (ht : ∀ c ∈ t, IsFlat d c) : Balanced d t := by
  induction t with
  | nil => exact .nil
  | cons c t ih =>
    obtain ⟨hc, ht⟩ := List.forall_mem_cons.1 ht
    exact .flat hc (ih ht)

theorem Balanced.of_flat_cons {c : Char} {t : Sql} (h : Balanced d (c :: t)) (hc : IsFlat d c) :
    Balanced d t := by
  cases h with
  | flat _ ht => exact ht
  | quoted hq => exact absurd hq.isQuote (by simp [hc.1])
  | group => exact absurd rfl hc.2.1

/-- A word stays at the top level where a text is put in front that leaves it there. -/
theorem WordAt.append_left {word s t : Sql} {left right : Char} (h : WordAt d word left right t)
    (hs : ∀ before, Balanced d before → before.head? = t.head? → Balanced d (s ++ before)) :
    WordAt d word left right (s ++ t) := by
  obtain ⟨before, after, rfl, hbefore, hafter, hleft, hright⟩ := h
  have hne : before ≠ [] := by
    rintro rfl
    cases hleft
  refine ⟨s ++ before, after, by simp, hs before hbefore ?_, hafter, ?_, hright⟩
  · obtain ⟨c, before, rfl⟩ := List.exists_cons_of_ne_nil hne
    rfl
  · rw [List.getLast?_append_of_ne_nil _ hne, hleft]

/-! ### Sections and parentheses are passed over -/

/-- No quote of a section is a backslash that escapes in it. -/
theorem Encloses.not_escape {q : Char} {e : Bool} (h : Encloses d q e) :
    ¬ (e = true ∧ q = '\\') := by
  rintro ⟨rfl, rfl⟩
  rcases h with ⟨hq, -⟩ | ⟨-, he⟩
  · exact absurd hq (by decide)
  · cases he

/-- What stands between quotes is read within one section. -/
theorem Content.readAll_inside (hd : d.HasAsciiQuote) {q : Char} {e : Bool} {inner : Sql}
    (hq : Encloses d q e) (h : Content q e inner) (start offset : Nat) :
    (Place.inside (byteOf q) e start).StaysInside d offset inner ∧
      (Place.inside (byteOf q) e start).readAll d offset inner =
        .inside (byteOf q) e start := by
  have hlt := hd.toNat_lt hq.isQuote
  induction h generalizing offset with
  | nil => exact ⟨trivial, rfl⟩
  | @char c t hc hescape _ ih =>
    have hread : (Place.inside (byteOf q) e start).read d offset c = .inside (byteOf q) e start := by
      rw [Place.read_inside hd hlt, if_neg hescape, if_neg hc]
    rw [Place.StaysInside, Place.readAll, hread]
    exact ⟨⟨by simp, (ih _).1⟩, (ih _).2⟩
  | @twice t _ ih =>
    have hread : (Place.inside (byteOf q) e start).read d offset q = .closing (byteOf q) e start := by
      rw [Place.read_inside hd hlt, if_neg hq.not_escape, if_pos rfl]
    rw [Place.StaysInside, Place.StaysInside, Place.readAll, Place.readAll, hread,
      Place.read_closing_self hlt]
    exact ⟨⟨by simp, by simp, (ih _).1⟩, (ih _).2⟩
  | @escape c t he _ ih =>
    subst he
    have hread : (Place.inside (byteOf q) true start).read d offset '\\' =
        .escaped (byteOf q) start := by
      rw [Place.read_inside hd hlt, if_pos ⟨rfl, rfl⟩]
    rw [Place.StaysInside, Place.StaysInside, Place.readAll, Place.readAll, hread,
      Place.read_escaped hd hlt]
    exact ⟨⟨by simp, by simp, (ih _).1⟩, (ih _).2⟩

/-- The search passes over a quoted section. -/
theorem hasTopLevelOrFrom_quoted (hd : d.HasAsciiQuote) {q : Char} {e : Bool} {inner rest : Sql}
    (hq : Encloses d q e) (hinner : Content q e inner) (hrest : rest.head? ≠ some q)
    (depth offset : Nat) :
    hasTopLevelOrFrom d .outside depth offset (q :: inner ++ [q] ++ rest) =
      hasTopLevelOrFrom d .outside depth (offset + encodedLength (q :: inner ++ [q])) rest := by
  have hlt := hd.toNat_lt hq.isQuote
  have hopen : Place.outside.read d offset q = .inside (byteOf q) e offset := by
    rcases hq with ⟨rfl, rfl⟩ | ⟨hq, rfl⟩
    · exact Place.read_outside_singleQuote offset
    · exact Place.read_outside_identifierQuote hd hq offset
  obtain ⟨hstay, hend⟩ := hinner.readAll_inside hd hq offset (offset + q.utf8Size)
  have hclose : ∀ o, (Place.inside (byteOf q) e offset).read d o q =
      .closing (byteOf q) e offset := by
    intro o
    rw [Place.read_inside hd hlt, if_neg hq.not_escape, if_pos rfl]
  have hsection : Place.outside.StaysInside d offset (q :: inner ++ [q]) := by
    simp [Place.StaysInside, Place.staysInside_append, hopen, hstay, hend, hclose]
  have hread : Place.outside.readAll d offset (q :: inner ++ [q]) =
      .closing (byteOf q) e offset := by
    simp [Place.readAll, Place.readAll_append, hopen, hend, hclose]
  rw [hasTopLevelOrFrom_staysInside hsection, hread]
  cases rest with
  | nil => rfl
  | cons c rest =>
    have hc : c ≠ q := by
      rintro rfl
      exact hrest rfl
    rw [hasTopLevelOrFrom, hasTopLevelOrFrom, Place.read_closing hlt hc]

theorem hasTopLevelOrFrom_cons (hd : d.HasAsciiQuote) {c : Char} (hc : d.isQuote c = false)
    (depth offset : Nat) (rest : Sql) :
    hasTopLevelOrFrom d .outside depth offset (c :: rest) =
      ((depth == 0 && orConnective.isPrefixOf (c :: rest)) ||
        hasTopLevelOrFrom d .outside (nesting depth c) (offset + c.utf8Size) rest) := by
  rw [hasTopLevelOrFrom, Place.read_outside hd hc, if_pos rfl]

/-- The search passes over a text in parentheses if, one level deeper, it passes over the text. -/
theorem hasTopLevelOrFrom_group (hd : d.IsCommon) {s : Sql} {depth : Nat}
    (hs : ∀ offset rest, Clear d rest →
      hasTopLevelOrFrom d .outside (depth + 1) offset (s ++ rest) =
        hasTopLevelOrFrom d .outside (depth + 1) (offset + encodedLength s) rest)
    (offset : Nat) (rest : Sql) :
    hasTopLevelOrFrom d .outside depth offset ('(' :: s ++ [')'] ++ rest) =
      hasTopLevelOrFrom d .outside depth (offset + encodedLength ('(' :: s ++ [')'])) rest := by
  have hopen : d.isQuote '(' = false := hd.isQuote_eq_false (by decide)
  have hclose : d.isQuote ')' = false := hd.isQuote_eq_false (by decide)
  have hnone : ∀ t, orConnective.isPrefixOf ('(' :: t) = false := fun t => rfl
  rw [List.append_assoc, List.cons_append, hasTopLevelOrFrom_cons hd.hasAsciiQuote hopen, hnone,
    Bool.and_false, Bool.false_or]
  change hasTopLevelOrFrom d .outside (depth + 1) _ (s ++ ')' :: rest) = _
  rw [hs _ _ (clear_cons.2 hclose), hasTopLevelOrFrom_cons hd.hasAsciiQuote hclose]
  change (false || hasTopLevelOrFrom d .outside depth _ rest) = _
  rw [Bool.false_or, encodedLength_append, encodedLength_cons, encodedLength_cons,
    encodedLength_nil, Nat.add_zero, ← Nat.add_assoc, ← Nat.add_assoc]

/-- Within parentheses the search passes over a balanced text. -/
theorem Balanced.hasTopLevelOrFrom_append (hd : d.IsCommon) {s : Sql} (h : Balanced d s)
    (depth offset : Nat) (rest : Sql) (hrest : Clear d rest) :
    hasTopLevelOrFrom d .outside (depth + 1) offset (s ++ rest) =
      hasTopLevelOrFrom d .outside (depth + 1) (offset + encodedLength s) rest := by
  induction h generalizing depth offset rest with
  | nil => rfl
  | @flat c t hc _ ih =>
    rw [List.cons_append, hasTopLevelOrFrom_cons hd.hasAsciiQuote hc.1, nesting_of_isFlat hc,
      ih _ _ _ hrest, encodedLength_cons, ← Nat.add_assoc]
    rfl
  | @quoted q e inner t hq hinner hhead _ ih =>
    have hhead' : (t ++ rest).head? ≠ some q := by
      cases t with
      | nil =>
        intro h
        exact absurd (hrest q (Option.mem_def.2 h)) (by simp [hq.isQuote])
      | cons c t => exact hhead
    rw [List.append_assoc, hasTopLevelOrFrom_quoted hd.hasAsciiQuote hq hinner hhead',
      ih _ _ _ hrest, encodedLength_append _ t, Nat.add_assoc]
  | @group s t _ _ ihs iht =>
    rw [List.append_assoc, hasTopLevelOrFrom_group hd (ihs (depth + 1)), iht _ _ _ hrest,
      encodedLength_append _ t, Nat.add_assoc]

/-! ### What is found at the top level -/

/-- A text ends with a space if what follows another character in it does. -/
theorem getLast?_of_ne_space {c : Char} {s t : Sql} (hc : c ≠ ' ')
    (h : (s ++ [c] ++ t).getLast? = some ' ') : t.getLast? = some ' ' := by
  cases t with
  | nil =>
    rw [List.append_nil, List.getLast?_concat] at h
    exact absurd (Option.some.inj h) hc
  | cons c' t => rwa [List.getLast?_append_of_ne_nil _ (List.cons_ne_nil c' t)] at h

/-- An `OR` between two spaces is found behind a balanced text. -/
theorem Balanced.hasTopLevelOrFrom_word (hd : d.IsCommon) {s : Sql} (h : Balanced d s)
    (hlast : s.getLast? = some ' ') (offset : Nat) (rest : Sql) :
    hasTopLevelOrFrom d .outside 0 offset (s ++ ("OR ".toList ++ rest)) = true := by
  induction h generalizing offset with
  | nil => cases hlast
  | @flat c t hc _ ih =>
    rw [List.cons_append, hasTopLevelOrFrom_cons hd.hasAsciiQuote hc.1, nesting_of_isFlat hc]
    cases t with
    | nil =>
      obtain rfl : c = ' ' := Option.some.inj hlast
      rfl
    | cons c' t => rw [ih hlast, Bool.or_true]
  | @quoted q e inner t hq hinner hhead _ ih =>
    have hspace : q ≠ ' ' := by
      rintro rfl
      exact absurd hq.isQuote (by simp [hd.isQuote_eq_false])
    have hlast' : t.getLast? = some ' ' := getLast?_of_ne_space hspace hlast
    have hhead' : (t ++ ("OR ".toList ++ rest)).head? ≠ some q := by
      cases t with
      | nil => cases hlast'
      | cons c t => exact hhead
    rw [List.append_assoc, hasTopLevelOrFrom_quoted hd.hasAsciiQuote hq hinner hhead', ih hlast']
  | @group s t hs _ _ ih =>
    have hlast' : t.getLast? = some ' ' := getLast?_of_ne_space (by decide) hlast
    rw [List.append_assoc, hasTopLevelOrFrom_group hd (hs.hasTopLevelOrFrom_append hd _), ih hlast']

/-- What is found in a balanced text is an `OR` between two spaces. -/
theorem Balanced.wordAt_of_hasTopLevelOrFrom (hd : d.IsCommon) {t : Sql} (h : Balanced d t)
    {offset : Nat} (hfound : hasTopLevelOrFrom d .outside 0 offset t = true) :
    WordAt d "OR".toList ' ' ' ' t := by
  induction h generalizing offset with
  | nil => cases hfound
  | @flat c t hc ht ih =>
    rw [hasTopLevelOrFrom_cons hd.hasAsciiQuote hc.1, nesting_of_isFlat hc, Bool.or_eq_true] at hfound
    rcases hfound with hprefix | hrest
    · obtain ⟨after, hafter⟩ := List.isPrefixOf_iff_prefix.1 hprefix
      obtain ⟨rfl, rfl⟩ : c = ' ' ∧ t = 'O' :: 'R' :: ' ' :: after := by
        rw [show orConnective = [' ', 'O', 'R', ' '] from rfl] at hafter
        cases hafter
        exact ⟨rfl, rfl⟩
      have hletter : ∀ c ∈ ['O', 'R'], IsFlat d c := fun c hc =>
        isFlat_of_isWordChar hd (by revert c; decide)
      refine ⟨[' '], ' ' :: after, rfl, .flat hc .nil, ?_, rfl, rfl⟩
      exact (ht.of_flat_cons (hletter 'O' (by simp))).of_flat_cons (hletter 'R' (by simp))
    · exact (ih hrest).append_left (s := [c]) fun before hbefore _ => .flat hc hbefore
  | @quoted q e inner t hq hinner hhead _ ih =>
    rw [hasTopLevelOrFrom_quoted hd.hasAsciiQuote hq hinner hhead] at hfound
    exact (ih hfound).append_left fun before hbefore hsame =>
      .quoted hq hinner (hsame ▸ hhead) hbefore
  | @group s t hs _ _ ih =>
    rw [hasTopLevelOrFrom_group hd (hs.hasTopLevelOrFrom_append hd _)] at hfound
    exact (ih hfound).append_left fun before hbefore _ => .group hs hbefore

/-! ### Among other fragments -/

/-- The condition of several fragments, one of which stands in it as given. -/
def conditionWith (d : Dialect) (before : List Sql) (written : Sql) (after : List Sql) : Sql :=
  " WHERE ".toList ++ " AND ".toList.intercalate
    ((kept before).map (conjunct d) ++ written :: (kept after).map (conjunct d))

theorem conjunction_of_two_le {fs : List Sql} (h : 2 ≤ fs.length) :
    conjunction d fs = " AND ".toList.intercalate (fs.map (conjunct d)) := by
  match fs, h with
  | _ :: _ :: _, _ => rfl

/-- A fragment among others stands in their condition as a conjunct. -/
theorem condition_eq_conditionWith {f : Sql} (hf : isBlank f = false) {before after : List Sql}
    (hothers : kept before ++ kept after ≠ []) :
    condition d (before ++ f :: after) = conditionWith d before (conjunct d f) after := by
  have hlength : 2 ≤ (kept before ++ f :: kept after).length := by
    have := List.length_pos_of_ne_nil hothers
    rw [List.length_append] at this
    rw [List.length_append, List.length_cons]
    omega
  rw [condition_append_cons d hf, conjunction_of_two_le hlength, List.map_append, List.map_cons]
  rfl

/-- **A top-level `OR` between spaces is found.**  In a balanced text of a common dialect, the search
for an `OR` succeeds exactly if the keyword stands at the top level in capitals between two spaces.
Where other fragments are joined with such a text, it stands in parentheses, and any other balanced
text that is not blank stands as it is. -/
theorem hasTopLevelOr_balanced (hd : d.IsCommon) {text : Sql} (htext : Balanced d text) :
    (hasTopLevelOr d text = true ↔ WordAt d "OR".toList ' ' ' ' text) ∧
      ∀ before after, kept before ++ kept after ≠ [] →
        (WordAt d "OR".toList ' ' ' ' text →
          condition d (before ++ text :: after) =
            conditionWith d before ('(' :: text ++ [')']) after) ∧
        (¬ WordAt d "OR".toList ' ' ' ' text → isBlank text = false →
          condition d (before ++ text :: after) = conditionWith d before text after) := by
  have hiff : hasTopLevelOr d text = true ↔ WordAt d "OR".toList ' ' ' ' text := by
    refine ⟨htext.wordAt_of_hasTopLevelOrFrom hd, ?_⟩
    rintro ⟨s, t, rfl, hs, -, hlast, hhead⟩
    obtain ⟨rest, rfl⟩ := List.head?_eq_some_iff.1 hhead
    have hfound := hs.hasTopLevelOrFrom_word hd hlast 0 rest
    simpa [hasTopLevelOr] using hfound
  refine ⟨hiff, fun before after hothers => ⟨fun hword => ?_, fun hnone hblank => ?_⟩⟩
  · have hblank : isBlank text = false := by
      obtain ⟨s, t, rfl, -⟩ := hword
      exact List.all_eq_false.2 ⟨'O', by simp, by decide⟩
    rw [condition_eq_conditionWith hblank hothers, conjunct, if_pos (hiff.2 hword)]
    rfl
  · rw [condition_eq_conditionWith hblank hothers, conjunct, if_neg fun h => hnone (hiff.1 h)]

/-- A disjunction with a literal that holds a parenthesis and an `OR` of its own. -/
theorem hasTopLevelOr_balanced_literal :
    let text := "a=') OR ' OR b".toList
    Dialect.mysql.IsCommon ∧ Balanced .mysql text ∧
      condition .mysql [text, "c=3".toList] = " WHERE (a=') OR ' OR b) AND c=3".toList := by
  have hd : Dialect.mysql.IsCommon := .inr (.inl rfl)
  have hflat : ∀ c ∈ "a= ORb".toList, IsFlat .mysql c := by
    unfold IsFlat
    decide
  have hinner : Content '\'' true [')', ' ', 'O', 'R', ' '] := by
    refine .char ?_ ?_ (.char ?_ ?_ (.char ?_ ?_ (.char ?_ ?_ (.char ?_ ?_ .nil)))) <;> decide
  have hright : Balanced .mysql [' ', 'O', 'R', ' ', 'b'] :=
    balanced_of_flat fun c hc => hflat c (by revert c; decide)
  have hchars : "a=') OR ' OR b".toList = 'a' :: '=' ::
      ('\'' :: [')', ' ', 'O', 'R', ' '] ++ ['\''] ++ [' ', 'O', 'R', ' ', 'b']) := by decide
  have htext : Balanced .mysql "a=') OR ' OR b".toList := by
    rw [hchars]
    exact .flat (hflat 'a' (by decide)) (.flat (hflat '=' (by decide))
      (.quoted (.inl ⟨rfl, rfl⟩) hinner (by decide) hright))
  obtain ⟨hiff, hjoined⟩ := hasTopLevelOr_balanced hd htext
  refine ⟨hd, htext, ?_⟩
  have := (hjoined [] ["c=3".toList] (by decide)).1 (hiff.1 (by decide))
  exact this.trans (by decide)

/-- An `OR` between parentheses, without spaces, is missed, and the conjunct that follows is drawn into
the second of its disjuncts. -/
theorem or_between_parentheses_missed :
    let text := "(a=1)OR(b=2)".toList
    Balanced .generic text ∧ WordAt .generic "OR".toList ')' '(' text ∧
      Dialect.isBareChar ')' = false ∧ Dialect.isBareChar '(' = false ∧
      hasTopLevelOr .generic text = false ∧
      select .generic "t" ["a"] [text, "c=3".toList] =
        .ok "SELECT a FROM t WHERE (a=1)OR(b=2) AND c=3".toList := by
  have hflat : ∀ c ∈ "a=12bOR".toList, IsFlat .generic c := by
    unfold IsFlat
    decide
  have hfirst : Balanced .generic ['a', '=', '1'] :=
    balanced_of_flat fun c hc => hflat c (by revert c; decide)
  have hsecond : Balanced .generic ['b', '=', '2'] :=
    balanced_of_flat fun c hc => hflat c (by revert c; decide)
  have htext : "(a=1)OR(b=2)".toList = '(' :: ['a', '=', '1'] ++ [')'] ++
      'O' :: 'R' :: ('(' :: ['b', '=', '2'] ++ [')'] ++ []) := by decide
  have hword : "OR".toList = ['O', 'R'] := by decide
  refine ⟨?_, ?_, by decide, by decide, by decide, by decide⟩
  · rw [htext]
    exact .group hfirst (.flat (hflat 'O' (by decide)) (.flat (hflat 'R' (by decide))
      (.group hsecond .nil)))
  · rw [htext, hword]
    exact ⟨_, _, rfl, .group hfirst .nil, .group hsecond .nil, rfl, rfl⟩

end ExternalTable.Fragment
