import ExternalTable.Proofs.Exposure

/-!
# Cutting at the top level

The top level of a fragment is a row of words with single spaces between them: operands, which hold
no exposed space, and keywords.  What is cut at a keyword can therefore be found word by word.

* `IsNeutral`: a word that is no keyword of joining;
* `spaced`, `unwords`: words with a space in front of each, and words with spaces between;
* `cut_word`, `cut_between`, `cut_and`: what is cut at one word;
* `IsConjunct`: marked text that stays whole when it is joined to others;
* `cut_intercalate`, `exposes_intercalate`: conjuncts joined by `AND` fall apart again, and show no
  `OR`.
-/

namespace ExternalTable.Fragment

/-! ### Words -/

/-- An exposed space. -/
def space : Mark := (' ', true)

/-- What may follow a word: nothing or an exposed space. -/
def Ready (ms : List Mark) : Prop :=
  ms = [] ∨ ∃ rest, ms = space :: rest

/-- Words with an exposed space in front of each. -/
def spaced (ws : List (List Mark)) : List Mark :=
  ws.flatMap (space :: ·)

/-- Words with an exposed space between each two. -/
def unwords : List (List Mark) → List Mark
  | [] => []
  | w :: ws => w ++ spaced ws

/-- A word that is none of the keywords that matter for joining. -/
structure IsNeutral (w : List Mark) : Prop where
  space_notMem : space ∉ w
  ne_and : w ≠ shown "AND".toList
  ne_between : w ≠ shown "BETWEEN".toList
  ne_or : w ≠ shown "OR".toList

theorem ready_nil : Ready [] := .inl rfl

theorem ready_space (rest : List Mark) : Ready (space :: rest) := .inr ⟨rest, rfl⟩

theorem Ready.spaced_append (ws : List (List Mark)) {tail : List Mark} (h : Ready tail) :
    Ready (spaced ws ++ tail) := by
  cases ws with
  | nil => exact h
  | cons w ws => exact ready_space _

theorem spaced_nil : spaced [] = [] := rfl

theorem spaced_cons (w : List Mark) (ws : List (List Mark)) :
    spaced (w :: ws) = space :: (w ++ spaced ws) := rfl

/-- A keyword and a space can only begin where a word ends that is this keyword. -/
theorem eq_of_prefix {keyword : Sql} (hkeyword : ' ' ∉ keyword) {w tail : List Mark}
    (hw : space ∉ w) (htail : Ready tail) (h : shown (keyword ++ [' ']) <+: w ++ tail) :
    w = shown keyword ∧ tail ≠ [] := by
  -- The keyword is compared with the word character by character.  Its space, which comes last,
  -- cannot be one of the word, and so stands at the end of the word.
  induction keyword generalizing w with
  | nil =>
    cases w with
    | nil =>
      refine ⟨rfl, ?_⟩
      rintro rfl
      exact absurd (List.prefix_nil.1 h) (by simp [shown])
    | cons m w =>
      have hm : space = m := (List.cons_prefix_cons.1 h).1
      exact absurd (by simp [hm]) hw
  | cons c keyword ih =>
    have hc : c ≠ ' ' ∧ ' ' ∉ keyword := by simpa [eq_comm] using hkeyword
    cases w with
    | nil =>
      rcases htail with rfl | ⟨rest, rfl⟩
      · exact absurd (List.prefix_nil.1 h) (by simp [shown])
      · have hm : (c, true) = space := (List.cons_prefix_cons.1 h).1
        exact absurd (congrArg Prod.fst hm) hc.1
    | cons m w =>
      obtain ⟨hm, hrest⟩ := List.cons_prefix_cons.1 h
      obtain ⟨hw', htail'⟩ := ih hc.2 (fun h => hw (List.mem_cons_of_mem _ h)) hrest
      exact ⟨by rw [hw', ← hm]; rfl, htail'⟩

/-- Between spaces, a keyword begins exactly where the word is this keyword. -/
theorem begins_space (keyword : Sql) (hkeyword : ' ' ∉ keyword) {w tail : List Mark}
    (hw : space ∉ w) (htail : Ready tail) :
    begins (' ' :: (keyword ++ [' '])) (space :: (w ++ tail)) = true ↔
      w = shown keyword ∧ tail ≠ [] := by
  rw [begins, List.isPrefixOf_iff_prefix]
  constructor
  · intro h
    exact eq_of_prefix hkeyword hw htail (List.cons_prefix_cons.1 h).2
  · rintro ⟨rfl, hne⟩
    obtain ⟨rest, rfl⟩ := htail.resolve_left hne
    exact ⟨rest, by simp [shown, space]⟩

theorem begins_of_ne_space (words : Sql) {m : Mark} (hm : m ≠ space) (ms : List Mark) :
    begins (' ' :: words) (m :: ms) = false := by
  rw [begins, shown, List.map_cons, List.isPrefixOf_cons_cons]
  simp [show ((' ', true) == m) = false from beq_false_of_ne fun h => hm h.symm]

section Cutting

variable {w tail : List Mark} (pending : Bool)

/-- No cut is made within a word. -/
theorem cut_solid (hw : space ∉ w) (rest : List Mark) :
    cut pending 0 (w ++ rest) = prolong (chars w) (cut pending 0 rest) := by
  induction w with
  | nil =>
    obtain ⟨p, ps, hps⟩ := List.exists_cons_of_ne_nil (cut_ne_nil pending 0 rest)
    rw [List.nil_append, hps]
    rfl
  | cons m w ih =>
    have hm : m ≠ space := by
      rintro rfl
      exact hw (by simp)
    rw [List.cons_append, cut, show andConnective = ' ' :: "AND ".toList from rfl,
      show betweenKeyword = ' ' :: "BETWEEN ".toList from rfl, begins_of_ne_space _ hm,
      begins_of_ne_space _ hm, if_neg Bool.false_ne_true, if_neg Bool.false_ne_true,
      ih fun h => hw (List.mem_cons_of_mem _ h), prolong_prolong]
    rfl

/-- No cut is made before a word that is no keyword of joining. -/
theorem cut_word (hw : space ∉ w) (hand : w ≠ shown "AND".toList)
    (hbetween : w ≠ shown "BETWEEN".toList) (htail : Ready tail) :
    cut pending 0 (space :: (w ++ tail)) = prolong (' ' :: chars w) (cut pending 0 tail) := by
  have h1 : ¬ begins andConnective (space :: (w ++ tail)) = true := fun h =>
    hand ((begins_space "AND".toList (by decide) hw htail).1 h).1
  have h2 : ¬ begins betweenKeyword (space :: (w ++ tail)) = true := fun h =>
    hbetween ((begins_space "BETWEEN".toList (by decide) hw htail).1 h).1
  rw [cut, if_neg h1, if_neg h2, cut_solid pending hw, prolong_prolong]
  rfl

/-- No cut is made in a row of neutral words. -/
theorem cut_spaced {ws : List (List Mark)} (hws : ∀ w ∈ ws, IsNeutral w) (htail : Ready tail) :
    cut pending 0 (spaced ws ++ tail) =
      prolong (chars (spaced ws)) (cut pending 0 tail) := by
  induction ws with
  | nil => exact cut_solid pending (w := []) (by simp) tail
  | cons w ws ih =>
    have hw := hws w (by simp)
    rw [spaced_cons, List.cons_append, List.append_assoc,
      cut_word pending hw.space_notMem hw.ne_and hw.ne_between (htail.spaced_append ws),
      ih fun w hw => hws w (by simp [hw]), prolong_prolong]
    simp [chars, space]

/-- A `BETWEEN` waits for its `AND`. -/
theorem cut_between (rest : List Mark) :
    cut pending 0 (space :: (shown "BETWEEN".toList ++ space :: rest)) =
      prolong " BETWEEN".toList (cut true 0 (space :: rest)) := by
  have h1 : ¬ begins andConnective (space :: (shown "BETWEEN".toList ++ space :: rest)) = true := by
    intro h
    have := ((begins_space "AND".toList (by decide) (by decide) (ready_space rest)).1
      h).1
    exact absurd this (by decide)
  have h2 : begins betweenKeyword (space :: (shown "BETWEEN".toList ++ space :: rest)) = true :=
    (begins_space "BETWEEN".toList (by decide) (by decide) (ready_space rest)).2
      ⟨rfl, List.cons_ne_nil _ _⟩
  rw [cut, if_neg h1, if_pos h2, cut_solid true (by decide), prolong_prolong]
  rfl

/-- The `AND` of a `BETWEEN` is not cut. -/
theorem cut_and_pending (rest : List Mark) :
    cut true 0 (space :: (shown "AND".toList ++ space :: rest)) =
      prolong " AND".toList (cut false 0 (space :: rest)) := by
  have h1 : begins andConnective (space :: (shown "AND".toList ++ space :: rest)) = true :=
    (begins_space "AND".toList (by decide) (by decide) (ready_space rest)).2
      ⟨rfl, List.cons_ne_nil _ _⟩
  rw [cut, if_pos h1, if_pos rfl, cut_solid false (by decide), prolong_prolong]
  rfl

/-- Any other `AND` is cut, and belongs to neither piece. -/
theorem cut_and (rest : List Mark) :
    cut false 0 (shown andConnective ++ rest) = [] :: cut false 0 rest := by
  have h1 : begins andConnective (shown andConnective ++ rest) = true := by
    rw [begins, List.isPrefixOf_iff_prefix]
    exact List.prefix_append _ _
  rw [show shown andConnective ++ rest = space :: (shown "AND ".toList ++ rest) from rfl] at h1 ⊢
  rw [cut, if_pos h1, if_neg Bool.false_ne_true]
  rfl

end Cutting

/-! ### Exposed connectives -/

/-- No connective begins within a word. -/
theorem exposes_solid {w : List Mark} (hw : space ∉ w) (rest : List Mark) :
    exposes orConnective (w ++ rest) = exposes orConnective rest := by
  induction w with
  | nil => rfl
  | cons m w ih =>
    have hm : m ≠ space := by
      rintro rfl
      exact hw (by simp)
    rw [List.cons_append, exposes, show orConnective = ' ' :: "OR ".toList from rfl,
      begins_of_ne_space _ hm, Bool.false_or]
    exact ih fun h => hw (List.mem_cons_of_mem _ h)

/-- A word other than `OR` makes no connective. -/
theorem exposes_word {w tail : List Mark} (hw : space ∉ w) (hor : w ≠ shown "OR".toList)
    (htail : Ready tail) :
    exposes orConnective (space :: (w ++ tail)) = exposes orConnective tail := by
  have h : ¬ begins orConnective (space :: (w ++ tail)) = true := fun h =>
    hor ((begins_space "OR".toList (by decide) hw htail).1 h).1
  rw [exposes, Bool.eq_false_iff.2 h, Bool.false_or, exposes_solid hw]

theorem exposes_spaced {ws : List (List Mark)}
    (hws : ∀ w ∈ ws, space ∉ w ∧ w ≠ shown "OR".toList) {tail : List Mark} (htail : Ready tail) :
    exposes orConnective (spaced ws ++ tail) = exposes orConnective tail := by
  induction ws with
  | nil => rfl
  | cons w ws ih =>
    have hw := hws w (by simp)
    rw [spaced_cons, List.cons_append, List.append_assoc,
      exposes_word hw.1 hw.2 (htail.spaced_append ws), ih fun w hw => hws w (by simp [hw])]

/-! ### Conjuncts -/

/-- Marked text that stays whole when it is joined to others: it is not cut, and shows no `OR`. -/
structure IsConjunct (ms : List Mark) : Prop where
  cut_append : ∀ tail, Ready tail →
    cut false 0 (ms ++ tail) = prolong (chars ms) (cut false 0 tail)
  exposes_append : ∀ tail, Ready tail →
    exposes orConnective (space :: (ms ++ tail)) = exposes orConnective tail

/-- A row of neutral words is a conjunct. -/
theorem isConjunct_unwords {ws : List (List Mark)} (hne : ws ≠ []) (hws : ws.Forall IsNeutral) :
    IsConjunct (unwords ws) := by
  obtain ⟨w, ws, rfl⟩ := List.exists_cons_of_ne_nil hne
  obtain ⟨hw, hws⟩ := (List.forall_cons _ _ _).1 hws
  rw [List.forall_iff_forall_mem] at hws
  rw [unwords]
  refine ⟨fun tail htail => ?_, fun tail htail => ?_⟩
  · rw [List.append_assoc, cut_solid false hw.space_notMem, cut_spaced false hws htail,
      prolong_prolong, chars_append]
  · rw [List.append_assoc, exposes_word hw.space_notMem hw.ne_or (htail.spaced_append ws),
      exposes_spaced (fun v hv => ⟨(hws v hv).space_notMem, (hws v hv).ne_or⟩) htail]

/-- A single neutral word is a conjunct. -/
theorem isConjunct_word {w : List Mark} (hw : IsNeutral w) : IsConjunct w := by
  have h : IsConjunct (unwords [w]) := isConjunct_unwords (List.cons_ne_nil _ _) hw
  rwa [unwords, spaced_nil, List.append_nil] at h

/-- A `BETWEEN` with its `AND`, between neutral words, is a conjunct. -/
theorem isConjunct_between {w a b : List Mark} (ws : List (List Mark)) (hw : IsNeutral w)
    (hws : ws.Forall IsNeutral) (ha : IsNeutral a) (hb : IsNeutral b) :
    IsConjunct (unwords (w :: (ws ++ [shown "BETWEEN".toList, a, shown "AND".toList, b]))) := by
  rw [List.forall_iff_forall_mem] at hws
  rw [unwords]
  refine ⟨fun tail htail => ?_, fun tail htail => ?_⟩
  · have hsplit : spaced (ws ++ [shown "BETWEEN".toList, a, shown "AND".toList, b]) ++ tail =
        spaced ws ++ space :: (shown "BETWEEN".toList ++ space :: (a ++
          space :: (shown "AND".toList ++ space :: (b ++ tail)))) := by
      simp [spaced]
    rw [List.append_assoc, hsplit, cut_solid false hw.space_notMem,
      cut_spaced false hws (ready_space _), cut_between,
      cut_word true ha.space_notMem ha.ne_and ha.ne_between (ready_space _), cut_and_pending,
      cut_word false hb.space_notMem hb.ne_and hb.ne_between htail]
    simp only [prolong_prolong]
    congr 1
    simp [spaced, chars, space, shown]
  -- None of the words is `OR`, the two keywords included.
  · rw [List.append_assoc, exposes_word hw.space_notMem hw.ne_or (htail.spaced_append _)]
    refine exposes_spaced (fun v hv => ?_) htail
    rcases List.mem_append.1 hv with hv | hv
    · exact ⟨(hws v hv).space_notMem, (hws v hv).ne_or⟩
    · simp only [List.mem_cons, List.not_mem_nil, or_false] at hv
      rcases hv with rfl | rfl | rfl | rfl
      · exact ⟨by decide, by decide⟩
      · exact ⟨ha.space_notMem, ha.ne_or⟩
      · exact ⟨by decide, by decide⟩
      · exact ⟨hb.space_notMem, hb.ne_or⟩

theorem ready_and (ms : List Mark) : Ready (shown andConnective ++ ms) :=
  ready_space _

/-- Conjuncts joined by `AND` fall apart again. -/
theorem cut_intercalate {gs : List (List Mark)} (hne : gs ≠ []) (hgs : ∀ g ∈ gs, IsConjunct g) :
    cut false 0 ((shown andConnective).intercalate gs) = gs.map chars := by
  induction gs with
  | nil => exact absurd rfl hne
  | cons g gs ih =>
    obtain ⟨hg, hrest⟩ := List.forall_mem_cons.1 hgs
    cases gs with
    | nil =>
      have hcut := hg.cut_append [] ready_nil
      rw [List.append_nil] at hcut
      rw [List.intercalate_singleton, hcut]
      simp [cut, prolong]
    | cons g' gs =>
      rw [List.intercalate_cons_cons, List.append_assoc, hg.cut_append _ (ready_and _), cut_and,
        ih (List.cons_ne_nil _ _) hrest]
      simp [prolong]

/-- Conjuncts joined by `AND` show no `OR`. -/
theorem exposes_intercalate {gs : List (List Mark)} (hne : gs ≠ [])
    (hgs : ∀ g ∈ gs, IsConjunct g) :
    exposes orConnective ((shown andConnective).intercalate gs) = false := by
  -- The induction needs a space in front, as it stands after an `AND`.
  have key : exposes orConnective (space :: (shown andConnective).intercalate gs) = false := by
    induction gs with
    | nil => exact absurd rfl hne
    | cons g gs ih =>
      obtain ⟨hg, hrest⟩ := List.forall_mem_cons.1 hgs
      cases gs with
      | nil =>
        have hexposes := hg.exposes_append [] ready_nil
        rw [List.append_nil] at hexposes
        rw [List.intercalate_singleton, hexposes]
        rfl
      | cons g' gs =>
        have hand : ∀ ms, shown andConnective ++ ms =
            space :: (shown "AND".toList ++ space :: ms) := fun ms => rfl
        rw [List.intercalate_cons_cons, List.append_assoc, hg.exposes_append _ (ready_and _), hand,
          exposes_word (by decide) (by decide) (ready_space _)]
        exact ih (List.cons_ne_nil _ _) hrest
  rw [exposes, Bool.or_eq_false_iff] at key
  exact key.2

end ExternalTable.Fragment
