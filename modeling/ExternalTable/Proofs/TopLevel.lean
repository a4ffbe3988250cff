import ExternalTable.Proofs.Cutting

/-!
# The top level of a fragment

What a fragment shows outside of its quoted sections and parentheses.  Its operands are atoms, which
show nothing that could be taken for a separator, and the fragment of an operator shows its operands
in a row with the words of the operator.

* `IsSolid`: marked text that shows no character that divides;
* `PlainNames`: no bare column name reads as a keyword of joining;
* `IsAtom`: the text of a leaf, or of an operator in parentheses;
* `topLevel`, `closed_assemble`: the marks of an operator from those of its operands;
* `row`, `topLevel_eq_unwords`: the same marks, word by word.
-/

namespace ExternalTable

/-! ### Names of columns -/

mutual

/-- The names of the columns in a tree. -/
def Node.columns : Node → List String
  | .column name => [name]
  | .constant _ | .placeholder _ _ => []
  | .predicate _ children => columnsAll children

/-- The names of the columns in several trees. -/
def Node.columnsAll : List Node → List String
  | [] => []
  | n :: ns => n.columns ++ columnsAll ns

end

namespace Fragment

/-- The names that read as a keyword of joining. -/
def joiningNames : List String :=
  ["AND", "BETWEEN", "OR"]

/-- No column that is written as it is reads as a keyword of joining. -/
def PlainNames (d : Dialect) (names : List String) : Prop :=
  d.identifierQuote = none → ∀ name ∈ names, name ∉ joiningNames

variable {d : Dialect}

theorem PlainNames.of_subset {names names' : List String} (h : PlainNames d names')
    (hsub : ∀ name ∈ names, name ∈ names') : PlainNames d names :=
  fun hq name hname => h hq name (hsub name hname)

/-! ### Solid text -/

/-- The characters that stand between operands. -/
def dividers : Sql :=
  [' ', ',', '=', '<', '>']

/-- Whether a mark shows a character that stands between operands. -/
def divides (m : Mark) : Bool :=
  m.2 && dividers.contains m.1

/-- Marked text that shows no divider. -/
def IsSolid (ms : List Mark) : Prop :=
  ∀ m ∈ ms, divides m = false

theorem isSolid_hidden (t : Sql) : IsSolid (hidden t) := by
  intro m hm
  obtain ⟨c, -, rfl⟩ := List.mem_map.1 hm
  rfl

theorem isSolid_shown {t : Sql} (ht : ∀ c ∈ t, c ∉ dividers) : IsSolid (shown t) := by
  intro m hm
  obtain ⟨c, hc, rfl⟩ := List.mem_map.1 hm
  simpa [divides] using ht c hc

theorem notMem_dividers_of_isWordChar {c : Char} (hc : isWordChar c = true) : c ∉ dividers := by
  intro h
  have key : ∀ c ∈ dividers, isWordChar c = false := by decide
  rw [key c h] at hc
  exact Bool.noConfusion hc

theorem IsSolid.notMem {ms : List Mark} (h : IsSolid ms) {m : Mark} (hm : divides m = true) :
    m ∉ ms := by
  intro hmem
  rw [h m hmem] at hm
  exact Bool.noConfusion hm

theorem IsSolid.space_notMem {ms : List Mark} (h : IsSolid ms) : space ∉ ms :=
  h.notMem (by decide)

/-! ### Leaves -/

/-- A mark that occurs in no keyword makes a word neutral. -/
theorem isNeutral_of_mem {w : List Mark} (hspace : space ∉ w) {m : Mark} (hm : m ∈ w)
    (h : ∀ name ∈ joiningNames, m ∉ shown name.toList) : IsNeutral w := by
  have key : ∀ name ∈ joiningNames, w ≠ shown name.toList := by
    rintro name hname rfl
    exact h name hname hm
  exact ⟨hspace, key "AND" (by decide), key "BETWEEN" (by decide), key "OR" (by decide)⟩

/-- What is not exposed is neutral. -/
theorem isNeutral_hidden {t : Sql} (ht : t ≠ []) : IsNeutral (hidden t) := by
  obtain ⟨c, t, rfl⟩ := List.exists_cons_of_ne_nil ht
  exact isNeutral_of_mem (isSolid_hidden _).space_notMem (m := (c, false)) (by simp [hidden])
    (by simp [shown])

theorem isSolid_word {t : Sql} (ht : IsWord t) : IsSolid (shown t) :=
  isSolid_shown fun c hc => notMem_dividers_of_isWordChar (ht.2 c hc)

/-- A word that is no name of joining is neutral. -/
theorem isNeutral_shown {t : Sql} (hword : IsWord t)
    (h : ∀ name ∈ joiningNames, t ≠ name.toList) : IsNeutral (shown t) := by
  have hinj : ∀ name ∈ joiningNames, shown t ≠ shown name.toList := by
    intro name hname heq
    refine h name hname ?_
    rw [← chars_shown t, heq, chars_shown]
  exact ⟨(isSolid_word hword).space_notMem, hinj "AND" (by decide), hinj "BETWEEN" (by decide),
    hinj "OR" (by decide)⟩

theorem isFlat_of_isWordChar (hd : d.IsCommon) {c : Char} (hc : isWordChar c = true) :
    IsFlat d c := by
  refine ⟨isQuote_of_isWordChar hd hc, ?_, ?_⟩ <;>
  · rintro rfl
    exact absurd hc (by decide)

theorem IsSection.ne_nil {t : Sql} (h : IsSection d t) : t ≠ [] := by
  rintro rfl
  obtain ⟨-, q, e, -, hread⟩ := h 0
  exact Place.noConfusion hread

/-- A closed text that is solid, and no keyword of joining unless a column is called that. -/
structure IsAtom (d : Dialect) (names : List String) (t : Sql) (ms : List Mark) : Prop where
  closed : Closed d t ms
  isSolid : IsSolid ms
  isNeutral : PlainNames d names → IsNeutral ms

theorem isAtom_hidden {names : List String} {t : Sql} (h : Closed d t (hidden t)) (ht : t ≠ []) :
    IsAtom d names t (hidden t) :=
  ⟨h, isSolid_hidden t, fun _ => isNeutral_hidden ht⟩

theorem isAtom_section (hd : d.IsCommon) {names : List String} {t : Sql} (ht : IsSection d t) :
    IsAtom d names t (hidden t) :=
  isAtom_hidden (closed_section hd.hasAsciiQuote ht) ht.ne_nil

theorem isAtom_word (hd : d.IsCommon) {names : List String} {t : Sql} (ht : IsWord t)
    (h : PlainNames d names → ∀ name ∈ joiningNames, t ≠ name.toList) :
    IsAtom d names t (shown t) :=
  ⟨closed_shown hd.hasAsciiQuote fun c hc => isFlat_of_isWordChar hd (ht.2 c hc), isSolid_word ht,
    fun hplain => isNeutral_shown ht (h hplain)⟩

/-- A literal without quotes reads as no keyword of joining. -/
theorem ne_joiningName_of_literal {t : Sql} (h : t ∈ keywordLiterals ∨ IsNumber t) {name : String}
    (hname : name ∈ joiningNames) : t ≠ name.toList := by
  rcases h with h | h
  · have key : ∀ t ∈ keywordLiterals, ∀ name ∈ joiningNames, t ≠ name.toList := by decide
    exact key t h name hname
  · rintro rfl
    have key : ∀ name ∈ joiningNames, ∃ c ∈ name.toList, isNumberChar c = false := by decide
    obtain ⟨c, hc, hnumber⟩ := key name hname
    rw [h.2 c hc] at hnumber
    exact Bool.noConfusion hnumber

theorem isAtom_marker (hd : d.IsCommon) {names : List String} (i : Nat) :
    IsAtom d names (marker i) (shown (marker i)) := by
  have hmarker : ∀ c ∈ marker i, c ∈ [markerOpen, markerClose] ∨ isNumberChar c = true := by
    intro c hc
    simp only [marker, List.mem_cons, List.mem_append, List.not_mem_nil, or_false] at hc ⊢
    rcases hc with (h | h) | h
    · exact .inl (.inl h)
    · exact .inr ((isNumber_ofNat _).2 c h)
    · exact .inl (.inr h)
  have hbraces : ∀ c ∈ [markerOpen, markerClose], IsFlat d c ∧ c ∉ dividers := by
    intro c hc
    simp only [List.mem_cons, List.not_mem_nil, or_false] at hc
    rcases hc with rfl | rfl <;>
      exact ⟨⟨hd.isQuote_eq_false (by decide), by decide, by decide⟩, by decide⟩
  have hword : ∀ c, isNumberChar c = true → IsFlat d c ∧ c ∉ dividers := by
    intro c hc
    have hc := isWordChar_of_isNumberChar hc
    exact ⟨isFlat_of_isWordChar hd hc, notMem_dividers_of_isWordChar hc⟩
  have hchars : ∀ c ∈ marker i, IsFlat d c ∧ c ∉ dividers := fun c hc =>
    (hmarker c hc).elim (hbraces c) (hword c)
  have hsolid : IsSolid (shown (marker i)) := isSolid_shown fun c hc => (hchars c hc).2
  refine ⟨closed_shown hd.hasAsciiQuote fun c hc => (hchars c hc).1, hsolid, fun _ => ?_⟩
  exact isNeutral_of_mem hsolid.space_notMem (m := (markerOpen, true)) (by simp [marker, shown])
    (by decide)

/-- The text of a leaf is an atom. -/
theorem isAtom_leaf (hd : d.IsCommon) {n : Node} {t : Sql} (hn : n.isPredicate = false)
    (h : sql d n = .ok t) : ∃ ms, IsAtom d n.columns t ms := by
  cases n with
  | predicate op children => cases hn
  | column name =>
    obtain ⟨hname, rfl⟩ := sql_column_iff.1 h
    rcases identifier_cases hd.hasAsciiQuote hname with ⟨hq, hword⟩ | hsection
    · refine ⟨_, isAtom_word hd hword fun hplain name' hname' heq => ?_⟩
      have hnames := hplain hq name (by simp [Node.columns])
      rw [Dialect.identifier, hq] at heq
      rw [String.toList_inj.1 heq] at hnames
      exact hnames hname'
    · exact ⟨_, isAtom_section hd hsection⟩
  | constant v =>
    rcases literal_cases (sql_constant_iff.1 h) with ⟨s, -, rfl⟩ | hliteral
    · exact ⟨_, isAtom_section hd (isSection_textLiteral hd.hasAsciiQuote _)⟩
    · exact ⟨_, isAtom_word hd (isWord_of_literal hliteral) fun _ _ hname =>
        ne_joiningName_of_literal hliteral hname⟩
  | placeholder type i =>
    obtain ⟨-, rfl⟩ := sql_placeholder_iff.1 h
    exact ⟨_, isAtom_marker hd _⟩

/-! ### Operators -/

/-- The marks of an operator over operands with given marks. -/
def topLevel (op : Operator) : List (List Mark) → List Mark
  | [] => []
  | ms :: rest =>
      match op with
      | .isIn => ms ++ (shown " IN ".toList ++ listed rest)
      | .notIn => ms ++ (shown " NOT IN ".toList ++ listed rest)
      | _ =>
          shown (opening op) ++ (ms ++ trail (shown (spelling op).1) (shown (spelling op).2) rest)
where
  /-- A list in parentheses. -/
  listed (mss : List (List Mark)) : List Mark :=
    hidden (parenthesized (chars ((shown ", ".toList).intercalate mss)))

/-- Closed texts with a flat separator between them are closed. -/
theorem closed_intercalate (hd : d.HasAsciiQuote) (separator : Sql)
    (hflat : ∀ c ∈ separator, IsFlat d c) (hne : separator ≠ []) {ts : List Sql}
    {mss : List (List Mark)} (h : List.Forall₂ (Closed d) ts mss) :
    Closed d (separator.intercalate ts) ((shown separator).intercalate mss) := by
  cases h with
  | nil => exact .nil
  | cons ht h =>
    obtain ⟨htrail, hclear⟩ := closed_trail hd hflat hflat h (fun _ => hne) (fun _ => hne)
    rw [intercalate_eq_trail, intercalate_eq_trail]
    exact ht.append htrail hclear

/-- Separators without parentheses are flat. -/
theorem isFlat_of_separator (hd : d.IsCommon) {s : Sql}
    (hs : ∀ c ∈ s, isSeparatorChar c = true ∧ c ≠ '(' ∧ c ≠ ')') : ∀ c ∈ s, IsFlat d c :=
  fun c hc => ⟨isQuote_of_isSeparatorChar hd (hs c hc).1, (hs c hc).2⟩

/-- Only the separators of lists have parentheses. -/
theorem isFlat_spelling (hd : d.IsCommon) {op : Operator} (hop : op ≠ .isIn ∧ op ≠ .notIn) :
    ∀ s ∈ [opening op, (spelling op).1, (spelling op).2], ∀ c ∈ s, IsFlat d c := by
  have key : ∀ s ∈ [opening op, (spelling op).1, (spelling op).2],
      ∀ c ∈ s, isSeparatorChar c = true ∧ c ≠ '(' ∧ c ≠ ')' := by
    obtain ⟨hin, hnot⟩ := hop
    cases op <;> first
      | decide
      | exact absurd rfl hin
      | exact absurd rfl hnot
  exact fun s hs => isFlat_of_separator hd (key s hs)

/-- A list of closed texts in parentheses, after a keyword, is closed. -/
theorem closed_listed (hd : d.IsCommon) {keyword : Sql}
    (hkeyword : ∀ c ∈ keyword, IsFlat d c) (hne : keyword ≠ []) {t : Sql} {ms : List Mark}
    (ht : Closed d t ms) {ts : List Sql} {mss : List (List Mark)}
    (h : List.Forall₂ (Closed d) ts mss) :
    Closed d (t ++ (keyword ++ parenthesized (", ".toList.intercalate ts)))
      (ms ++ (shown keyword ++ topLevel.listed mss)) := by
  have hlist := closed_intercalate hd.hasAsciiQuote ", ".toList
    (isFlat_of_separator hd (by decide)) (by decide) h
  have hclear : Clear d (keyword ++ parenthesized (", ".toList.intercalate ts)) := by
    obtain ⟨c, s, rfl⟩ := List.exists_cons_of_ne_nil hne
    exact clear_cons.2 (hkeyword c (by simp)).1
  rw [topLevel.listed, hlist.chars_eq]
  exact ht.append ((hlist.parenthesized hd).shown_append hd.hasAsciiQuote hkeyword) hclear

/-- The text of a membership test: an operand, and a list in parentheses. -/
theorem assemble_isIn (o o' : Operand) (os : List Operand) :
    assemble .isIn (o :: o' :: os) = o.grouped ++ (" IN ".toList ++
      parenthesized (", ".toList.intercalate ((o' :: os).map Operand.grouped))) := by
  rw [assemble_cons, List.map_cons, List.map_cons, trail, intercalate_eq_trail, parenthesized]
  simp only [List.append_assoc, List.cons_append]
  rfl

theorem assemble_notIn (o o' : Operand) (os : List Operand) :
    assemble .notIn (o :: o' :: os) = o.grouped ++ (" NOT IN ".toList ++
      parenthesized (", ".toList.intercalate ((o' :: os).map Operand.grouped))) := by
  rw [assemble_cons, List.map_cons, List.map_cons, trail, intercalate_eq_trail, parenthesized]
  simp only [List.append_assoc, List.cons_append]
  rfl

/-- The text of an operator over closed operands is closed. -/
theorem closed_assemble (hd : d.IsCommon) {op : Operator} {os : List Operand}
    {mss : List (List Mark)} (htakes : takes op os.length = true)
    (h : List.Forall₂ (fun o ms => Closed d (o.within op) ms) os mss) :
    Closed d (assemble op os) (topLevel op mss) := by
  have hmap : List.Forall₂ (Closed d) (os.map (Operand.within op)) mss :=
    List.forall₂_map_left_iff.2 h
  cases h with
  | nil => exact absurd (one_le_of_takes htakes) (by simp)
  | @cons o ms os mss ho hos =>
    rw [List.map_cons, List.forall₂_cons] at hmap
    by_cases hop : op ≠ .isIn ∧ op ≠ .notIn
    · have hflat := isFlat_spelling hd hop
      obtain ⟨hfirst, hothers⟩ := spelling_ne_nil htakes
      obtain ⟨htrail, hclear⟩ := closed_trail hd.hasAsciiQuote (hflat _ (by simp))
        (hflat _ (by simp)) hmap.2
        (fun hlen => hfirst (by simpa using hlen)) (fun hlen => hothers (by simpa using hlen))
      have hclosing : closing op = [] := by
        cases op <;> first
          | rfl
          | exact absurd rfl hop.1
          | exact absurd rfl hop.2
      have htop : topLevel op (ms :: mss) = shown (opening op) ++
          (ms ++ trail (shown (spelling op).1) (shown (spelling op).2) mss) := by
        cases op <;> first
          | rfl
          | exact absurd rfl hop.1
          | exact absurd rfl hop.2
      rw [assemble_cons, hclosing, List.append_nil, List.append_assoc, htop]
      exact (ho.append htrail hclear).shown_append hd.hasAsciiQuote (hflat _ (by simp))
    -- A list has at least one member, and a separator of its own for the further ones.
    · rw [not_and_or, not_not, not_not] at hop
      have hne : os ≠ [] := by
        rintro rfl
        rcases hop with rfl | rfl <;> simp [takes] at htakes
      obtain ⟨o', os, rfl⟩ := List.exists_cons_of_ne_nil hne
      rcases hop with rfl | rfl
      · rw [assemble_isIn]
        exact closed_listed hd (isFlat_of_separator hd (by decide)) (by decide) ho hmap.2
      · rw [assemble_notIn]
        exact closed_listed hd (isFlat_of_separator hd (by decide)) (by decide) ho hmap.2

theorem parenthesized_ne_nil (t : Sql) : parenthesized t ≠ [] := by
  simp [parenthesized]

/-- An operand as it stands within an operator is an atom. -/
theorem isAtom_within (hd : d.IsCommon) (op : Operator) {n : Node} {o : Operand}
    (ho : IsOperand d n o) {ms : List Mark} (hclosed : Closed d o.text ms) :
    ∃ ms, IsAtom d n.columns (o.within op) ms := by
  have hparen : ∃ ms, IsAtom d n.columns (parenthesized o.text) ms :=
    ⟨_, isAtom_hidden (hclosed.parenthesized hd) (parenthesized_ne_nil _)⟩
  have hgrouped : ∃ ms, IsAtom d n.columns o.grouped ms := by
    rw [Operand.grouped, ho.1]
    cases hn : n.isPredicate with
    | true => exact hparen
    | false => exact isAtom_leaf hd hn ho.2
  cases op <;> first
    | exact hgrouped
    | exact hparen

/-- The operands of an operator are atoms. -/
theorem exists_atoms (hd : d.IsCommon) (op : Operator) {ns : List Node} {os : List Operand}
    (h : List.Forall₂ (fun n o => IsOperand d n o ∧ ∃ ms, Closed d o.text ms) ns os) :
    ∃ mss, List.Forall₂ (fun o ms => Closed d (o.within op) ms) os mss ∧
      (∀ ms ∈ mss, IsSolid ms) ∧
      (PlainNames d (Node.columnsAll ns) → ∀ ms ∈ mss, IsNeutral ms) := by
  induction h with
  | nil => exact ⟨[], .nil, by simp, by simp⟩
  | @cons n o ns os ho _ ih =>
    obtain ⟨hoperand, _, hclosed⟩ := ho
    obtain ⟨ms, hatom⟩ := isAtom_within hd op hoperand hclosed
    obtain ⟨mss, hmss, hsolid, hneutral⟩ := ih
    refine ⟨ms :: mss, .cons hatom.closed hmss, List.forall_mem_cons.2 ⟨hatom.isSolid, hsolid⟩,
      fun hplain => List.forall_mem_cons.2 ⟨?_, ?_⟩⟩
    · refine hatom.isNeutral (hplain.of_subset fun name hname => ?_)
      simp [Node.columnsAll, hname]
    · refine hneutral (hplain.of_subset fun name hname => ?_)
      simp [Node.columnsAll, hname]

/-- The texts of operands are those of their marks. -/
theorem map_within_eq {op : Operator} {os : List Operand} {mss : List (List Mark)}
    (h : List.Forall₂ (fun o ms => Closed d (o.within op) ms) os mss) :
    os.map (Operand.within op) = mss.map chars := by
  induction h with
  | nil => rfl
  | cons ho _ ih => rw [List.map_cons, List.map_cons, ho.chars_eq, ih]

/-- Fragments are closed. -/
theorem closed_sql (hd : d.IsCommon) (n : Node) (t : Sql) (h : sql d n = .ok t) :
    ∃ ms, Closed d t ms := by
  refine sql_induction (P := fun _ t => ∃ ms, Closed d t ms) (fun n t hn h => ?_)
    (fun op ns os htakes hos => ?_) n t h
  · obtain ⟨ms, hatom⟩ := isAtom_leaf hd hn h
    exact ⟨ms, hatom.closed⟩
  · obtain ⟨mss, hmss, -, -⟩ := exists_atoms hd op hos
    rw [hos.length_eq] at htakes
    exact ⟨_, closed_assemble hd htakes hmss⟩

/-- **The top level of the fragment of an operator.**  It consists of the marks of atoms. -/
theorem exists_topLevel (hd : d.IsCommon) {op : Operator} {ns : List Node} {os : List Operand}
    (htakes : takes op ns.length = true) (hos : List.Forall₂ (IsOperand d) ns os) :
    ∃ mss, takes op mss.length = true ∧
      List.Forall₂ (fun o ms => Closed d (o.within op) ms) os mss ∧
      Closed d (assemble op os) (topLevel op mss) ∧ (∀ ms ∈ mss, IsSolid ms) ∧
      (PlainNames d (Node.columnsAll ns) → ∀ ms ∈ mss, IsNeutral ms) := by
  obtain ⟨mss, hmss, hsolid, hneutral⟩ :=
    exists_atoms hd op (hos.imp fun n o ho => ⟨ho, closed_sql hd n _ ho.2⟩)
  rw [hos.length_eq] at htakes
  have hclosed := closed_assemble hd htakes hmss
  rw [hmss.length_eq] at htakes
  exact ⟨mss, htakes, hmss, hclosed, hsolid, hneutral⟩

/-! ### Rows of words -/

/-- The words of an operator in front of its second operand. -/
def leadWords : Operator → List Sql
  | .and => ["AND".toList]
  | .or => ["OR".toList]
  | .is => ["IS".toList]
  | .isNot => ["IS".toList, "NOT".toList]
  | .like => ["LIKE".toList]
  | .notLike => ["NOT".toList, "LIKE".toList]
  | .between => ["BETWEEN".toList]
  | .notBetween => ["NOT".toList, "BETWEEN".toList]
  | .isIn => ["IN".toList]
  | .notIn => ["NOT".toList, "IN".toList]
  | _ => []

/-- The word of an operator in front of its further operands. -/
def linkWord : Operator → Sql
  | .and | .between | .notBetween => "AND".toList
  | .or => "OR".toList
  | .like | .notLike => "ESCAPE".toList
  | _ => []

/-- The words that an operator shows over operands with given marks.  A comparison by a symbol is
one word. -/
def row (op : Operator) : List (List Mark) → List (List Mark)
  | [] => []
  | ms :: rest =>
      match op with
      | .equal | .notEqual | .less | .lessEqual | .greater | .greaterEqual =>
          [ms ++ trail (shown (spelling op).1) [] rest]
      | .not => [shown "NOT".toList, ms]
      | .isIn | .notIn => ms :: ((leadWords op).map shown ++ [topLevel.listed rest])
      | _ => ms :: ((leadWords op).map shown ++ rest.intersperse (shown (linkWord op)))

/-- Separators of words and spaces make a row. -/
theorem trail_eq_spaced {first others : List Mark} {lead : List (List Mark)} {link : List Mark}
    (hfirst : first = spaced lead ++ [space]) {rest : List (List Mark)}
    (hothers : 2 ≤ rest.length → others = spaced [link] ++ [space]) (hne : rest ≠ []) :
    trail first others rest = spaced (lead ++ rest.intersperse link) := by
  induction rest generalizing first lead with
  | nil => exact absurd rfl hne
  | cons ms rest ih =>
    cases rest with
    | nil => simp [trail, hfirst, spaced]
    | cons ms' rest =>
      have htail := ih (hothers (by simp)) (fun _ => hothers (by simp)) (List.cons_ne_nil _ _)
      rw [trail, htail, hfirst, List.intersperse_cons_cons]
      simp [spaced]

/-- **The top level of an operator is its row of words.** -/
theorem topLevel_eq_unwords {op : Operator} {mss : List (List Mark)}
    (htakes : takes op mss.length = true) : topLevel op mss = unwords (row op mss) := by
  obtain ⟨ms, rest, rfl⟩ := List.exists_cons_of_length_pos (one_le_of_takes htakes)
  have hsingle : ∀ w : List Mark, unwords [w] = w := List.append_nil
  cases op with
  | invalid => cases htakes
  | equal | notEqual | less | lessEqual | greater | greaterEqual => exact (hsingle _).symm
  | not =>
    obtain rfl : rest = [] := by simpa [takes] using htakes
    rfl
  | isIn => exact congrArg (ms ++ ·) (congrArg (shown " IN ".toList ++ ·) (List.append_nil _).symm)
  | notIn =>
    exact congrArg (ms ++ ·) (congrArg (shown " NOT IN ".toList ++ ·) (List.append_nil _).symm)
  | and | or | is | isNot | like | notLike | between | notBetween =>
    have hne : rest ≠ [] := by
      rintro rfl
      simp [takes] at htakes
    refine congrArg (ms ++ ·) (trail_eq_spaced ?_ (fun hlen => ?_) hne)
    · rfl
    -- The operators that take no third operand have no second separator.
    · first
        | rfl
        | (simp only [takes, List.length_cons, beq_iff_eq] at htakes; omega)

end Fragment

end ExternalTable
