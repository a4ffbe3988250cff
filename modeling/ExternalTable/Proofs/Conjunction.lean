import ExternalTable.Proofs.Binding
import ExternalTable.Proofs.TopLevel
import ExternalTable.Statement

/-!
# Joining filters

A condition that joins several fragments falls apart into the conjuncts of each of them, in order.

* `isConjunct_topLevel`, `exists_conjuncts`: the conjuncts of the fragment of an operator;
* `boundSql?`, `conjunctsOf?`: what a filter brings to a conjunction;
* `conjuncts_selectBound`: the main statement.
-/

namespace ExternalTable

mutual

/-- Parameters bring no columns. -/
theorem Node.columns_substitute (value? : UInt64 → Option Value) (n : Node) :
    (n.substitute value?).columns = n.columns := by
  cases n with
  | column name => rfl
  | constant v => rfl
  | placeholder type i =>
    rw [substitute]
    split <;> rfl
  | predicate op children =>
    rw [substitute, columns, columns]
    exact columnsAll_substituteAll value? children

theorem Node.columnsAll_substituteAll (value? : UInt64 → Option Value) (ns : List Node) :
    columnsAll (substituteAll value? ns) = columnsAll ns := by
  cases ns with
  | nil => rfl
  | cons n ns =>
    rw [substituteAll, columnsAll, columnsAll, columns_substitute, columnsAll_substituteAll]

end

namespace Fragment

variable {d : Dialect}

/-! ### The conjuncts of one operator -/

/-- The keywords of operators that are no connectives. -/
def keywords : List Sql :=
  ["IS".toList, "NOT".toList, "LIKE".toList, "ESCAPE".toList, "IN".toList]

theorem isNeutral_keyword {t : Sql} (ht : t ∈ keywords) : IsNeutral (shown t) := by
  have key : ∀ t ∈ keywords, (t ≠ [] ∧ ∀ c ∈ t, isWordChar c = true) ∧
      ∀ name ∈ joiningNames, t ≠ name.toList := by decide
  exact isNeutral_shown (key t ht).1 (key t ht).2

/-- The symbols of comparisons. -/
def symbols : List Sql :=
  ["=".toList, "<>".toList, "<".toList, "<=".toList, ">".toList, ">=".toList]

/-- A comparison by a symbol is one word. -/
theorem isNeutral_comparison {a b : List Mark} (ha : IsNeutral a) (hb : IsNeutral b) {symbol : Sql}
    (hsymbol : symbol ∈ symbols) : IsNeutral (a ++ trail (shown symbol) [] [b]) := by
  have key : ∀ symbol ∈ symbols, space ∉ shown symbol ∧
      ∃ c ∈ symbol, ∀ name ∈ joiningNames, (c, true) ∉ shown name.toList := by decide
  obtain ⟨hspace, c, hc, hnames⟩ := key symbol hsymbol
  rw [trail, trail, List.append_nil]
  refine isNeutral_of_mem ?_ (m := (c, true)) (by simp [shown, hc]) hnames
  simp only [List.mem_append, not_or]
  exact ⟨ha.space_notMem, hspace, hb.space_notMem⟩

/-- An operator that is no connective, over neutral words, is one conjunct. -/
theorem isConjunct_topLevel {op : Operator} {mss : List (List Mark)}
    (htakes : takes op mss.length = true) (hop : op ≠ .and ∧ op ≠ .or)
    (h : mss.Forall IsNeutral) : IsConjunct (topLevel op mss) := by
  have his : IsNeutral (shown "IS".toList) := isNeutral_keyword (by decide)
  have hnot : IsNeutral (shown "NOT".toList) := isNeutral_keyword (by decide)
  have hlike : IsNeutral (shown "LIKE".toList) := isNeutral_keyword (by decide)
  have hescape : IsNeutral (shown "ESCAPE".toList) := isNeutral_keyword (by decide)
  have hin : IsNeutral (shown "IN".toList) := isNeutral_keyword (by decide)
  have hlisted : ∀ rest, IsNeutral (topLevel.listed rest) := fun rest =>
    isNeutral_hidden (parenthesized_ne_nil _)
  have two : mss.length = 2 → ∃ a b, mss = [a, b] := List.length_eq_two.1
  have three : mss.length = 3 → ∃ a b c, mss = [a, b, c] := List.length_eq_three.1
  rw [topLevel_eq_unwords htakes]
  cases op with
  | and => exact absurd rfl hop.1
  | or => exact absurd rfl hop.2
  | invalid => cases htakes
  | equal | notEqual | less | lessEqual | greater | greaterEqual =>
    obtain ⟨a, b, rfl⟩ := two (by simpa [takes] using htakes)
    exact isConjunct_unwords (List.cons_ne_nil _ _) (isNeutral_comparison h.1 h.2 (by decide))
  | is =>
    obtain ⟨a, b, rfl⟩ := two (by simpa [takes] using htakes)
    exact isConjunct_unwords (List.cons_ne_nil _ _) ⟨h.1, his, h.2⟩
  | isNot =>
    obtain ⟨a, b, rfl⟩ := two (by simpa [takes] using htakes)
    exact isConjunct_unwords (List.cons_ne_nil _ _) ⟨h.1, his, hnot, h.2⟩
  | like =>
    rcases (show mss.length = 2 ∨ mss.length = 3 by simpa [takes] using htakes) with hlen | hlen
    · obtain ⟨a, b, rfl⟩ := two hlen
      exact isConjunct_unwords (List.cons_ne_nil _ _) ⟨h.1, hlike, h.2⟩
    · obtain ⟨a, b, c, rfl⟩ := three hlen
      exact isConjunct_unwords (List.cons_ne_nil _ _) ⟨h.1, hlike, h.2.1, hescape, h.2.2⟩
  | notLike =>
    rcases (show mss.length = 2 ∨ mss.length = 3 by simpa [takes] using htakes) with hlen | hlen
    · obtain ⟨a, b, rfl⟩ := two hlen
      exact isConjunct_unwords (List.cons_ne_nil _ _) ⟨h.1, hnot, hlike, h.2⟩
    · obtain ⟨a, b, c, rfl⟩ := three hlen
      exact isConjunct_unwords (List.cons_ne_nil _ _) ⟨h.1, hnot, hlike, h.2.1, hescape, h.2.2⟩
  | not =>
    obtain ⟨a, rfl⟩ := List.length_eq_one_iff.1 (show mss.length = 1 by simpa [takes] using htakes)
    exact isConjunct_unwords (List.cons_ne_nil _ _) ⟨hnot, h⟩
  | isIn =>
    obtain ⟨a, rest, rfl⟩ := List.exists_cons_of_length_pos (one_le_of_takes htakes)
    have ha : IsNeutral a := ((List.forall_cons _ _ _).1 h).1
    exact isConjunct_unwords (List.cons_ne_nil _ _) ⟨ha, hin, hlisted rest⟩
  | notIn =>
    obtain ⟨a, rest, rfl⟩ := List.exists_cons_of_length_pos (one_le_of_takes htakes)
    have ha : IsNeutral a := ((List.forall_cons _ _ _).1 h).1
    exact isConjunct_unwords (List.cons_ne_nil _ _) ⟨ha, hnot, hin, hlisted rest⟩
  | between =>
    obtain ⟨a, b, c, rfl⟩ := three (by simpa [takes] using htakes)
    exact isConjunct_between [] h.1 trivial h.2.1 h.2.2
  | notBetween =>
    obtain ⟨a, b, c, rfl⟩ := three (by simpa [takes] using htakes)
    exact isConjunct_between [shown "NOT".toList] h.1 hnot h.2.1 h.2.2

theorem exposes_append_left {words : Sql} (ls : List Mark) {ms : List Mark}
    (h : exposes words ms = true) : exposes words (ls ++ ms) = true := by
  induction ls with
  | nil => exact h
  | cons l ls ih => rw [List.cons_append, exposes, ih, Bool.or_true]

/-- A disjunction shows its `OR`. -/
theorem exposes_topLevel_or (a b : List Mark) (rest : List (List Mark)) :
    exposes orConnective (topLevel .or (a :: b :: rest)) = true := by
  have hor : ∀ ms, exposes orConnective (shown orConnective ++ ms) = true := by
    intro ms
    have hbegins : begins orConnective (shown orConnective ++ ms) = true :=
      List.isPrefixOf_iff_prefix.2 (List.prefix_append _ _)
    rw [show shown orConnective ++ ms = space :: (shown "OR ".toList ++ ms) from rfl] at hbegins ⊢
    rw [exposes, hbegins, Bool.true_or]
  have htop : topLevel .or (a :: b :: rest) =
      a ++ (shown orConnective ++ (b ++ trail (shown orConnective) (shown orConnective) rest)) := by
    rw [← List.append_assoc (shown orConnective)]
    rfl
  rw [htop]
  exact exposes_append_left a (hor _)

/-- The conjuncts of an operator over operands with given texts. -/
def pieces (op : Operator) (os : List Operand) : List Sql :=
  match op with
  | .and => os.map fun o => parenthesized o.text
  | .or => [parenthesized (assemble .or os)]
  | op => [assemble op os]

/-- What an operator brings to a conjunction falls apart into its conjuncts. -/
theorem exists_conjuncts (hd : d.IsCommon) {op : Operator} {ns : List Node} {os : List Operand}
    (htakes : takes op ns.length = true) (hos : List.Forall₂ (IsOperand d) ns os)
    (hplain : PlainNames d (Node.columnsAll ns)) :
    ∃ gs, gs ≠ [] ∧ (∀ g ∈ gs, IsConjunct g) ∧
      Closed d (conjunct d (assemble op os)) ((shown andConnective).intercalate gs) ∧
      gs.map chars = pieces op os := by
  obtain ⟨mss, htakes, hmss, hclosed, -, hneutral⟩ := exists_topLevel hd htakes hos
  have hneutral := hneutral hplain
  -- Marks that consist of conjuncts show no `OR`, so that the fragment stays as it is.
  have hjoined : ∀ gs, gs ≠ [] → (∀ g ∈ gs, IsConjunct g) →
      topLevel op mss = (shown andConnective).intercalate gs →
      Closed d (conjunct d (assemble op os)) ((shown andConnective).intercalate gs) := by
    intro gs hne hgs htop
    rw [conjunct, hasTopLevelOr_eq hd hclosed, htop, exposes_intercalate hne hgs,
      if_neg Bool.false_ne_true, ← htop]
    exact hclosed
  by_cases hand : op = .and
  · subst hand
    have hne : mss ≠ [] := by
      rintro rfl
      exact absurd (one_le_of_takes htakes) (by decide)
    have hconjunct : ∀ ms ∈ mss, IsConjunct ms := fun ms hms => isConjunct_word (hneutral ms hms)
    refine ⟨mss, hne, hconjunct, hjoined mss hne hconjunct ?_, ?_⟩
    · obtain ⟨ms, mss, rfl⟩ := List.exists_cons_of_ne_nil hne
      rw [intercalate_eq_trail]
      rfl
    · exact (map_within_eq hmss).symm
  · by_cases hor : op = .or
    · subst hor
      have hexposes : exposes orConnective (topLevel .or mss) = true := by
        obtain ⟨m, mss, rfl⟩ := List.exists_cons_of_length_pos (one_le_of_takes htakes)
        obtain ⟨m', mss, rfl⟩ := List.exists_cons_of_ne_nil (l := mss) <| by
          rintro rfl
          exact absurd htakes (by simp [takes])
        exact exposes_topLevel_or m m' mss
      -- It is put in parentheses, and shows nothing any more.
      refine ⟨[hidden (parenthesized (assemble .or os))], List.cons_ne_nil _ _, ?_, ?_, ?_⟩
      · exact List.forall_mem_singleton.2
          (isConjunct_word (isNeutral_hidden (parenthesized_ne_nil _)))
      · rw [conjunct, hasTopLevelOr_eq hd hclosed, hexposes, if_pos rfl, List.intercalate_singleton]
        exact hclosed.parenthesized hd
      · rw [List.map_singleton, chars_hidden]
        rfl
    · have hconjunct : ∀ g ∈ [topLevel op mss], IsConjunct g := List.forall_mem_singleton.2 <|
        isConjunct_topLevel htakes ⟨hand, hor⟩ (List.forall_iff_forall_mem.2 hneutral)
      refine ⟨[topLevel op mss], List.cons_ne_nil _ _, hconjunct, ?_, ?_⟩
      · exact hjoined _ (List.cons_ne_nil _ _) hconjunct List.intercalate_singleton.symm
      · rw [List.map_singleton, hclosed.chars_eq]
        cases op <;> first
          | rfl
          | exact absurd rfl hand
          | exact absurd rfl hor

/-! ### Bound fragments -/

/-- The fragment of a tree with the parameters in it. -/
def boundSql? (d : Dialect) (params : List Value) (n : Node) : Option Sql :=
  (sql d n).toOption.bind fun text => (bind d params text).toOption

/-- What a filter brings to a conjunction: the children of an `AND`, each in parentheses, a whole
`OR` in parentheses, and any other filter as it is. -/
def conjunctsOf? (d : Dialect) (params : List Value) (f : Filter) : Option (List Sql) :=
  match f.operator with
  | .and => (f.children.mapM (boundSql? d params)).map (List.map parenthesized)
  | .or => (boundSql? d params f.root).map fun text => [parenthesized text]
  | _ => (boundSql? d params f.root).map fun text => [text]

variable {params : List Value}

theorem boundSql?_eq_some {n : Node} {text bound : Sql} (h : sql d n = .ok text)
    (hbind : bind d params text = .ok bound) : boundSql? d params n = some bound := by
  rw [boundSql?, h]
  change (bind d params text).toOption = some bound
  rw [hbind]
  rfl

/-- A tree whose parameters are all supplied has a bound fragment. -/
theorem exists_boundSql? (hd : d.IsCommon) {n : Node} {text : Sql} (h : sql d n = .ok text)
    (hs : ∀ i ∈ n.placeholders, Supplied d params i) :
    ∃ bound, boundSql? d params n = some bound ∧
      sql d (n.substitute (suppliedValue? d params)) = .ok bound := by
  obtain ⟨bound, hsql, hbind⟩ := bind_sql params hd h
  rw [supply_eq_ok_iff.2 hs] at hbind
  exact ⟨bound, boundSql?_eq_some h hbind, hsql⟩

/-- The same for several trees. -/
theorem exists_bound_operands (hd : d.IsCommon) {ns : List Node} {os : List Operand}
    (h : List.Forall₂ (IsOperand d) ns os)
    (hs : ∀ i ∈ Node.placeholdersAll ns, Supplied d params i) :
    ∃ os', List.Forall₂ (IsOperand d) (Node.substituteAll (suppliedValue? d params) ns) os' ∧
      ns.mapM (boundSql? d params) = some (os'.map Operand.text) := by
  induction h with
  | nil => exact ⟨[], .nil, rfl⟩
  | @cons n o ns os ho _ ih =>
    obtain ⟨bound, hbound, hsql⟩ := exists_boundSql? hd ho.2 fun i hi => hs i <| by
      simp [Node.placeholdersAll, hi]
    obtain ⟨os', hos', hmap⟩ := ih fun i hi => hs i <| by simp [Node.placeholdersAll, hi]
    refine ⟨⟨n.isPredicate, bound⟩ :: os', .cons ⟨?_, hsql⟩ hos', ?_⟩
    · exact (Node.isPredicate_substitute n).symm
    · rw [List.mapM_cons, hbound, hmap]
      rfl

/-- The text of an operator is not blank. -/
theorem isBlank_assemble {op : Operator} {os : List Operand} (htakes : takes op os.length = true) :
    isBlank (assemble op os) = false := by
  have key : op ≠ .invalid → ∃ c ∈ opening op ++ (spelling op).1, isBlankChar c = false := by
    cases op <;> decide
  have hop : op ≠ .invalid := by
    rintro rfl
    exact absurd htakes (by simp [takes])
  obtain ⟨c, hc, hblank⟩ := key hop
  refine List.all_eq_false.2 ⟨c, ?_, by rw [hblank]; exact Bool.false_ne_true⟩
  obtain ⟨o, os, rfl⟩ := List.exists_cons_of_length_pos (one_le_of_takes htakes)
  rw [assemble_cons]
  rcases List.mem_append.1 hc with hc | hc
  · simp [hc]
  · cases os with
    | nil =>
      -- With a single operand the operator is `NOT`, which has no separator.
      have hnot : op = .not := by cases op <;> simp_all [takes]
      rw [hnot] at hc
      exact absurd hc List.not_mem_nil
    | cons o' os => simp [trail, hc]

/-- What a bound fragment brings to a conjunction falls apart into the conjuncts of its filter. -/
theorem exists_conjunctsOf? (hd : d.IsCommon) {f : Filter} {text bound : Sql}
    (h : pushdown d f = .accepted text) (hbind : bind d params text = .ok bound)
    (hplain : PlainNames d f.root.columns) :
    isBlank bound = false ∧ ∃ gs, gs ≠ [] ∧ (∀ g ∈ gs, IsConjunct g) ∧
      Closed d (conjunct d bound) ((shown andConnective).intercalate gs) ∧
      conjunctsOf? d params f = some (gs.map chars) := by
  have hsql := pushdown_eq_accepted_iff.1 h
  have hsupplied : ∀ i ∈ f.root.placeholders, Supplied d params i := by
    obtain ⟨_, -, hbind'⟩ := bind_sql params hd hsql
    rw [← supply_eq_ok_iff]
    rw [hbind] at hbind'
    cases hs : supply d params f.root.placeholders with
    | ok u => rfl
    | error e =>
      rw [hs] at hbind'
      cases hbind'
  have hroot := boundSql?_eq_some hsql hbind
  obtain ⟨htakes, os, hos, -⟩ := sql_predicate_iff.1 hsql
  obtain ⟨os', hos', hmap⟩ := exists_bound_operands hd hos hsupplied
  rw [← Node.length_substituteAll f.children] at htakes
  have hbound : bound = assemble f.operator os' := by
    obtain ⟨bound', hbound', hsql'⟩ := exists_boundSql? hd hsql hsupplied
    rw [hroot] at hbound'
    cases hbound'
    rw [Filter.root, Node.substitute,
      sql_predicate_iff.2 ⟨htakes, os', hos', rfl⟩] at hsql'
    exact (Except.ok.inj hsql').symm
  have hplain' : PlainNames d
      (Node.columnsAll (Node.substituteAll (suppliedValue? d params) f.children)) := by
    rw [Node.columnsAll_substituteAll]
    exact hplain
  obtain ⟨gs, hne, hgs, hclosed, hchars⟩ := exists_conjuncts hd htakes hos' hplain'
  refine ⟨?_, gs, hne, hgs, ?_, ?_⟩
  · rw [hbound]
    exact isBlank_assemble (by rwa [← hos'.length_eq])
  · rwa [hbound]
  · rw [hchars, conjunctsOf?, hroot, hmap, hbound]
    cases f.operator <;> first
      | rfl
      | simp [pieces]

/-- What is joined to the condition for several bound filters. -/
theorem exists_conjunction (hd : d.IsCommon) {fs : List Filter} {texts : List Sql}
    (hfs : fs.map (pushdown d) = texts.map Pushdown.accepted)
    (hbind : ∀ text ∈ texts, ∃ bound, bind d params text = .ok bound)
    (hplain : ∀ f ∈ fs, PlainNames d f.root.columns) (position : Nat) :
    ∃ (bounds : List Sql) (gss : List (List (List Mark))),
      bindAll d params position texts = .ok bounds ∧ bounds.length = fs.length ∧
      (∀ bound ∈ bounds, isBlank bound = false) ∧
      List.Forall₂ (Closed d) (bounds.map (conjunct d))
        (gss.map (shown andConnective).intercalate) ∧
      (∀ gs ∈ gss, gs ≠ [] ∧ ∀ g ∈ gs, IsConjunct g) ∧
      fs.mapM (conjunctsOf? d params) = some (gss.map (List.map chars)) := by
  induction fs generalizing texts position with
  | nil =>
    cases texts with
    | nil => exact ⟨[], [], rfl, rfl, by simp, .nil, by simp, rfl⟩
    | cons text texts => cases hfs
  | cons f fs ih =>
    cases texts with
    | nil => cases hfs
    | cons text texts =>
      obtain ⟨hf, hfs⟩ := List.cons.inj hfs
      obtain ⟨bound, hbound⟩ := hbind text (by simp)
      obtain ⟨hblank, gs, hne, hgs, hclosed, hpieces⟩ :=
        exists_conjunctsOf? hd hf hbound (hplain f (by simp))
      obtain ⟨bounds, gss, hall, hlen, hblanks, hcloseds, hgss, hmap⟩ := ih hfs
        (fun t ht => hbind t (List.mem_cons_of_mem _ ht))
        (fun g hg => hplain g (List.mem_cons_of_mem _ hg)) (position + 1)
      refine ⟨bound :: bounds, gs :: gss, ?_, ?_, ?_, ?_, ?_, ?_⟩
      · rw [bindAll, hbound, hall]
        rfl
      · rw [List.length_cons, List.length_cons, hlen]
      · exact List.forall_mem_cons.2 ⟨hblank, hblanks⟩
      · exact .cons hclosed hcloseds
      · exact List.forall_mem_cons.2 ⟨⟨hne, hgs⟩, hgss⟩
      · rw [List.mapM_cons, hpieces, hmap]
        rfl

theorem intercalate_append {α : Type} (separator : List α) {gs hs : List (List α)} (hgs : gs ≠ [])
    (hhs : hs ≠ []) :
    separator.intercalate (gs ++ hs) =
      separator.intercalate gs ++ separator ++ separator.intercalate hs := by
  induction gs with
  | nil => exact absurd rfl hgs
  | cons g gs ih =>
    cases gs with
    | nil =>
      rw [List.singleton_append, List.intercalate_cons_of_ne_nil hhs, List.intercalate_singleton]
    | cons g' gs =>
      rw [List.cons_append, List.cons_append, List.intercalate_cons_cons,
        List.intercalate_cons_cons, ← List.cons_append, ih (List.cons_ne_nil _ _)]
      simp only [List.append_assoc]

/-- Groups joined one after the other are joined all at once. -/
theorem intercalate_flatten {α : Type} (separator : List α) {gss : List (List (List α))}
    (hne : ∀ gs ∈ gss, gs ≠ []) :
    separator.intercalate (gss.map separator.intercalate) = separator.intercalate gss.flatten := by
  induction gss with
  | nil => rfl
  | cons gs gss ih =>
    obtain ⟨hgs, hgss⟩ := List.forall_mem_cons.1 hne
    cases gss with
    | nil => rw [List.map_singleton, List.intercalate_singleton, List.flatten_singleton]
    | cons gs' gss =>
      have hflatten : (gs' :: gss).flatten ≠ [] := by
        rw [List.flatten_cons]
        exact List.append_ne_nil_of_left_ne_nil (hgss gs' (by simp)) _
      rw [List.flatten_cons, intercalate_append separator hgs hflatten, ← ih hgss, List.map_cons,
        List.intercalate_cons_of_ne_nil (by simp)]

/-- **Joining filters keeps their conjuncts.**  The condition over several bound filters shows no
`OR` at its top level, and its conjuncts are those of the filters, one filter after the other: none
is torn apart, lost, repeated or moved. -/
theorem conjuncts_selectBound (hd : d.IsCommon) {fs : List Filter} {texts : List Sql}
    (hlen : 2 ≤ fs.length) (hfs : fs.map (pushdown d) = texts.map Pushdown.accepted)
    (hbind : ∀ text ∈ texts, ∃ bound, bind d params text = .ok bound)
    (hplain : ∀ f ∈ fs, PlainNames d f.root.columns) {table : String} (htable : table ≠ "")
    (columns : List String) :
    ∃ clause, selectBound d table columns texts params =
        .ok ("SELECT ".toList ++ projection d columns ++ " FROM ".toList ++ d.identifier table ++
          (" WHERE ".toList ++ clause)) ∧
      exposes orConnective (exposure d .outside 0 0 clause) = false ∧
      (fs.mapM (conjunctsOf? d params)).map List.flatten = some (conjuncts d clause) := by
  obtain ⟨bounds, gss, hall, hlength, hblank, hclosed, hgss, hmap⟩ :=
    exists_conjunction hd hfs hbind hplain 0
  have hkept : bounds.filter (fun text => !isBlank text) = bounds :=
    List.filter_eq_self.2 fun bound hbound => by rw [hblank bound hbound]; rfl
  have hjoined : conjunction d bounds = andConnective.intercalate (bounds.map (conjunct d)) := by
    match bounds, hlength with
    | [], h => simp at h; omega
    | [_], h => simp at h; omega
    | _ :: _ :: _, _ => rfl
  have hne : ∀ gs ∈ gss, gs ≠ [] := fun gs hgs => (hgss gs hgs).1
  have hflat : ∀ c ∈ andConnective, IsFlat d c := isFlat_of_separator hd (by decide)
  -- The marks of the whole condition are its conjuncts with the connective between them.
  have hmarks := closed_intercalate hd.hasAsciiQuote andConnective hflat (by decide) hclosed
  rw [intercalate_flatten _ hne, ← hjoined] at hmarks
  have hconjunct : ∀ g ∈ gss.flatten, IsConjunct g := by
    intro g hg
    obtain ⟨gs, hgs, hg⟩ := List.mem_flatten.1 hg
    exact (hgss gs hgs).2 g hg
  have hbounds : bounds ≠ [] := by
    rintro rfl
    rw [← hlength] at hlen
    exact absurd hlen (by decide)
  have hflatten : gss.flatten ≠ [] := by
    intro h
    have hall : ∀ gs ∈ gss, gs = [] := List.flatten_eq_nil_iff.1 h
    cases gss with
    | nil => exact hbounds (by simpa using hclosed.length_eq)
    | cons gs gss => exact hne gs (by simp) (hall gs (by simp))
  refine ⟨conjunction d bounds, ?_, ?_, ?_⟩
  · rw [selectBound, hall]
    change select d table columns bounds = _
    rw [select, if_neg htable, condition, hkept]
    simp only [List.isEmpty_iff, if_neg hbounds]
  · rw [hmarks.exposure_eq, exposes_intercalate hflatten hconjunct]
  · rw [hmap, conjuncts, hmarks.exposure_eq, cut_intercalate hflatten hconjunct, Option.map_some,
      List.map_flatten]

/-- A column may be called `AND` where names are quoted, and texts may hold connectives. -/
theorem conjuncts_selectBound_quoted :
    let params : List Value := [.int 5, .text "' AND '"]
    let fs : List Filter := [
      ⟨.and, [.predicate .equal [.column "a", .placeholder .int32 0],
        .predicate .between [.column "b", .constant (.int 1), .constant (.int 2)]]⟩,
      ⟨.or, [.predicate .equal [.column "c", .placeholder .utf8 1],
        .predicate .is [.column "d", .constant .null]]⟩,
      ⟨.between, [.column "AND", .constant (.int 1), .placeholder .int32 0]⟩]
    let texts : List Sql := [
      "(\x60a\x60=\x7b0\x7d) AND (\x60b\x60 BETWEEN 1 AND 2)".toList,
      "(\x60c\x60=\x7b1\x7d) OR (\x60d\x60 IS NULL)".toList,
      "\x60AND\x60 BETWEEN 1 AND \x7b0\x7d".toList]
    fs.map (pushdown .mysql) = texts.map Pushdown.accepted ∧
      ∃ clause, selectBound .mysql "t" [] texts params =
          .ok ("SELECT 1 FROM \x60t\x60 WHERE ".toList ++ clause) ∧
        conjuncts .mysql clause = [
          "(\x60a\x60=5)".toList,
          "(\x60b\x60 BETWEEN 1 AND 2)".toList,
          "((\x60c\x60=''' AND ''') OR (\x60d\x60 IS NULL))".toList,
          "\x60AND\x60 BETWEEN 1 AND 5".toList] := by
  intro params fs texts
  have hd : Dialect.mysql.IsCommon := .inr (.inl rfl)
  have hfs : fs.map (pushdown .mysql) = texts.map Pushdown.accepted := rfl
  have hbind : ∀ text ∈ texts, ∃ bound, bind .mysql params text = .ok bound :=
    List.forall_mem_cons.2 ⟨⟨_, rfl⟩, List.forall_mem_cons.2
      ⟨⟨_, rfl⟩, List.forall_mem_singleton.2 ⟨_, rfl⟩⟩⟩
  obtain ⟨clause, hclause, -, hpieces⟩ := conjuncts_selectBound hd (by decide) hfs hbind
    (fun _ _ h => absurd h (by decide)) (show "t" ≠ "" by decide) []
  refine ⟨hfs, clause, ?_, ?_⟩
  · rw [hclause]
    rfl
  · exact (Option.some.inj hpieces).symm

end Fragment

end ExternalTable
