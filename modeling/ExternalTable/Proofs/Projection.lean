import ExternalTable.Proofs.Obstruction
import ExternalTable.Proofs.Quotation
import ExternalTable.Proofs.Readability

/-!
# Statements taken apart

Names of tables and columns are arbitrary text, and a statement holds them one after the other.
Where identifiers are quoted, no name can pass for more than one, for a keyword or for the constant
projection: the text of a statement determines the table, the columns and the clause of conditions.

* `clause?`: what a statement says behind `WHERE`;
* `identifier_append_inj`: a quoted name is told apart from what follows it;
* `projection_append_inj`: so is a list of columns;
* `parts_of_select_eq`: the main statement.
-/

namespace ExternalTable

open Fragment

/-! ### Clauses -/

/-- What a statement says behind `WHERE`, if it says so at all. -/
def clause? (d : Dialect) (fragments : List Sql) : Option Sql :=
  if kept fragments = [] then none else some (conjunction d (kept fragments))

theorem condition_eq_clause (d : Dialect) (fragments : List Sql) :
    condition d fragments =
      match clause? d fragments with
      | none => []
      | some clause => " WHERE ".toList ++ clause := by
  change (if (kept fragments).isEmpty = true then _ else _ ++ conjunction d (kept fragments)) = _
  simp only [clause?, List.isEmpty_iff]
  split <;> rfl

/-- The clause can be read from the condition. -/
theorem clause?_of_condition_eq {d : Dialect} {fragments fragments' : List Sql}
    (h : condition d fragments = condition d fragments') :
    clause? d fragments = clause? d fragments' := by
  rw [condition_eq_clause, condition_eq_clause] at h
  cases hclause : clause? d fragments with
  | none =>
    cases hclause' : clause? d fragments' with
    | none => rfl
    | some clause' => simp [hclause, hclause'] at h
  | some clause =>
    cases hclause' : clause? d fragments' with
    | none => simp [hclause, hclause'] at h
    | some clause' =>
      rw [hclause, hclause'] at h
      rw [List.append_cancel_left h]

/-! ### Names -/

/-- The identifier quote of a dialect, which neither separates names in a statement nor begins the
constant projection. -/
structure Dialect.Quotes (d : Dialect) (q : Char) : Prop where
  quote : d.identifierQuote = some q
  toNat_lt : q.toNat < 128
  notMem : q ∉ ['\'', ',', ' ', '1']

theorem Dialect.IsQuoted.exists_quotes {d : Dialect} (hq : d.IsQuoted) : ∃ q, d.Quotes q := by
  rcases hq with hq | hq
  · exact ⟨_, hq, by decide, by decide⟩
  · exact ⟨_, hq, by decide, by decide⟩

variable {d : Dialect} {q : Char}

theorem Dialect.Quotes.ne (hq : d.Quotes q) {c : Char} (hc : c ∈ ['\'', ',', ' ', '1']) :
    c ≠ q := by
  rintro rfl
  exact hq.notMem hc

theorem exists_identifier_eq_cons (hq : d.Quotes q) (name : String) :
    ∃ rest, d.identifier name = q :: rest := by
  rw [Dialect.identifier, hq.quote]
  exact ⟨_, rfl⟩

/-- A quoted name is told apart from what follows it. -/
theorem identifier_append_inj (hq : d.Quotes q) {name name' : String} {s s' : Sql}
    (hs : s.head? ≠ some q) (hs' : s'.head? ≠ some q)
    (h : d.identifier name ++ s = d.identifier name' ++ s') : name = name' ∧ s = s' := by
  have hne : q ≠ '\'' := (hq.ne (by decide)).symm
  have hread := (isQuotation_identifier hq.quote hq.toNat_lt hne name).unquote s hs
  rw [h, (isQuotation_identifier hq.quote hq.toNat_lt hne name').unquote s' hs'] at hread
  obtain ⟨hname, hrest⟩ := Prod.mk.inj (Option.some.inj hread)
  exact ⟨(String.toList_inj.1 hname).symm, hrest.symm⟩

/-- No name is prolonged by the separators of a statement. -/
theorem head?_trail_ne (hq : d.Quotes q) (names : List String) (r : Sql) :
    (trail [','] [','] (names.map d.identifier) ++ ' ' :: r).head? ≠ some q := by
  intro heq
  cases names with
  | nil => exact hq.ne (c := ' ') (by decide) (Option.some.inj heq)
  | cons name names => exact hq.ne (c := ',') (by decide) (Option.some.inj heq)

/-- Names with a comma in front of each are told apart up to the first space behind them. -/
theorem trail_identifiers_inj (hq : d.Quotes q) {names names' : List String} {r r' : Sql}
    (h : trail [','] [','] (names.map d.identifier) ++ ' ' :: r =
      trail [','] [','] (names'.map d.identifier) ++ ' ' :: r') :
    names = names' ∧ r = r' := by
  induction names generalizing names' with
  | nil =>
    cases names' with
    | nil => exact ⟨rfl, (List.cons.inj h).2⟩
    | cons name' names' => cases (List.cons.inj h).1
  | cons name names ih =>
    cases names' with
    | nil => cases (List.cons.inj h).1
    | cons name' names' =>
      simp only [List.map_cons, trail, List.append_assoc] at h
      obtain ⟨rfl, hrest⟩ := identifier_append_inj hq (head?_trail_ne hq names r)
        (head?_trail_ne hq names' r') (List.append_cancel_left h)
      obtain ⟨rfl, rfl⟩ := ih hrest
      exact ⟨rfl, rfl⟩

theorem projection_cons (d : Dialect) (column : String) (columns : List String) :
    projection d (column :: columns) =
      d.identifier column ++ trail [','] [','] (columns.map d.identifier) := by
  rw [projection, List.map_cons, intercalate_eq_trail]
  rfl

/-- The constant projection is no list of columns. -/
theorem projection_nil_append_ne (hq : d.Quotes q) (column : String) (columns : List String)
    (s s' : Sql) : projection d [] ++ s ≠ projection d (column :: columns) ++ s' := by
  obtain ⟨rest, hrest⟩ := exists_identifier_eq_cons hq column
  rw [projection_cons, hrest]
  intro h
  exact hq.ne (c := '1') (by decide) (List.cons.inj h).1

/-- A projection is told apart from what follows it. -/
theorem projection_append_inj (hq : d.Quotes q) {columns columns' : List String} {r r' : Sql}
    (h : projection d columns ++ ' ' :: r = projection d columns' ++ ' ' :: r') :
    columns = columns' ∧ r = r' := by
  cases columns with
  | nil =>
    cases columns' with
    | nil => exact ⟨rfl, (List.cons.inj (List.append_cancel_left h)).2⟩
    | cons column' columns' => exact absurd h (projection_nil_append_ne hq _ _ _ _)
  | cons column columns =>
    cases columns' with
    | nil => exact absurd h.symm (projection_nil_append_ne hq _ _ _ _)
    | cons column' columns' =>
      rw [projection_cons, projection_cons, List.append_assoc, List.append_assoc] at h
      obtain ⟨rfl, hrest⟩ := identifier_append_inj hq (head?_trail_ne hq columns r)
        (head?_trail_ne hq columns' r') h
      obtain ⟨rfl, rfl⟩ := trail_identifiers_inj hq hrest
      exact ⟨rfl, rfl⟩

/-! ### Statements -/

theorem select_eq_ok_iff {table : String} {columns : List String} {fragments : List Sql}
    {statement : Sql} :
    select d table columns fragments = .ok statement ↔ table ≠ "" ∧
      "SELECT ".toList ++ (projection d columns ++
        " FROM ".toList ++ (d.identifier table ++ condition d fragments)) = statement := by
  rw [select]
  split_ifs with htable
  · simp [htable]
  · simp [htable]

/-- **A quoted statement determines its parts.**  Where identifiers are quoted with a backtick or a
double quote, statements with the same text are over the same table and the same columns in the same
order, and they say the same behind `WHERE`, or both nothing. -/
theorem parts_of_select_eq (hd : d.IsQuoted) {table table' : String}
    {columns columns' : List String} {fragments fragments' : List Sql} {statement : Sql}
    (h : select d table columns fragments = .ok statement)
    (h' : select d table' columns' fragments' = .ok statement) :
    table = table' ∧ columns = columns' ∧ clause? d fragments = clause? d fragments' := by
  obtain ⟨q, hq⟩ := hd.exists_quotes
  have hcondition : ∀ fragments, (condition d fragments).head? ≠ some q := by
    intro fragments
    rw [condition_eq_clause]
    cases clause? d fragments with
    | none => simp
    | some clause => exact fun heq => hq.ne (c := ' ') (by decide) (Option.some.inj heq)
  obtain ⟨-, htext⟩ := select_eq_ok_iff.1 h
  obtain ⟨-, htext'⟩ := select_eq_ok_iff.1 h'
  have hprojection := List.append_cancel_left (htext.trans htext'.symm)
  rw [List.append_assoc, List.append_assoc] at hprojection
  obtain ⟨rfl, hfrom⟩ := projection_append_inj hq hprojection
  obtain ⟨rfl, hrest⟩ := identifier_append_inj hq (hcondition fragments) (hcondition fragments')
    (@List.append_cancel_left _ "FROM ".toList _ _ hfrom)
  exact ⟨rfl, rfl, clause?_of_condition_eq hrest⟩

/-- Two conjuncts and one that holds both make the same statement, and so the same clause.  The
names hold quotes, commas and keywords. -/
theorem parts_of_select_eq_joined :
    let table := "t\x60 WHERE"
    let columns := ["a\x60,\x60b", "1 FROM"]
    let statement := "SELECT \x60a\x60\x60,\x60\x60b\x60,\x601 FROM\x60" ++
      " FROM \x60t\x60\x60 WHERE\x60 WHERE x=1 AND y=2"
    Dialect.mysql.IsQuoted ∧
      select .mysql table columns ["x=1".toList, " ".toList, "y=2".toList] = .ok statement.toList ∧
      select .mysql table columns ["x=1 AND y=2".toList] = .ok statement.toList ∧
      clause? .mysql ["x=1".toList, " ".toList, "y=2".toList] =
        clause? .mysql ["x=1 AND y=2".toList] := by
  intro table columns statement
  have h : select .mysql table columns ["x=1".toList, " ".toList, "y=2".toList] =
      .ok statement.toList := by decide +kernel
  have h' : select .mysql table columns ["x=1 AND y=2".toList] = .ok statement.toList := by
    decide +kernel
  obtain ⟨-, -, hclause⟩ := parts_of_select_eq (.inl rfl) h h'
  exact ⟨.inl rfl, h, h', hclause⟩

end ExternalTable
