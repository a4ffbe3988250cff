import Mathlib.Data.List.Forall2
import Mathlib.Tactic.Common
import ExternalTable.Fragment.Pushdown
import ExternalTable.Proofs.Numeral
import ExternalTable.Proofs.Section

/-!
# The spelling of trees

The fragment of a tree, taken apart.  A leaf is a word (a bare name, a keyword or a number), one
quoted section, or a marker.  The text of an operator consists of its operands with a separator in
front of each but the first.

* `Dialect.IsCommon`: the dialects whose quotes do not occur in words and separators;
* `isWordChar`, `isSeparatorChar`: the characters of words and of separators;
* `literal_cases`, `leaf_cases`: the kinds of literals and of leaves;
* `trail`, `assemble_cons`: operands and separators one after the other;
* `sql_predicate_iff`, `sql_induction`: how the fragment of an operator arises from those of its
  children.
-/

namespace ExternalTable

/-- The dialects in use: identifiers are not quoted, or quoted with a backtick or a double quote. -/
def Dialect.IsCommon (d : Dialect) : Prop :=
  d.identifierQuote = none ∨ d.identifierQuote = some '\x60' ∨ d.identifierQuote = some '\x22'

theorem Dialect.IsCommon.hasAsciiQuote {d : Dialect} (hd : d.IsCommon) : d.HasAsciiQuote := by
  intro q hq
  rcases hd with h | h | h <;> rw [h] at hq
  · exact absurd hq (by simp)
  · cases hq
    exact ⟨by decide, by decide⟩
  · cases hq
    exact ⟨by decide, by decide⟩

/-- The quotes of a common dialect. -/
theorem Dialect.IsCommon.isQuote_eq_false {d : Dialect} (hd : d.IsCommon) {c : Char}
    (hc : c ∉ ['\'', '\x60', '\x22']) : d.isQuote c = false := by
  simp only [List.mem_cons, List.not_mem_nil, or_false, not_or] at hc
  obtain ⟨hsingle, hback, hdouble⟩ := hc
  rw [Dialect.isQuote, Bool.or_eq_false_iff, beq_eq_false_iff_ne, beq_eq_false_iff_ne]
  refine ⟨hsingle, ?_⟩
  rcases hd with h | h | h <;> rw [h]
  · exact Option.some_ne_none c |>.symm
  · exact fun h => hback (Option.some.inj h).symm
  · exact fun h => hdouble (Option.some.inj h).symm

namespace Fragment

/-! ### Characters -/

/-- What is said of the characters of a text is decided one character of the text after the other,
even where all characters are known to be finitely many. -/
instance decidableForallMem (t : Sql) (p : Char → Prop) [DecidablePred p] :
    Decidable (∀ c ∈ t, p c) :=
  List.decidableBAll p t

instance decidableExistsMem (t : Sql) (p : Char → Prop) [DecidablePred p] :
    Decidable (∃ c ∈ t, p c) :=
  List.decidableBEx p t

/-- Whether a character occurs in bare names, keywords and numbers. -/
def isWordChar (c : Char) : Bool :=
  Dialect.isBareChar c || c == '-'

/-- Whether a character occurs between operands. -/
def isSeparatorChar (c : Char) : Bool :=
  c.isUpper || [' ', '(', ')', ',', '=', '<', '>'].contains c

theorem isQuote_of_isWordChar {d : Dialect} (hd : d.IsCommon) {c : Char}
    (hc : isWordChar c = true) : d.isQuote c = false := by
  refine hd.isQuote_eq_false fun h => ?_
  simp only [List.mem_cons, List.not_mem_nil, or_false] at h
  rcases h with rfl | rfl | rfl <;> exact absurd hc (by decide)

theorem isQuote_of_isSeparatorChar {d : Dialect} (hd : d.IsCommon) {c : Char}
    (hc : isSeparatorChar c = true) : d.isQuote c = false := by
  refine hd.isQuote_eq_false fun h => ?_
  simp only [List.mem_cons, List.not_mem_nil, or_false] at h
  rcases h with rfl | rfl | rfl <;> exact absurd hc (by decide)

/-- Whether a character occurs in numbers. -/
def isNumberChar (c : Char) : Bool :=
  c.isDigit || c == '.' || c == '-'

theorem isWordChar_of_isNumberChar {c : Char} (hc : isNumberChar c = true) :
    isWordChar c = true := by
  simp only [isNumberChar, Bool.or_eq_true, beq_iff_eq] at hc
  rcases hc with (hc | rfl) | rfl
  · simp [isWordChar, Dialect.isBareChar, Char.isAlphanum, hc]
  · decide
  · decide

/-- A text that consists of word characters. -/
def IsWord (t : Sql) : Prop :=
  t ≠ [] ∧ ∀ c ∈ t, isWordChar c = true

/-- A text that consists of the characters of numbers. -/
def IsNumber (t : Sql) : Prop :=
  t ≠ [] ∧ ∀ c ∈ t, isNumberChar c = true

/-! ### Leaves -/

theorem isNumberChar_of_isDigit {c : Char} (hc : c.isDigit = true) : isNumberChar c = true := by
  rw [isNumberChar, hc, Bool.true_or, Bool.true_or]

theorem IsNumeral.isNumber {t : Sql} (h : IsNumeral t) : IsNumber t := by
  cases h with
  | whole ht => exact ⟨ht.ne_nil, fun c hc => isNumberChar_of_isDigit (ht.digits c hc)⟩
  | point ht _ hdigits =>
    refine ⟨by simp, fun c hc => ?_⟩
    rcases List.mem_append.1 hc with h | h
    · exact isNumberChar_of_isDigit (ht.digits c h)
    · rcases List.mem_cons.1 h with rfl | h
      · decide
      · exact isNumberChar_of_isDigit (hdigits c h)

theorem isNumber_ofNat (n : Nat) : IsNumber (Digits.ofNat n) :=
  (IsNumeral.whole (isWhole_ofNat n)).isNumber

theorem isNumber_neg {t : Sql} (ht : IsNumber t) : IsNumber ('-' :: t) := by
  refine ⟨List.cons_ne_nil _ _, fun c hc => ?_⟩
  rcases List.mem_cons.1 hc with rfl | h
  · decide
  · exact ht.2 c h

/-- A literal is the quoted text of a text, a keyword, or a number. -/
theorem literal_cases {d : Dialect} {v : Value} {t : Sql} (h : v.literal d = .ok t) :
    (∃ s, v = .text s ∧ t = d.textLiteral s.toList) ∨ t ∈ keywordLiterals ∨ IsNumber t := by
  rcases literal_forms h with htext | hkeyword | ⟨u, hu, rfl | rfl⟩
  · exact .inl htext
  · exact .inr (.inl hkeyword)
  · exact .inr (.inr hu.isNumber)
  · exact .inr (.inr (isNumber_neg hu.isNumber))

/-- A literal without quotes is a word. -/
theorem isWord_of_literal {t : Sql} (h : t ∈ keywordLiterals ∨ IsNumber t) : IsWord t := by
  rcases h with h | h
  · have key : ∀ t ∈ keywordLiterals, t ≠ [] ∧ ∀ c ∈ t, isWordChar c = true := by decide
    exact key t h
  · exact ⟨h.1, fun c hc => isWordChar_of_isNumberChar (h.2 c hc)⟩

/-- A column's text is a word in a dialect without an identifier quote, otherwise one section. -/
theorem identifier_cases {d : Dialect} (hd : d.HasAsciiQuote) {name : String}
    (h : d.acceptsIdentifier name = true) :
    (d.identifierQuote = none ∧ IsWord (d.identifier name)) ∨ IsSection d (d.identifier name) := by
  cases hq : d.identifierQuote with
  | some q => exact .inr (isSection_identifier hd hq name)
  | none =>
    refine .inl ⟨rfl, ?_⟩
    simp only [Dialect.acceptsIdentifier, hq, Option.isSome_none, Bool.false_or, Bool.and_eq_true,
      List.all_eq_true] at h
    rw [Dialect.identifier, hq]
    exact ⟨by simpa using h.1, fun c hc => by simp [isWordChar, h.2 c hc]⟩

theorem sql_column_iff {d : Dialect} {name : String} {t : Sql} :
    sql d (.column name) = .ok t ↔ d.acceptsIdentifier name = true ∧ d.identifier name = t := by
  rw [sql]
  split <;> simp [*]

theorem sql_constant_iff {d : Dialect} {v : Value} {t : Sql} :
    sql d (.constant v) = .ok t ↔ v.literal d = .ok t := by
  rw [sql]
  split <;> simp [*]

theorem sql_placeholder_iff {d : Dialect} {type : DataType} {i : UInt64} {t : Sql} :
    sql d (.placeholder type i) = .ok t ↔ type.hasLiteral = true ∧ marker i.toNat = t := by
  rw [sql]
  split <;> simp [*]

/-- The text of a leaf is a word, one section, or the marker of a placeholder. -/
theorem leaf_cases {d : Dialect} (hd : d.HasAsciiQuote) {n : Node} {t : Sql}
    (hn : n.isPredicate = false) (h : sql d n = .ok t) :
    IsWord t ∨ IsSection d t ∨ ∃ type i, n = .placeholder type i ∧ t = marker i.toNat := by
  cases n with
  | column name =>
    obtain ⟨hname, rfl⟩ := sql_column_iff.1 h
    rcases identifier_cases hd hname with ⟨-, h⟩ | h
    · exact .inl h
    · exact .inr (.inl h)
  | constant v =>
    rcases literal_cases (sql_constant_iff.1 h) with ⟨s, -, rfl⟩ | h
    · exact .inr (.inl (isSection_textLiteral hd _))
    · exact .inl (isWord_of_literal h)
  | placeholder type i =>
    obtain ⟨-, rfl⟩ := sql_placeholder_iff.1 h
    exact .inr (.inr ⟨type, i, rfl, rfl⟩)
  | predicate op children => cases hn

/-! ### Operators -/

/-- What stands before the first operand. -/
def opening : Operator → Sql
  | .not => "NOT ".toList
  | _ => []

/-- What stands after the last operand. -/
def closing : Operator → Sql
  | .isIn | .notIn => [')']
  | _ => []

/-- An operand as it stands within an operator. -/
def Operand.within (op : Operator) (o : Operand) : Sql :=
  match op with
  | .and | .or | .not => parenthesized o.text
  | _ => o.grouped

/-- Operands with a separator in front of each: one in front of the first, another in front of the
others. -/
def trail {α : Type} (first others : List α) : List (List α) → List α
  | [] => []
  | t :: ts => first ++ t ++ trail others others ts

theorem intercalate_eq_trail {α : Type} (separator t : List α) (ts : List (List α)) :
    separator.intercalate (t :: ts) = t ++ trail separator separator ts := by
  induction ts generalizing t with
  | nil => simp [List.intercalate, trail]
  | cons u ts ih => rw [trail, List.append_assoc, ← ih]; simp [List.intercalate]

theorem joined_cons (first others : Sql) (t : Sql) (ts : List Sql) :
    joined first others (t :: ts) = t ++ trail first others ts := by
  cases ts with
  | nil => simp [joined, trail]
  | cons u ts => simp [joined, trail, intercalate_eq_trail]

theorem assemble_not (os : List Operand) :
    assemble .not os = "NOT ".toList ++ trail [] [] (os.map (Operand.within .not)) := by
  change "NOT ".toList ++ os.flatMap (Operand.within .not) = _
  congr 1
  induction os with
  | nil => rfl
  | cons o os ih => rw [List.flatMap_cons, ih, List.map_cons, trail, List.nil_append]

theorem assemble_eq_joined {op : Operator} (h : op ≠ .not) (os : List Operand) :
    assemble op os =
      joined (spelling op).1 (spelling op).2 (os.map (Operand.within op)) ++ closing op := by
  cases op <;> first
    | exact absurd rfl h
    | rfl
    | exact (List.append_nil _).symm

/-- The text of an operator: its operands one after the other, with what stands before, between and
after them. -/
theorem assemble_cons (op : Operator) (o : Operand) (os : List Operand) :
    assemble op (o :: os) = opening op ++ o.within op ++
      trail (spelling op).1 (spelling op).2 (os.map (Operand.within op)) ++ closing op := by
  by_cases h : op = .not
  · subst h
    rw [assemble_not, List.map_cons, trail, show closing .not = [] from rfl, List.append_nil,
      List.nil_append, List.append_assoc]
    rfl
  · have hopening : opening op = [] := by cases op <;> first | exact absurd rfl h | rfl
    rw [assemble_eq_joined h, List.map_cons, joined_cons, hopening, List.nil_append]

/-- Separators and what stands around operands consist of separator characters. -/
theorem isSeparatorChar_of_mem {op : Operator} {c : Char}
    (hc : c ∈ (spelling op).1 ∨ c ∈ (spelling op).2 ∨ c ∈ opening op ∨ c ∈ closing op) :
    isSeparatorChar c = true := by
  have key : ∀ s ∈ [(spelling op).1, (spelling op).2, opening op, closing op],
      ∀ c ∈ s, isSeparatorChar c = true := by
    cases op <;> decide
  rcases hc with hc | hc | hc | hc <;> exact key _ (by simp) c hc

/-- There is a separator wherever an operator has another operand. -/
theorem spelling_ne_nil {op : Operator} {n : Nat} (h : takes op n = true) :
    (2 ≤ n → (spelling op).1 ≠ []) ∧ (3 ≤ n → (spelling op).2 ≠ []) := by
  refine ⟨fun hn => ?_, fun hn => ?_⟩ <;> cases op <;> first
    | decide
    | cases (show false = true from h)
    | (simp only [takes, beq_iff_eq] at h; omega)

theorem one_le_of_takes {op : Operator} {n : Nat} (h : takes op n = true) : 1 ≤ n := by
  cases op <;> simp [takes] at h <;> omega

/-! ### Trees -/

/-- An operand is the text of a child, with whether the child is an operator itself. -/
def IsOperand (d : Dialect) (n : Node) (o : Operand) : Prop :=
  o.compound = n.isPredicate ∧ sql d n = .ok o.text

theorem operands_eq_ok_iff {d : Dialect} {ns : List Node} {os : List Operand} :
    operands d ns = .ok os ↔ List.Forall₂ (IsOperand d) ns os := by
  induction ns generalizing os with
  | nil =>
    rw [operands, List.forall₂_nil_left_iff, Except.ok.injEq]
    exact eq_comm
  | cons n ns ih =>
    rw [operands, List.forall₂_cons_left_iff]
    cases hn : sql d n with
    | error e => simp [IsOperand, hn]
    | ok text =>
      cases hns : operands d ns with
      | error e =>
        simp only [Except.map, reduceCtorEq, false_iff]
        rintro ⟨o, os', -, h, -⟩
        rw [← ih, hns] at h
        cases h
      | ok os' =>
        simp only [Except.map, Except.ok.injEq]
        constructor
        · rintro rfl
          exact ⟨_, _, ⟨rfl, hn⟩, ih.1 hns, rfl⟩
        · rintro ⟨⟨compound, t⟩, os'', ⟨hc, ht⟩, h, rfl⟩
          rw [← ih, hns] at h
          cases h
          rw [hn] at ht
          cases ht
          cases hc
          rfl

/-- The fragment of an operator arises from those of its children. -/
theorem sql_predicate_iff {d : Dialect} {op : Operator} {children : List Node} {t : Sql} :
    sql d (.predicate op children) = .ok t ↔ takes op children.length = true ∧
      ∃ os, List.Forall₂ (IsOperand d) children os ∧ t = assemble op os := by
  rw [sql]
  by_cases hop : op = .invalid
  · subst hop
    simp [takes]
  · rw [if_neg hop]
    by_cases ht : takes op children.length = true
    · rw [if_pos ht]
      simp only [← operands_eq_ok_iff, ht, true_and]
      cases operands d children <;> simp [Except.map, eq_comm]
    · simp [ht]

theorem pushdown_eq_accepted_iff {d : Dialect} {f : Filter} {text : Sql} :
    pushdown d f = .accepted text ↔ sql d f.root = .ok text := by
  rw [pushdown]
  cases sql d f.root <;> simp

mutual

/-- What holds of the fragments of leaves, and of that of an operator whenever it holds of those of
its children, holds of every fragment. -/
theorem sql_induction {d : Dialect} {P : Node → Sql → Prop}
    (leaf : ∀ n t, n.isPredicate = false → sql d n = .ok t → P n t)
    (predicate : ∀ op children os, takes op children.length = true →
      List.Forall₂ (fun n o => IsOperand d n o ∧ P n o.text) children os →
      P (.predicate op children) (assemble op os))
    (n : Node) (t : Sql) (h : sql d n = .ok t) : P n t := by
  cases n with
  | column name => exact leaf _ _ rfl h
  | constant v => exact leaf _ _ rfl h
  | placeholder type i => exact leaf _ _ rfl h
  | predicate op children =>
    obtain ⟨htakes, os, hos, rfl⟩ := sql_predicate_iff.1 h
    exact predicate op children os htakes (operands_induction leaf predicate children os hos)

theorem operands_induction {d : Dialect} {P : Node → Sql → Prop}
    (leaf : ∀ n t, n.isPredicate = false → sql d n = .ok t → P n t)
    (predicate : ∀ op children os, takes op children.length = true →
      List.Forall₂ (fun n o => IsOperand d n o ∧ P n o.text) children os →
      P (.predicate op children) (assemble op os))
    (ns : List Node) (os : List Operand) (h : List.Forall₂ (IsOperand d) ns os) :
    List.Forall₂ (fun n o => IsOperand d n o ∧ P n o.text) ns os := by
  cases ns with
  | nil =>
    rw [List.forall₂_nil_left_iff.1 h]
    exact .nil
  | cons n ns =>
    obtain ⟨o, os', ho, hos, rfl⟩ := List.forall₂_cons_left_iff.1 h
    exact .cons ⟨ho, sql_induction leaf predicate n o.text ho.2⟩
      (operands_induction leaf predicate ns os' hos)

end

end Fragment

end ExternalTable
