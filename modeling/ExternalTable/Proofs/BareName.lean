import Mathlib.Data.List.Forall2
import Mathlib.Tactic.Common
import ExternalTable.Proofs.Spelling
import ExternalTable.Proofs.TopLevel

/-!
# Bare names and literals

A dialect without an identifier quote writes column names as they are.  A name that is spelled like
a keyword or a numeral is then the text of a literal, although the dialect accepts it.  Every other
accepted name differs from all literals, and a filter on such a column has another fragment than the
filter with a constant for the column.

* `Node.withConstant`: a tree with a constant in place of a column;
* `ReadsAsLiteral`: the names that are spelled like a literal;
* `literal_ne_name`: all other accepted names differ from every literal;
* `Replaced`: a text with occurrences of another text replaced;
* `column_apart`: a filter on a column and the filter with a constant in its place.
-/

namespace ExternalTable

namespace Node

mutual

/-- A tree with a constant in place of a column. -/
def withConstant (name : String) (v : Value) : Node → Node
  | .column other => if other = name then .constant v else .column other
  | .constant w => .constant w
  | .placeholder type i => .placeholder type i
  | .predicate op children => .predicate op (withConstantAll name v children)

/-- Several trees with a constant in place of a column. -/
def withConstantAll (name : String) (v : Value) : List Node → List Node
  | [] => []
  | n :: ns => withConstant name v n :: withConstantAll name v ns

end

variable {name : String} {v : Value}

theorem isPredicate_withConstant (n : Node) :
    (n.withConstant name v).isPredicate = n.isPredicate := by
  cases n with
  | column other =>
    rw [withConstant]
    split <;> rfl
  | _ => rfl

end Node

/-- A filter with a constant in place of a column. -/
def Filter.withConstant (name : String) (v : Value) (f : Filter) : Filter :=
  ⟨f.operator, Node.withConstantAll name v f.children⟩

namespace Fragment

variable {d : Dialect} {name : String} {v : Value}

/-! ### Names and literals -/

/-- A name is spelled like a keyword or a numeral. -/
def ReadsAsLiteral (name : String) : Prop :=
  name.toList ∈ keywordLiterals ∨ IsNumeral name.toList

theorem bare_of_accepts (hquote : d.identifierQuote = none)
    (hname : d.acceptsIdentifier name = true) :
    name.toList ≠ [] ∧ ∀ c ∈ name.toList, Dialect.isBareChar c = true := by
  simpa [Dialect.acceptsIdentifier, hquote] using hname

theorem sql_bare (hquote : d.identifierQuote = none) (hname : d.acceptsIdentifier name = true) :
    sql d (.column name) = .ok name.toList := by
  rw [sql_column_iff, Dialect.identifier, hquote]
  exact ⟨hname, rfl⟩

/-- An accepted name that is not spelled like a literal is none: it has no quote and no minus
sign. -/
theorem literal_ne_name (hquote : d.identifierQuote = none)
    (hname : d.acceptsIdentifier name = true) (hliteral : ¬ ReadsAsLiteral name) {t : Sql}
    (h : v.literal d = .ok t) : t ≠ name.toList := by
  obtain ⟨-, hbare⟩ := bare_of_accepts hquote hname
  rintro rfl
  rcases literal_forms h with ⟨s, -, htext⟩ | hkeyword | ⟨u, hu, heq | hminus⟩
  · have := hbare '\'' (by rw [htext]; exact .head _)
    revert this
    decide
  · exact hliteral (.inl hkeyword)
  · exact hliteral (.inr (heq ▸ hu))
  · have := hbare '-' (by rw [hminus]; exact .head _)
    revert this
    decide

/-! ### Replaced texts -/

/-- A text, and the text with so many occurrences of `x` replaced by `y`. -/
inductive Replaced (x y : Sql) : Nat → Sql → Sql → Prop
  | same (t : Sql) : Replaced x y 0 t t
  | once : Replaced x y 1 x y
  | append {m n : Nat} {t t' u u' : Sql} : Replaced x y m t t' → Replaced x y n u u' →
      Replaced x y (m + n) (t ++ u) (t' ++ u')

namespace Replaced

variable {x y t t' : Sql} {n : Nat}

theorem length_eq (h : Replaced x y n t t') :
    t'.length + n * x.length = t.length + n * y.length := by
  induction h with
  | same t => rw [Nat.zero_mul, Nat.zero_mul]
  | once => omega
  | append _ _ iht ihu =>
    rw [List.length_append, List.length_append, Nat.add_mul, Nat.add_mul]
    omega

/-- Texts of one length are replaced in their places. -/
theorem eq_zero (h : Replaced x y n t t') (hlength : x.length = y.length) (hne : x ≠ y)
    (heq : t = t') : n = 0 := by
  induction h with
  | same t => rfl
  | once => exact absurd heq hne
  | append ht _ iht ihu =>
    -- The first parts have one length, so the two texts are cut in the same place.
    have hsame := ht.length_eq
    rw [hlength] at hsame
    obtain ⟨hfirst, hrest⟩ := List.append_inj heq (by omega)
    rw [iht hfirst, ihu hrest]

/-- A text in which another is replaced by a third is not what it was. -/
theorem ne (h : Replaced x y n t t') (hne : x ≠ y) (hpos : 0 < n) : t ≠ t' := by
  rintro heq
  have hlength := h.length_eq
  rw [← heq, Nat.add_left_cancel_iff] at hlength
  have := h.eq_zero (Nat.eq_of_mul_eq_mul_left hpos hlength) hne heq
  omega

theorem around (h : Replaced x y n t t') (left right : Sql) :
    Replaced x y n (left ++ t ++ right) (left ++ t' ++ right) := by
  have := ((same left).append h).append (same (x := x) (y := y) right)
  rwa [Nat.zero_add, Nat.add_zero] at this

end Replaced

/-! ### Filters -/

/-- An operand stands within an operator as it is, or in parentheses. -/
theorem exists_within (op : Operator) (compound : Bool) : ∃ left right : Sql,
    ∀ t, Operand.within op ⟨compound, t⟩ = left ++ t ++ right := by
  have hparenthesized : ∃ left right : Sql, ∀ t, parenthesized t = left ++ t ++ right :=
    ⟨['('], [')'], fun _ => rfl⟩
  have hgrouped : ∃ left right : Sql, ∀ t, Operand.grouped ⟨compound, t⟩ = left ++ t ++ right := by
    cases compound with
    | true => exact hparenthesized
    | false => exact ⟨[], [], fun t => (List.append_nil t).symm⟩
  cases op <;> first | exact hparenthesized | exact hgrouped

/-- The text of a tree, and the text of the tree with a constant in place of a column. -/
def Follows (d : Dialect) (name : String) (v : Value) (y : Sql) (n : Node) (t : Sql) : Prop :=
  ∀ t', sql d (n.withConstant name v) = .ok t' →
    Replaced name.toList y (n.columns.count name) t t'

theorem follows_leaf {y : Sql} (hquote : d.identifierQuote = none)
    (hy : ∀ t, v.literal d = .ok t → t = y) {n : Node} {t : Sql} (hn : n.isPredicate = false)
    (h : sql d n = .ok t) : Follows d name v y n t := by
  intro t' ht'
  cases n with
  | column other =>
    obtain ⟨haccepts, rfl⟩ := sql_column_iff.1 h
    rw [Node.withConstant] at ht'
    rw [Node.columns, Dialect.identifier, hquote]
    split at ht'
    · subst other
      rw [hy t' (sql_constant_iff.1 ht'), List.count_singleton_self]
      exact .once
    · obtain ⟨-, rfl⟩ := sql_column_iff.1 ht'
      rw [Dialect.identifier, hquote, List.count_eq_zero.2 (by simpa using Ne.symm ‹_›)]
      exact .same _
  | constant w => exact Except.ok.inj (h.symm.trans ht') ▸ .same t
  | placeholder type i => exact Except.ok.inj (h.symm.trans ht') ▸ .same t
  | predicate op children => cases hn

theorem replaced_within {y : Sql} {n : Node} {o o' : Operand} (op : Operator)
    (ho : IsOperand d n o ∧ Follows d name v y n o.text)
    (ho' : IsOperand d (n.withConstant name v) o') :
    Replaced name.toList y (n.columns.count name) (o.within op) (o'.within op) := by
  obtain ⟨⟨hcompound, -⟩, hfollows⟩ := ho
  obtain ⟨hcompound', htext'⟩ := ho'
  obtain ⟨left, right, hwithin⟩ := exists_within op n.isPredicate
  rw [Node.isPredicate_withConstant] at hcompound'
  have hleft := hwithin o.text
  have hright := hwithin o'.text
  rw [← hcompound] at hleft
  rw [← hcompound'] at hright
  rw [hleft, hright]
  exact (hfollows o'.text htext').around left right

theorem replaced_trail {y : Sql} {ns : List Node} {os os' : List Operand} (op : Operator)
    (hos : List.Forall₂ (fun n o => IsOperand d n o ∧ Follows d name v y n o.text) ns os)
    (hos' : List.Forall₂ (IsOperand d) (Node.withConstantAll name v ns) os') (first others : Sql) :
    Replaced name.toList y ((Node.columnsAll ns).count name)
      (trail first others (os.map (Operand.within op)))
      (trail first others (os'.map (Operand.within op))) := by
  induction hos generalizing os' first with
  | nil =>
    rw [Node.withConstantAll, List.forall₂_nil_left_iff] at hos'
    rw [hos']
    exact .same _
  | cons ho _ ih =>
    rw [Node.withConstantAll] at hos'
    obtain ⟨o', os'', ho', hos'', rfl⟩ := List.forall₂_cons_left_iff.1 hos'
    rw [Node.columnsAll, List.count_append, List.map_cons, List.map_cons, trail, trail]
    have happend := (Replaced.same first).append (replaced_within op ho ho')
    rw [Nat.zero_add] at happend
    exact happend.append (ih hos'' others)

theorem follows_predicate {y : Sql} {op : Operator} {children : List Node} {os : List Operand}
    (htakes : takes op children.length = true)
    (hos : List.Forall₂ (fun n o => IsOperand d n o ∧ Follows d name v y n o.text) children os) :
    Follows d name v y (.predicate op children) (assemble op os) := by
  intro t' ht'
  rw [Node.withConstant] at ht'
  obtain ⟨-, os', hos', rfl⟩ := sql_predicate_iff.1 ht'
  cases hos with
  | nil => exact absurd (one_le_of_takes htakes) (by simp)
  | cons ho hos =>
    rw [Node.withConstantAll] at hos'
    obtain ⟨o', os'', ho', hos'', rfl⟩ := List.forall₂_cons_left_iff.1 hos'
    rw [assemble_cons, assemble_cons, Node.columns, Node.columnsAll, List.count_append]
    have hoperands := ((Replaced.same (opening op)).append (replaced_within op ho ho')).append
      (replaced_trail op hos hos'' (spelling op).1 (spelling op).2)
    have hclosed := hoperands.append (.same (closing op))
    rwa [Nat.zero_add, Nat.add_zero] at hclosed

/-- An accepted column that is not spelled like a literal is told from every constant: its text is
not that of the constant, and a filter on it has another fragment than the filter with the constant
in its place. -/
theorem column_apart (hquote : d.identifierQuote = none) (hname : d.acceptsIdentifier name = true)
    (hliteral : ¬ ReadsAsLiteral name) (v : Value) :
    (∃ text, sql d (.column name) = .ok text ∧ sql d (.constant v) ≠ .ok text) ∧
      ∀ f : Filter, name ∈ f.root.columns → ∀ text, pushdown d f = .accepted text →
        pushdown d (f.withConstant name v) ≠ .accepted text := by
  refine ⟨⟨_, sql_bare hquote hname, fun h => ?_⟩, fun f hcolumn text hf hf' => ?_⟩
  · exact literal_ne_name hquote hname hliteral (sql_constant_iff.1 h) rfl
  · -- Without a literal the second filter is declined, and any other text will do.
    obtain ⟨y, hne, hy⟩ : ∃ y, name.toList ≠ y ∧ ∀ t, v.literal d = .ok t → t = y := by
      cases hv : v.literal d with
      | ok y =>
        have hne := literal_ne_name hquote hname hliteral hv
        exact ⟨y, hne.symm, fun t ht => (Except.ok.inj ht).symm⟩
      | error e => exact ⟨[], (bare_of_accepts hquote hname).1, nofun⟩
    have hfollows := sql_induction (P := Follows d name v y) (fun _ _ => follows_leaf hquote hy)
      (fun _ _ _ => follows_predicate) f.root text (pushdown_eq_accepted_iff.1 hf)
    exact (hfollows text (pushdown_eq_accepted_iff.1 hf')).ne hne (List.count_pos_iff.2 hcolumn) rfl

theorem column_apart_qty :
    (∃ text, sql .generic (.column "qty") = .ok text ∧
        sql .generic (.constant (.int 10)) ≠ .ok text) ∧
      pushdown .generic ⟨.greater, [.column "qty", .constant (.int 10)]⟩ =
        .accepted "qty>10".toList ∧
      pushdown .generic (Filter.withConstant "qty" (.int 10)
        ⟨.greater, [.column "qty", .constant (.int 10)]⟩) ≠ .accepted "qty>10".toList := by
  have hliteral : ¬ ReadsAsLiteral "qty" := by
    rintro (hkeyword | hnumeral)
    · exact absurd hkeyword (by decide)
    · exact absurd (hnumeral.isNumber.2 'q' (by decide)) (by decide)
  have hqty := column_apart (d := .generic) rfl (by decide) hliteral (.int 10)
  exact ⟨hqty.1, rfl, hqty.2 _ (.head _) _ rfl⟩

/-- The columns that are spelled like a literal are accepted all the same, and cannot be told from
it. -/
theorem column_2024_reads_as_constant :
    Dialect.generic.acceptsIdentifier "2024" = true ∧
      sql .generic (.column "2024") = sql .generic (.constant (.int 2024)) ∧
      pushdown .generic ⟨.greater, [.column "2024", .constant (.int 10)]⟩ =
        .accepted "2024>10".toList ∧
      pushdown .generic (Filter.withConstant "2024" (.int 2024)
        ⟨.greater, [.column "2024", .constant (.int 10)]⟩) = .accepted "2024>10".toList :=
  ⟨by decide, rfl, rfl, rfl⟩

end Fragment

end ExternalTable
