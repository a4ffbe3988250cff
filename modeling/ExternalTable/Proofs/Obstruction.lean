import ExternalTable.Proofs.Conjunction
import ExternalTable.Proofs.Grouping

/-!
# Obstacles

Which filters are pushed down, told by looking at each node of a tree by itself.  A tree is written
exactly if no node obstructs it, and otherwise the first node that does so gives the reason: a node
comes before its children, and children from left to right.

* `Node.preorder`: the nodes of a tree in this order;
* `ChildCount`: the numbers of children with which an operator can be written;
* `Obstructs`: what is wrong with a node, whatever its children are;
* `FirstObstacle`: what is wrong with the first such node of several;
* `Tells`, `tells_sql`: writing a tree gives its fragment, or its first obstacle;
* `condition_append_cons`: a fragment that is not blank has its place in every condition;
* `pushdown_firstObstacle`: the main statement.
-/

namespace ExternalTable

namespace Node

mutual

/-- The nodes of a tree, a node before its children and children from left to right. -/
def preorder : Node → List Node
  | .predicate op children => .predicate op children :: preorderAll children
  | leaf => [leaf]

/-- The nodes of several trees, one tree after the other. -/
def preorderAll : List Node → List Node
  | [] => []
  | n :: ns => preorder n ++ preorderAll ns

end

end Node

namespace Fragment

/-- How many children an operator can be written with.  There is no number for `invalid`. -/
inductive ChildCount : Operator → Nat → Prop
  | comparison {op : Operator} :
      op ∈ [.equal, .notEqual, .less, .lessEqual, .greater, .greaterEqual, .is, .isNot] →
      ChildCount op 2
  | pattern {op : Operator} {n : Nat} : op ∈ [.like, .notLike] → n ∈ [2, 3] → ChildCount op n
  | range {op : Operator} : op ∈ [.between, .notBetween] → ChildCount op 3
  | several {op : Operator} {n : Nat} : op ∈ [.isIn, .notIn, .and, .or] → 2 ≤ n → ChildCount op n
  | negation : ChildCount .not 1

theorem takes_iff {op : Operator} {n : Nat} : takes op n = true ↔ ChildCount op n := by
  constructor
  · intro h
    cases op <;> simp only [takes, beq_iff_eq, Bool.or_eq_true, decide_eq_true_eq,
      Bool.false_eq_true] at h
    case like => exact .pattern (by decide) (by simpa using h)
    case notLike => exact .pattern (by decide) (by simpa using h)
    case isIn => exact .several (by decide) h
    case notIn => exact .several (by decide) h
    case and => exact .several (by decide) h
    case or => exact .several (by decide) h
    all_goals
      subst h
      first
        | exact .comparison (by decide)
        | exact .range (by decide)
        | exact .negation
  · intro h
    cases h with
    | comparison hop => revert op; decide
    | pattern hop hn =>
      have key : ∀ op ∈ [Operator.like, .notLike], ∀ n ∈ [2, 3], takes op n = true := by decide
      exact key op hop n hn
    | range hop => revert op; decide
    | several hop hn =>
      simp only [List.mem_cons, List.not_mem_nil, or_false] at hop
      rcases hop with rfl | rfl | rfl | rfl <;> simpa [takes] using hn
    | negation => rfl

theorem ChildCount.ne_invalid {op : Operator} {n : Nat} (h : ChildCount op n) : op ≠ .invalid := by
  rintro rfl
  exact absurd (takes_iff.2 h) (by simp [takes])

/-- The decoder asks for no more children than an operator can be written with. -/
theorem ChildCount.minArity_le {op : Operator} {n : Nat} (h : ChildCount op n) :
    op.minArity ≤ n := by
  cases h with
  | comparison hop => revert op; decide
  | pattern hop hn =>
    have key : ∀ op ∈ [Operator.like, .notLike], ∀ n ∈ [2, 3], op.minArity ≤ n := by decide
    exact key op hop n hn
  | range hop => revert op; decide
  | several hop hn =>
    have key : ∀ op ∈ [Operator.isIn, .notIn, .and, .or], op.minArity = 2 := by decide
    rw [key op hop]
    exact hn
  | negation => decide

/-- What is wrong with a node, whatever its children are. -/
inductive Obstructs (d : Dialect) : Node → Obstacle → Prop
  | invalid (children : List Node) :
      Obstructs d (.predicate .invalid children) (.unsupportedOperator .invalid)
  | arity {op : Operator} {children : List Node} : op ≠ .invalid →
      ¬ ChildCount op children.length →
      Obstructs d (.predicate op children) (.arity op children.length)
  | column {name : String} : d.acceptsIdentifier name = false →
      Obstructs d (.column name) (.identifier name)
  | constant {v : Value} {cause : LiteralError} : v.literal d = .error cause →
      Obstructs d (.constant v) (.literal cause)
  | placeholder {type : DataType} {index : UInt64} : type.hasLiteral = false →
      Obstructs d (.placeholder type index) (.placeholderType type index)

/-- Whether nothing is wrong with a node by itself. -/
def Writable (d : Dialect) (n : Node) : Prop :=
  ∀ o, ¬ Obstructs d n o

/-- What is wrong with the first of several nodes that is not writable. -/
inductive FirstObstacle (d : Dialect) : List Node → Obstacle → Prop
  | here {n : Node} {ns : List Node} {o : Obstacle} : Obstructs d n o → FirstObstacle d (n :: ns) o
  | later {n : Node} {ns : List Node} {o : Obstacle} : Writable d n → FirstObstacle d ns o →
      FirstObstacle d (n :: ns) o

variable {d : Dialect}

theorem Obstructs.unique {n : Node} {o o' : Obstacle} (h : Obstructs d n o)
    (h' : Obstructs d n o') : o = o' := by
  cases h with
  | invalid children =>
    cases h' with
    | invalid => rfl
    | arity hop _ => exact absurd rfl hop
  | arity hop _ =>
    cases h' with
    | invalid => exact absurd rfl hop
    | arity _ _ => rfl
  | column _ => cases h'; rfl
  | constant hv =>
    cases h' with
    | constant hv' =>
      rw [hv] at hv'
      cases hv'
      rfl
  | placeholder _ => cases h'; rfl

namespace FirstObstacle

theorem unique {ns : List Node} {o o' : Obstacle} (h : FirstObstacle d ns o)
    (h' : FirstObstacle d ns o') : o = o' := by
  induction h with
  | here hn =>
    cases h' with
    | here hn' => exact hn.unique hn'
    | later hn' _ => exact absurd hn (hn' _)
  | later hn _ ih =>
    cases h' with
    | here hn' => exact absurd hn' (hn _)
    | later _ h' => exact ih h'

theorem not_writable {ns : List Node} {o : Obstacle} (h : FirstObstacle d ns o) :
    ¬ ∀ n ∈ ns, Writable d n := by
  induction h with
  | here hn => exact fun hall => hall _ List.mem_cons_self _ hn
  | later _ _ ih => exact fun hall => ih fun n hn => hall n (List.mem_cons_of_mem _ hn)

theorem append_right {ns : List Node} {o : Obstacle} (h : FirstObstacle d ns o)
    (ms : List Node) : FirstObstacle d (ns ++ ms) o := by
  induction h with
  | here hn => exact .here hn
  | later hn _ ih => exact .later hn ih

theorem append_left {ns ms : List Node} {o : Obstacle} (hns : ∀ n ∈ ns, Writable d n)
    (h : FirstObstacle d ms o) : FirstObstacle d (ns ++ ms) o := by
  induction ns with
  | nil => exact h
  | cons n ns ih =>
    obtain ⟨hn, hns⟩ := List.forall_mem_cons.1 hns
    exact .later hn (ih hns)

end FirstObstacle

/-! ### Fragments and obstacles -/

/-- The two things that can come of writing some nodes: all of them are writable, or there is a
first obstacle. -/
def Tells {α : Type} (d : Dialect) (ns : List Node) : Except Obstacle α → Prop
  | .ok _ => ∀ n ∈ ns, Writable d n
  | .error o => FirstObstacle d ns o

/-- A leaf that is written is writable, and one that is not obstructs. -/
theorem tells_leaf {n : Node} (hn : n.isPredicate = false) : Tells d n.preorder (sql d n) := by
  cases n with
  | predicate op children => cases hn
  | column name =>
    rw [sql]
    by_cases h : d.acceptsIdentifier name = true
    · rw [if_pos h]
      intro n hn o ho
      rw [List.mem_singleton.1 hn] at ho
      cases ho with
      | column h' => simp [h] at h'
    · rw [if_neg h]
      exact .here (.column (by simpa using h))
  | constant v =>
    rw [sql]
    cases h : v.literal d with
    | ok text =>
      intro n hn o ho
      rw [List.mem_singleton.1 hn] at ho
      cases ho with
      | constant h' => simp [h] at h'
    | error cause => exact .here (.constant h)
  | placeholder type index =>
    rw [sql]
    by_cases h : type.hasLiteral = true
    · rw [if_pos h]
      intro n hn o ho
      rw [List.mem_singleton.1 hn] at ho
      cases ho with
      | placeholder h' => simp [h] at h'
    · rw [if_neg h]
      exact .here (.placeholder (by simpa using h))

/-- An operator is writable with as many children as it can be written with. -/
theorem writable_predicate_iff {op : Operator} {children : List Node} :
    Writable d (.predicate op children) ↔ ChildCount op children.length := by
  constructor
  · intro h
    by_contra hcount
    by_cases hop : op = .invalid
    · subst hop
      exact h _ (.invalid children)
    · exact h _ (.arity hop hcount)
  · intro h o ho
    cases ho with
    | invalid => exact h.ne_invalid rfl
    | arity _ hcount => exact hcount h

theorem Tells.map {α β : Type} {ns : List Node} {r : Except Obstacle α} (h : Tells d ns r)
    (f : α → β) : Tells d ns (r.map f) := by
  cases r with
  | ok a => exact h
  | error o => exact h

theorem Tells.cons {α : Type} {n : Node} {ns : List Node} {r : Except Obstacle α}
    (hn : Writable d n) (h : Tells d ns r) : Tells d (n :: ns) r := by
  cases r with
  | ok a => exact List.forall_mem_cons.2 ⟨hn, h⟩
  | error o => exact .later hn h

mutual

/-- Writing a tree meets the first obstacle of its nodes in preorder, if there is one. -/
theorem tells_sql (n : Node) : Tells d n.preorder (sql d n) := by
  cases n with
  | column name => exact tells_leaf rfl
  | constant v => exact tells_leaf rfl
  | placeholder type index => exact tells_leaf rfl
  | predicate op children =>
    rw [sql, Node.preorder]
    by_cases hop : op = .invalid
    · subst hop
      rw [if_pos rfl]
      exact .here (.invalid children)
    · rw [if_neg hop]
      by_cases htakes : takes op children.length = true
      · rw [if_pos htakes]
        have hchildren : Tells d (Node.preorderAll children) (operands d children) :=
          tells_operands children
        exact (hchildren.map _).cons (writable_predicate_iff.2 (takes_iff.1 htakes))
      · rw [if_neg htakes]
        exact .here (.arity hop fun hcount => htakes (takes_iff.2 hcount))

theorem tells_operands (ns : List Node) : Tells d (Node.preorderAll ns) (operands d ns) := by
  cases ns with
  | nil =>
    intro n hn
    cases hn
  | cons n ns =>
    have hfirst : Tells d n.preorder (sql d n) := tells_sql n
    have hrest : Tells d (Node.preorderAll ns) (operands d ns) := tells_operands ns
    rw [operands, Node.preorderAll]
    cases hn : sql d n with
    | error o =>
      rw [hn] at hfirst
      exact FirstObstacle.append_right hfirst _
    | ok text =>
      rw [hn] at hfirst
      cases hns : operands d ns with
      | error o =>
        rw [hns] at hrest
        exact FirstObstacle.append_left hfirst hrest
      | ok os =>
        rw [hns] at hrest
        intro m hm
        rcases List.mem_append.1 hm with hm | hm
        · exact hfirst m hm
        · exact hrest m hm

end

/-- A filter is accepted if all its nodes are writable, and declined for the first that is not. -/
theorem pushdown_cases (d : Dialect) (f : Filter) :
    (∃ text, pushdown d f = .accepted text ∧ ∀ n ∈ f.root.preorder, Writable d n) ∨
      ∃ o, pushdown d f = .declined o ∧ FirstObstacle d f.root.preorder o := by
  have h : Tells d f.root.preorder (sql d f.root) := tells_sql f.root
  rw [pushdown]
  cases hsql : sql d f.root with
  | ok text =>
    rw [hsql] at h
    exact .inl ⟨text, rfl, h⟩
  | error o =>
    rw [hsql] at h
    exact .inr ⟨o, rfl, h⟩

/-! ### Conditions -/

/-- The fragments that a condition does not leave out. -/
def kept (fragments : List Sql) : List Sql :=
  fragments.filter fun f => !isBlank f

/-- A fragment that is not blank has its place in every condition. -/
theorem condition_append_cons (d : Dialect) {f : Sql} (hf : isBlank f = false)
    (before after : List Sql) :
    condition d (before ++ f :: after) =
      " WHERE ".toList ++ conjunction d (kept before ++ f :: kept after) := by
  have hkept : (before ++ f :: after).filter (fun f => !isBlank f) =
      kept before ++ f :: kept after := by
    rw [List.filter_append, List.filter_cons, hf]
    rfl
  rw [condition, hkept]
  simp

theorem isBlank_of_accepted {f : Filter} {text : Sql} (h : pushdown d f = .accepted text) :
    isBlank text = false := by
  obtain ⟨htakes, os, hos, rfl⟩ := sql_predicate_iff.1 (pushdown_eq_accepted_iff.1 h)
  rw [hos.length_eq] at htakes
  exact isBlank_assemble htakes

/-- A condition has a place for the fragment of an accepted filter, with its markers or bound. -/
theorem isBlank_of_written {f : Filter} {text written : Sql} (h : pushdown d f = .accepted text)
    (hwritten : written = text ∨ ∃ params, bind d params text = .ok written) :
    isBlank written = false := by
  rcases hwritten with rfl | ⟨params, hbind⟩
  · exact isBlank_of_accepted h
  · rw [(binds_of_run hbind).isBlank_eq]
    exact isBlank_of_accepted h

/-- **A filter is declined for its first obstacle.**  A filter is accepted exactly if no node of its
tree obstructs it, and declined for a reason exactly if this is the obstacle of the first node that
does; it never fails.  The answer to the host is empty exactly where the filter is not accepted.  The
fragment of an accepted filter is not blank, nor is it when parameters are bound, so a condition has
a place for it, whatever the other fragments are; and every operator of the tree has as many children
as the decoder asks for. -/
theorem pushdown_firstObstacle (d : Dialect) (f : Filter) :
    ((∃ text, pushdown d f = .accepted text) ↔ ∀ n ∈ f.root.preorder, ∀ o, ¬ Obstructs d n o) ∧
      (∀ o, pushdown d f = .declined o ↔ FirstObstacle d f.root.preorder o) ∧
      (∀ e, pushdown d f ≠ .failed e) ∧
      ((pushdown d f).answer = [] ↔ ∀ text, pushdown d f ≠ .accepted text) ∧
      ∀ text, pushdown d f = .accepted text →
        text ≠ [] ∧ isBlank text = false ∧
        (∀ written, (written = text ∨ ∃ params, bind d params text = .ok written) →
          ∀ before after, condition d (before ++ written :: after) =
            " WHERE ".toList ++ conjunction d (kept before ++ written :: kept after)) ∧
        ∀ op children, .predicate op children ∈ f.root.preorder →
          op.minArity ≤ children.length := by
  rcases pushdown_cases d f with ⟨text, haccepted, hall⟩ | ⟨o, hdeclined, hfirst⟩
  · have hblank : isBlank text = false := isBlank_of_accepted haccepted
    have hne : text ≠ [] := by
      rintro rfl
      cases hblank
    simp only [haccepted]
    refine ⟨⟨fun _ => hall, fun _ => ⟨text, rfl⟩⟩, fun o => ?_, by simp, ?_, ?_⟩
    · constructor
      · intro h
        cases h
      · intro hfirst
        exact absurd hall hfirst.not_writable
    · simp [Pushdown.answer, Pushdown.fragment?, hne]
    · rintro text' h
      cases h
      refine ⟨hne, hblank, fun written hwritten before after => ?_, fun op children hmem => ?_⟩
      · exact condition_append_cons d (isBlank_of_written haccepted hwritten) before after
      · exact (writable_predicate_iff.1 (hall _ hmem)).minArity_le
  · simp only [hdeclined]
    refine ⟨?_, fun o' => ?_, by simp, ?_, by simp⟩
    · constructor
      · rintro ⟨text, h⟩
        cases h
      · intro hall
        exact absurd hall hfirst.not_writable
    · constructor
      · intro h
        cases h
        exact hfirst
      · intro hfirst'
        rw [hfirst.unique hfirst']
    · simp [Pushdown.answer, Pushdown.fragment?]

/-- A node is reported before its children, and children are looked at from left to right. -/
example :
    pushdown .generic ⟨.equal, [.column "a b"]⟩ = .declined (.arity .equal 1) ∧
      pushdown .generic ⟨.equal, [.column "a b", .predicate .invalid []]⟩ =
        .declined (.identifier "a b") :=
  ⟨rfl, rfl⟩

end Fragment

end ExternalTable
