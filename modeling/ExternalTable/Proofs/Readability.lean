import Mathlib.Data.List.TakeWhile
import ExternalTable.Proofs.TopLevel

/-!
# Reading fragments back

A fragment determines the tree that it was made from, up to the spelling of leaves.  The words at
its top level tell the operator and the operands, and what stands in parentheses is read in the
same way.

* `Dialect.IsQuoted`: the dialects that quote identifiers;
* `Node.Alike`: trees that differ in the spelling of leaves only;
* `readOperator`: the operator of a row of words;
* `row_inj`: the operands of a row of words;
* `alike_of_pushdown_eq`: the main statement.
-/

namespace ExternalTable

/-- The dialects that quote identifiers with a backtick or a double quote. -/
def Dialect.IsQuoted (d : Dialect) : Prop :=
  d.identifierQuote = some '\x60' ∨ d.identifierQuote = some '\x22'

theorem Dialect.IsQuoted.isCommon {d : Dialect} (hq : d.IsQuoted) : d.IsCommon :=
  .inr hq

/-- Trees with the same operators over the same number of children, the same columns, constants with
the same literal, and placeholders for the same parameter. -/
inductive Node.Alike (d : Dialect) : Node → Node → Prop
  | column (name : String) : Alike d (.column name) (.column name)
  | constant {v w : Value} {text : Sql} : v.literal d = .ok text → w.literal d = .ok text →
      Alike d (.constant v) (.constant w)
  | placeholder (s t : DataType) (i : UInt64) : Alike d (.placeholder s i) (.placeholder t i)
  | predicate (op : Operator) {ns ns' : List Node} : List.Forall₂ (Alike d) ns ns' →
      Alike d (.predicate op ns) (.predicate op ns')

/-- What the text of a leaf begins with where identifiers are quoted. -/
def Node.OpensWith (c : Char) : Node → Prop
  | .column _ => c ∈ ['\x60', '\x22']
  | .constant _ => c = '\'' ∨ Fragment.isWordChar c = true
  | .placeholder _ _ => c = Fragment.markerOpen
  | .predicate _ _ => False

namespace Fragment

/-! ### Texts that can be taken apart -/

theorem double_inj {special : Char → Bool} {s t : Sql}
    (h : Quoted.double special s = Quoted.double special t) : s = t := by
  have := congrArg (Quoted.halve? special) h
  rw [Quoted.halve?_double, Quoted.halve?_double] at this
  exact Option.some.inj this

theorem enclose_inj {quote : Char} {special : Char → Bool} {s t : Sql}
    (h : Quoted.enclose quote special s = Quoted.enclose quote special t) : s = t :=
  double_inj (List.append_cancel_right (List.cons.inj h).2)

theorem identifier_inj {d : Dialect} (hq : d.IsQuoted) {name name' : String}
    (h : d.identifier name = d.identifier name') : name = name' := by
  rcases hq with hq | hq <;> rw [Dialect.identifier, Dialect.identifier, hq] at h <;>
    exact String.toList_inj.1 (enclose_inj h)

theorem parenthesized_inj {s t : Sql} (h : parenthesized s = parenthesized t) : s = t :=
  List.append_cancel_right (List.cons.inj h).2

theorem marker_inj {i j : Nat} (h : marker i = marker j) : i = j := by
  have := congrArg Digits.value (List.append_cancel_right (List.cons.inj h).2)
  rwa [Digits.value_ofNat, Digits.value_ofNat] at this

theorem hidden_inj {s t : Sql} (h : hidden s = hidden t) : s = t := by
  rw [← chars_hidden s, h, chars_hidden]

/-- A list is determined up to the first occurrence of an element. -/
theorem eq_of_append_cons_eq {α : Type} {x : α} {s t r r' : List α} (hs : x ∉ s) (ht : x ∉ t)
    (h : s ++ x :: r = t ++ x :: r') : s = t ∧ r = r' := by
  rcases List.append_eq_append_iff.1 h with ⟨u, rfl, hu⟩ | ⟨u, rfl, hu⟩
  · cases u with
    | nil => exact ⟨(List.append_nil s).symm, (List.cons.inj hu).2⟩
    | cons y u =>
      rw [(List.cons.inj hu).1] at ht
      exact absurd (by simp) ht
  · cases u with
    | nil => exact ⟨List.append_nil t, (List.cons.inj hu).2.symm⟩
    | cons y u =>
      rw [(List.cons.inj hu).1] at hs
      exact absurd (by simp) hs

/-- Texts without the first element of their separator can be taken apart. -/
theorem intercalate_inj {α : Type} {x : α} {separator : List α} {ts us : List (List α)}
    (hts : ∀ t ∈ ts, x ∉ t) (hus : ∀ u ∈ us, x ∉ u) (hts' : ts ≠ []) (hus' : us ≠ [])
    (h : (x :: separator).intercalate ts = (x :: separator).intercalate us) : ts = us := by
  induction ts generalizing us with
  | nil => exact absurd rfl hts'
  | cons t ts ih =>
    obtain ⟨u, us, rfl⟩ := List.exists_cons_of_ne_nil hus'
    obtain ⟨ht, hrest⟩ := List.forall_mem_cons.1 hts
    obtain ⟨hu, hrest'⟩ := List.forall_mem_cons.1 hus
    cases ts with
    | nil =>
      cases us with
      | nil => simpa using h
      | cons u' us =>
        rw [List.intercalate_singleton, List.intercalate_cons_cons] at h
        exact absurd (by simp [h]) ht
    | cons t' ts =>
      cases us with
      | nil =>
        rw [List.intercalate_singleton, List.intercalate_cons_cons] at h
        exact absurd (by simp [← h]) hu
      | cons u' us =>
        rw [List.intercalate_cons_cons, List.intercalate_cons_cons, List.append_assoc,
          List.append_assoc, List.cons_append, List.cons_append] at h
        obtain ⟨heq, htail⟩ := eq_of_append_cons_eq ht hu h
        rw [heq, ih hrest hrest' (List.cons_ne_nil _ _) (List.cons_ne_nil _ _)
          (List.append_cancel_left htail)]

theorem unwords_eq_intercalate (ws : List (List Mark)) : unwords ws = [space].intercalate ws := by
  cases ws with
  | nil => rfl
  | cons w ws =>
    have h : ∀ ws, spaced ws = trail [space] [space] ws := by
      intro ws
      induction ws with
      | nil => rfl
      | cons w ws ih => rw [spaced_cons, ih]; rfl
    rw [unwords, intercalate_eq_trail, h]

/-- Words can be told apart. -/
theorem unwords_inj {ws vs : List (List Mark)} (hws : ∀ w ∈ ws, space ∉ w)
    (hvs : ∀ v ∈ vs, space ∉ v) (hws' : ws ≠ []) (hvs' : vs ≠ []) (h : unwords ws = unwords vs) :
    ws = vs := by
  rw [unwords_eq_intercalate, unwords_eq_intercalate] at h
  exact intercalate_inj hws hvs hws' hvs' h

theorem intersperse_inj {α : Type} {x : α} {as bs : List α}
    (h : as.intersperse x = bs.intersperse x) : as = bs := by
  match as, bs with
  | [], [] => rfl
  | [a], [b] => exact h
  | a :: a' :: as, b :: b' :: bs =>
    rw [List.intersperse_cons_cons, List.intersperse_cons_cons] at h
    obtain ⟨heq, htail⟩ := List.cons.inj h
    rw [heq, intersperse_inj (List.cons.inj htail).2]
  | [], [b] | [], b :: b' :: bs | [a], [] | [a], b :: b' :: bs | a :: a' :: as, []
  | a :: a' :: as, [b] => simp at h

/-! ### The operator of a row -/

/-- The dividers in the middle of a comparison. -/
def symbolOf (w : List Mark) : List Mark :=
  (w.dropWhile fun m => !divides m).takeWhile divides

/-- The operators that are written as symbols. -/
def comparisons : List Operator :=
  [.equal, .notEqual, .less, .lessEqual, .greater, .greaterEqual]

/-- The operator of a row of words.  `IS NOT` is told from `IS` by the number of words, since an
operand might be the word `NOT`. -/
def readOperator : List (List Mark) → Operator
  | [] => .invalid
  | [w] => (comparisons.find? fun op => shown (spelling op).1 == symbolOf w).getD .invalid
  | [_, _] => .not
  | _ :: v :: u :: rest =>
      if v = shown "AND".toList then .and
      else if v = shown "OR".toList then .or
      else if v = shown "LIKE".toList then .like
      else if v = shown "BETWEEN".toList then .between
      else if v = shown "IN".toList then .isIn
      else if v = shown "IS".toList then if rest = [] then .is else .isNot
      else if u = shown "LIKE".toList then .notLike
      else if u = shown "BETWEEN".toList then .notBetween
      else .notIn

/-- Where a run of elements stops. -/
theorem span_append {α : Type} {p : α → Bool} {s t : List α} (hs : ∀ x ∈ s, p x = true)
    (ht : ∀ x ∈ t.head?, p x = false) :
    (s ++ t).takeWhile p = s ∧ (s ++ t).dropWhile p = t := by
  rw [List.takeWhile_append_of_pos hs, List.dropWhile_append_of_pos hs]
  cases t with
  | nil => exact ⟨List.append_nil s, rfl⟩
  | cons x t =>
    have hx : p x = false := ht x rfl
    simp [hx]

/-- A comparison of solid operands falls apart at its symbol. -/
theorem comparison_apart {op : Operator} (hop : op ∈ comparisons) {a b : List Mark}
    (ha : IsSolid a) (hb : IsSolid b) :
    let w := a ++ trail (shown (spelling op).1) [] [b]
    symbolOf w = shown (spelling op).1 ∧ w.takeWhile (fun m => !divides m) = a ∧
      (w.dropWhile fun m => !divides m).dropWhile divides = b := by
  intro w
  have key : ∀ op ∈ comparisons, (∀ m ∈ shown (spelling op).1, divides m = true) ∧
      shown (spelling op).1 ≠ [] := by decide
  obtain ⟨hall, hne⟩ := key op hop
  have hw : w = a ++ (shown (spelling op).1 ++ b) := by
    change a ++ trail _ [] [b] = _
    rw [trail, trail, List.append_nil]
  have hstop : ∀ m ∈ (shown (spelling op).1 ++ b).head?, (!divides m) = false := by
    obtain ⟨m, symbol, hsymbol⟩ := List.exists_cons_of_ne_nil hne
    rw [hsymbol] at hall ⊢
    intro m' hm'
    cases hm'
    rw [hall m (by simp)]
    rfl
  obtain ⟨htake, hdrop⟩ := span_append (fun m hm => by rw [ha m hm]; rfl) hstop
  obtain ⟨htake', hdrop'⟩ := span_append hall fun m hm => hb m (List.mem_of_mem_head? hm)
  rw [symbolOf, hw, htake, hdrop, htake', hdrop']
  exact ⟨rfl, rfl, rfl⟩

theorem comparison_inj {op : Operator} (hop : op ∈ comparisons) {a b a' b' : List Mark}
    (ha : IsSolid a) (hb : IsSolid b) (ha' : IsSolid a') (hb' : IsSolid b')
    (h : a ++ trail (shown (spelling op).1) [] [b] = a' ++ trail (shown (spelling op).1) [] [b']) :
    a = a' ∧ b = b' := by
  obtain ⟨-, hleft, hright⟩ := comparison_apart hop ha hb
  obtain ⟨-, hleft', hright'⟩ := comparison_apart hop ha' hb'
  rw [h] at hleft hright
  exact ⟨hleft.symm.trans hleft', hright.symm.trans hright'⟩

/-- The operator can be read from its row of words. -/
theorem readOperator_row {op : Operator} {mss : List (List Mark)}
    (htakes : takes op mss.length = true) (hsolid : ∀ ms ∈ mss, IsSolid ms) :
    readOperator (row op mss) = op := by
  have two : mss.length = 2 → ∃ a b, mss = [a, b] := List.length_eq_two.1
  have three : mss.length = 3 → ∃ a b c, mss = [a, b, c] := List.length_eq_three.1
  cases op with
  | invalid => cases htakes
  | equal | notEqual | less | lessEqual | greater | greaterEqual =>
    obtain ⟨a, b, rfl⟩ := two (by simpa [takes] using htakes)
    obtain ⟨ha, hb⟩ : IsSolid a ∧ IsSolid b := by simpa using hsolid
    rw [row, readOperator, (comparison_apart (by decide) ha hb).1]
    rfl
  | not =>
    obtain ⟨a, rfl⟩ := List.length_eq_one_iff.1 (show mss.length = 1 by simpa [takes] using htakes)
    rfl
  | is | isNot =>
    obtain ⟨a, b, rfl⟩ := two (by simpa [takes] using htakes)
    rfl
  | like | notLike =>
    rcases (show mss.length = 2 ∨ mss.length = 3 by simpa [takes] using htakes) with hlen | hlen
    · obtain ⟨a, b, rfl⟩ := two hlen
      rfl
    · obtain ⟨a, b, c, rfl⟩ := three hlen
      rfl
  | between | notBetween =>
    obtain ⟨a, b, c, rfl⟩ := three (by simpa [takes] using htakes)
    rfl
  | isIn | notIn =>
    obtain ⟨a, rest, rfl⟩ := List.exists_cons_of_length_pos (one_le_of_takes htakes)
    rfl
  | and | or =>
    obtain ⟨a, rest, rfl⟩ := List.exists_cons_of_length_pos (one_le_of_takes htakes)
    obtain ⟨b, rest, rfl⟩ := List.exists_cons_of_ne_nil (l := rest) <| by
      rintro rfl
      simp [takes] at htakes
    cases rest with
    | nil => rfl
    | cons c rest => rfl

/-- A single solid word is no row of an operator. -/
theorem readOperator_solid {ms : List Mark} (h : IsSolid ms) : readOperator [ms] = .invalid := by
  have hdrop : ms.dropWhile (fun m => !divides m) = [] :=
    List.dropWhile_eq_nil_iff.2 fun m hm => by rw [h m hm]; rfl
  rw [readOperator, symbolOf, hdrop]
  rfl

theorem mem_intersperse {α : Type} {x y : α} {as : List α} (h : y ∈ as.intersperse x) :
    y = x ∨ y ∈ as := by
  match as with
  | [] => cases h
  | [a] => exact .inr h
  | a :: a' :: as =>
    rw [List.intersperse_cons_cons, List.mem_cons, List.mem_cons] at h
    rcases h with rfl | rfl | h
    · exact .inr (by simp)
    · exact .inl rfl
    · exact (mem_intersperse h).imp_right fun h => List.mem_cons_of_mem _ h

theorem mem_trail {α : Type} {x : α} {first others : List α} {ts : List (List α)}
    (h : x ∈ trail first others ts) : x ∈ first ∨ x ∈ others ∨ ∃ t ∈ ts, x ∈ t := by
  induction ts generalizing first with
  | nil => cases h
  | cons t ts ih =>
    rw [trail, List.mem_append, List.mem_append] at h
    rcases h with (h | h) | h
    · exact .inl h
    · exact .inr (.inr ⟨t, by simp, h⟩)
    · rcases ih h with h | h | ⟨u, hu, h⟩
      · exact .inr (.inl h)
      · exact .inr (.inl h)
      · exact .inr (.inr ⟨u, by simp [hu], h⟩)

/-- The words of an operator over solid operands hold no space. -/
theorem space_notMem_row (op : Operator) {mss : List (List Mark)}
    (hsolid : ∀ ms ∈ mss, IsSolid ms) : ∀ w ∈ row op mss, space ∉ w := by
  have hspace : ∀ w ∈ mss, space ∉ w := fun w hw => (hsolid w hw).space_notMem
  have hlead : ∀ w ∈ (leadWords op).map shown, space ∉ w := by
    have key : ∀ w ∈ leadWords op, space ∉ shown w := by cases op <;> decide
    simpa using key
  have hlink : space ∉ shown (linkWord op) := by cases op <;> decide
  have hlisted : ∀ rest, space ∉ topLevel.listed rest := fun rest =>
    (isSolid_hidden _).space_notMem
  cases mss with
  | nil => exact fun w hw => absurd hw List.not_mem_nil
  | cons ms rest =>
    cases op with
    | equal | notEqual | less | lessEqual | greater | greaterEqual =>
      refine List.forall_mem_singleton.2 fun h => ?_
      rcases List.mem_append.1 h with h | h
      · exact hspace ms (by simp) h
      · rcases mem_trail h with h | h | ⟨t, ht, h⟩
        · exact absurd h (by decide)
        · cases h
        · exact hspace t (by simp [ht]) h
    | not =>
      exact List.forall_mem_cons.2 ⟨by decide, List.forall_mem_singleton.2 (hspace ms (by simp))⟩
    | isIn | notIn =>
      refine List.forall_mem_cons.2 ⟨hspace ms (by simp), fun w hw => ?_⟩
      rcases List.mem_append.1 hw with hw | hw
      · exact hlead w hw
      · rw [List.mem_singleton.1 hw]
        exact hlisted rest
    | invalid | and | or | is | isNot | like | notLike | between | notBetween =>
      refine List.forall_mem_cons.2 ⟨hspace ms (by simp), fun w hw => ?_⟩
      rcases List.mem_append.1 hw with hw | hw
      · exact hlead w hw
      · rcases mem_intersperse hw with rfl | hw
        · exact hlink
        · exact hspace w (by simp [hw])

/-! ### The operands of a row -/

variable {d : Dialect}

/-- A list in parentheses can be taken apart. -/
theorem listed_inj (hd : d.IsCommon) {ts ts' : List Sql} {mss mss' : List (List Mark)}
    (h : List.Forall₂ (Closed d) ts mss) (h' : List.Forall₂ (Closed d) ts' mss')
    (hsolid : ∀ ms ∈ mss, IsSolid ms) (hsolid' : ∀ ms ∈ mss', IsSolid ms) (hne : mss ≠ [])
    (hne' : mss' ≠ []) (heq : topLevel.listed mss = topLevel.listed mss') : mss = mss' := by
  have hflat : ∀ c ∈ ", ".toList, IsFlat d c := isFlat_of_separator hd (by decide)
  have hlist := closed_intercalate hd.hasAsciiQuote ", ".toList hflat (by decide) h
  have hlist' := closed_intercalate hd.hasAsciiQuote ", ".toList hflat (by decide) h'
  -- The lists have the same text, and the marks of a text are determined.
  have hchars := parenthesized_inj (hidden_inj heq)
  rw [hlist.chars_eq, hlist'.chars_eq] at hchars
  have hmarks := hlist.exposure_eq 0
  rw [hchars, hlist'.exposure_eq 0] at hmarks
  exact intercalate_inj (fun ms hms => (hsolid ms hms).notMem (by decide))
    (fun ms hms => (hsolid' ms hms).notMem (by decide)) hne hne' hmarks.symm

/-- The operands can be read from the row of words of an operator. -/
theorem row_inj (hd : d.IsCommon) {op : Operator} {os os' : List Operand}
    {mss mss' : List (List Mark)} (htakes : takes op mss.length = true)
    (htakes' : takes op mss'.length = true)
    (h : List.Forall₂ (fun o ms => Closed d (o.within op) ms) os mss)
    (h' : List.Forall₂ (fun o ms => Closed d (o.within op) ms) os' mss')
    (hsolid : ∀ ms ∈ mss, IsSolid ms) (hsolid' : ∀ ms ∈ mss', IsSolid ms)
    (heq : row op mss = row op mss') : mss = mss' := by
  have two : ∀ {mss : List (List Mark)}, mss.length = 2 → ∃ a b, mss = [a, b] :=
    List.length_eq_two.1
  cases op with
  | invalid => cases htakes
  | equal | notEqual | less | lessEqual | greater | greaterEqual =>
    obtain ⟨a, b, rfl⟩ := two (by simpa [takes] using htakes)
    obtain ⟨a', b', rfl⟩ := two (by simpa [takes] using htakes')
    obtain ⟨ha, hb⟩ : IsSolid a ∧ IsSolid b := by simpa using hsolid
    obtain ⟨ha', hb'⟩ : IsSolid a' ∧ IsSolid b' := by simpa using hsolid'
    obtain ⟨rfl, rfl⟩ := comparison_inj (by decide) ha hb ha' hb' (List.cons.inj heq).1
    rfl
  | not =>
    obtain ⟨a, rfl⟩ := List.length_eq_one_iff.1 (show mss.length = 1 by simpa [takes] using htakes)
    obtain ⟨a', rfl⟩ := List.length_eq_one_iff.1
      (show mss'.length = 1 by simpa [takes] using htakes')
    rw [(List.cons.inj (List.cons.inj heq).2).1]
  | isIn | notIn =>
    obtain ⟨a, rest, rfl⟩ := List.exists_cons_of_length_pos (one_le_of_takes htakes)
    obtain ⟨a', rest', rfl⟩ := List.exists_cons_of_length_pos (one_le_of_takes htakes')
    obtain ⟨o, os, -, hrest, rfl⟩ := List.forall₂_cons_right_iff.1 h
    obtain ⟨o', os', -, hrest', rfl⟩ := List.forall₂_cons_right_iff.1 h'
    have hne : rest ≠ [] := by
      rintro rfl
      simp [takes] at htakes
    have hne' : rest' ≠ [] := by
      rintro rfl
      simp [takes] at htakes'
    obtain ⟨ha, hlisted⟩ := List.cons.inj heq
    have hlisted := (List.cons.inj (List.append_cancel_left hlisted)).1
    rw [ha, listed_inj hd (List.forall₂_map_left_iff.2 hrest) (List.forall₂_map_left_iff.2 hrest')
      (fun ms hms => hsolid ms (by simp [hms])) (fun ms hms => hsolid' ms (by simp [hms])) hne hne'
      hlisted]
  | and | or | is | isNot | like | notLike | between | notBetween =>
    obtain ⟨a, rest, rfl⟩ := List.exists_cons_of_length_pos (one_le_of_takes htakes)
    obtain ⟨a', rest', rfl⟩ := List.exists_cons_of_length_pos (one_le_of_takes htakes')
    obtain ⟨ha, hrest⟩ := List.cons.inj heq
    rw [ha, intersperse_inj (List.append_cancel_left hrest)]

/-! ### Leaves -/

theorem exists_opensWith (hq : d.IsQuoted) {n : Node} {t : Sql} (hn : n.isPredicate = false)
    (h : sql d n = .ok t) : ∃ c rest, t = c :: rest ∧ n.OpensWith c := by
  cases n with
  | predicate op children => cases hn
  | column name =>
    obtain ⟨-, rfl⟩ := sql_column_iff.1 h
    rcases hq with hq | hq <;> rw [Dialect.identifier, hq]
    · exact ⟨_, _, rfl, by simp [Node.OpensWith]⟩
    · exact ⟨_, _, rfl, by simp [Node.OpensWith]⟩
  | constant v =>
    rcases literal_cases (sql_constant_iff.1 h) with ⟨s, -, rfl⟩ | hliteral
    · exact ⟨_, _, rfl, .inl rfl⟩
    · have hword := isWord_of_literal hliteral
      obtain ⟨c, rest, rfl⟩ := List.exists_cons_of_ne_nil hword.1
      exact ⟨c, rest, rfl, .inr (hword.2 c (by simp))⟩
  | placeholder type i =>
    obtain ⟨-, rfl⟩ := sql_placeholder_iff.1 h
    exact ⟨_, _, rfl, rfl⟩

/-- Leaves of different kinds begin differently, and none begins with a parenthesis. -/
theorem opensWith_disjoint (c : Char) :
    (c ∈ ['\x60', '\x22'] → ¬ (c = '\'' ∨ isWordChar c = true) ∧ c ≠ markerOpen ∧ c ≠ '(') ∧
      (c = '\'' ∨ isWordChar c = true → c ≠ markerOpen ∧ c ≠ '(') := by
  constructor
  · revert c
    decide
  · rintro (rfl | hc)
    · decide
    · constructor <;>
      · rintro rfl
        exact absurd hc (by decide)

/-- Leaves with the same text are alike. -/
theorem alike_of_leaves (hq : d.IsQuoted) {n n' : Node} {t : Sql} (hn : n.isPredicate = false)
    (hn' : n'.isPredicate = false) (h : sql d n = .ok t) (h' : sql d n' = .ok t) :
    n.Alike d n' := by
  obtain ⟨c, rest, rfl, hc⟩ := exists_opensWith hq hn h
  obtain ⟨c', rest', heq, hc'⟩ := exists_opensWith hq hn' h'
  obtain ⟨rfl, rfl⟩ := List.cons.inj heq
  have hdisjoint := opensWith_disjoint c
  cases n with
  | predicate op children => cases hn
  | column name =>
    cases n' with
    | predicate op children => cases hn'
    | column name' =>
      have htext := (sql_column_iff.1 h).2.trans (sql_column_iff.1 h').2.symm
      rw [identifier_inj hq htext]
      exact .column name'
    | constant v => exact absurd hc' (hdisjoint.1 hc).1
    | placeholder type i => exact absurd hc' (hdisjoint.1 hc).2.1
  | constant v =>
    cases n' with
    | predicate op children => cases hn'
    | column name' => exact absurd hc (hdisjoint.1 hc').1
    | constant w => exact .constant (sql_constant_iff.1 h) (sql_constant_iff.1 h')
    | placeholder type i => exact absurd hc' (hdisjoint.2 hc).1
  | placeholder type i =>
    cases n' with
    | predicate op children => cases hn'
    | column name' => exact absurd hc (hdisjoint.1 hc').2.1
    | constant w => exact absurd hc (hdisjoint.2 hc').1
    | placeholder type' j =>
      have htext := (sql_placeholder_iff.1 h).2.trans (sql_placeholder_iff.1 h').2.symm
      rw [UInt64.toNat_inj.1 (marker_inj htext)]
      exact .placeholder type type' j

/-! ### Trees -/

/-- Operands with the same text as they stand within an operator are alike, if all trees with the
text of the first are. -/
theorem alike_of_within (hq : d.IsQuoted) (op : Operator) {n n' : Node} {o o' : Operand}
    (ho : IsOperand d n o) (ho' : IsOperand d n' o')
    (ih : ∀ n', sql d n' = .ok o.text → n.Alike d n') (h : o.within op = o'.within op) :
    n.Alike d n' := by
  have htext : o.text = o'.text → n.Alike d n' := fun h => ih n' (h ▸ ho'.2)
  -- The text of a leaf does not begin with a parenthesis.
  have hleaf : ∀ {n : Node} {o : Operand}, n.isPredicate = false → IsOperand d n o →
      ∀ t, o.text ≠ parenthesized t := by
    intro n o hn ho t heq
    obtain ⟨c, rest, hc, hopens⟩ := exists_opensWith hq hn ho.2
    have hparen : c = '(' := (List.cons.inj (hc.symm.trans heq)).1
    have hdisjoint := opensWith_disjoint c
    cases n with
    | predicate op children => cases hn
    | column name => exact (hdisjoint.1 hopens).2.2 hparen
    | constant v => exact (hdisjoint.2 hopens).2 hparen
    | placeholder type i =>
      rw [hparen] at hopens
      exact absurd (show '(' = markerOpen from hopens) (by decide)
  have hgrouped : o.grouped = o'.grouped → n.Alike d n' := by
    rw [Operand.grouped, Operand.grouped, ho.1, ho'.1]
    -- Only predicates stand in parentheses, so the kinds of the two must agree.
    cases hn : n.isPredicate <;> cases hn' : n'.isPredicate <;> intro h
    · exact htext h
    · exact absurd h (hleaf hn ho _)
    · exact absurd h.symm (hleaf hn' ho' _)
    · exact htext (parenthesized_inj h)
  cases op <;> first
    | exact hgrouped h
    | exact htext (parenthesized_inj h)

theorem alike_of_operands (hq : d.IsQuoted) (op : Operator) {ns ns' : List Node}
    {os os' : List Operand}
    (h : List.Forall₂ (fun n o => IsOperand d n o ∧
      ∀ n', sql d n' = .ok o.text → n.Alike d n') ns os)
    (h' : List.Forall₂ (IsOperand d) ns' os')
    (heq : os.map (Operand.within op) = os'.map (Operand.within op)) :
    List.Forall₂ (Node.Alike d) ns ns' := by
  induction h generalizing ns' os' with
  | nil =>
    cases h' with
    | nil => exact .nil
    | cons ho' h' => cases heq
  | cons ho _ ih =>
    cases h' with
    | nil => cases heq
    | cons ho' h' =>
      obtain ⟨hwithin, hrest⟩ := List.cons.inj heq
      exact .cons (alike_of_within hq op ho.1 ho' ho.2 hwithin) (ih h' hrest)

theorem row_ne_nil {op : Operator} {mss : List (List Mark)} (htakes : takes op mss.length = true) :
    row op mss ≠ [] := by
  obtain ⟨ms, rest, rfl⟩ := List.exists_cons_of_length_pos (one_le_of_takes htakes)
  cases op <;> exact List.cons_ne_nil _ _

/-- The fragment of a leaf is not that of an operator. -/
theorem sql_leaf_ne (hd : d.IsCommon) {n : Node} {op : Operator} {ns : List Node} {t : Sql}
    (hn : n.isPredicate = false) (h : sql d n = .ok t) : sql d (.predicate op ns) ≠ .ok t := by
  intro h'
  obtain ⟨htakes, os, hos, rfl⟩ := sql_predicate_iff.1 h'
  obtain ⟨mss, htakes, -, hclosed, hsolid, -⟩ := exists_topLevel hd htakes hos
  obtain ⟨ms, hatom⟩ := isAtom_leaf hd hn h
  have hmarks := hclosed.exposure_eq 0
  rw [hatom.closed.exposure_eq 0, topLevel_eq_unwords htakes] at hmarks
  -- The leaf shows a single word, and no operator is read from that.
  have hrow : row op mss = [ms] := unwords_inj (space_notMem_row op hsolid)
    (List.forall_mem_singleton.2 hatom.isSolid.space_notMem) (row_ne_nil htakes)
    (List.cons_ne_nil _ _) (hmarks.symm.trans (List.append_nil ms).symm)
  have hop := readOperator_row htakes hsolid
  rw [hrow, readOperator_solid hatom.isSolid] at hop
  rw [← hop] at htakes
  cases htakes

/-- Operators with the same fragment are the same, over operands with the same texts. -/
theorem assemble_inj (hd : d.IsCommon) {op op' : Operator} {ns ns' : List Node}
    {os os' : List Operand} (htakes : takes op ns.length = true)
    (htakes' : takes op' ns'.length = true) (hos : List.Forall₂ (IsOperand d) ns os)
    (hos' : List.Forall₂ (IsOperand d) ns' os') (h : assemble op os = assemble op' os') :
    op = op' ∧ os.map (Operand.within op) = os'.map (Operand.within op) := by
  obtain ⟨mss, htakes, hmss, hclosed, hsolid, -⟩ := exists_topLevel hd htakes hos
  obtain ⟨mss', htakes', hmss', hclosed', hsolid', -⟩ := exists_topLevel hd htakes' hos'
  have hmarks := hclosed.exposure_eq 0
  rw [h, hclosed'.exposure_eq 0, topLevel_eq_unwords htakes, topLevel_eq_unwords htakes'] at hmarks
  have hrow : row op mss = row op' mss' := unwords_inj (space_notMem_row op hsolid)
    (space_notMem_row op' hsolid') (row_ne_nil htakes) (row_ne_nil htakes') hmarks.symm
  have hop : op = op' := by
    rw [← readOperator_row htakes hsolid, hrow, readOperator_row htakes' hsolid']
  subst hop
  refine ⟨rfl, ?_⟩
  rw [map_within_eq hmss, map_within_eq hmss',
    row_inj hd htakes htakes' hmss hmss' hsolid hsolid' hrow]

/-- Trees with the same fragment are alike. -/
theorem alike_of_sql (hq : d.IsQuoted) (n : Node) (t : Sql) (h : sql d n = .ok t) :
    ∀ n', sql d n' = .ok t → n.Alike d n' := by
  have hd := hq.isCommon
  refine sql_induction (P := fun n t => ∀ n', sql d n' = .ok t → n.Alike d n')
    (fun n t hn h n' h' => ?_) (fun op ns os htakes hos n' h' => ?_) n t h
  · cases hn' : n'.isPredicate with
    | false => exact alike_of_leaves hq hn hn' h h'
    | true =>
      cases n' with
      | predicate op ns => exact absurd h' (sql_leaf_ne hd hn h)
      | _ => cases hn'
  · have hoperands : List.Forall₂ (IsOperand d) ns os := hos.imp fun n o ho => ho.1
    cases hn' : n'.isPredicate with
    | false =>
      exact absurd (sql_predicate_iff.2 ⟨htakes, os, hoperands, rfl⟩) (sql_leaf_ne hd hn' h')
    | true =>
      cases n' with
      | predicate op' ns' =>
        obtain ⟨htakes', os', hos', htext⟩ := sql_predicate_iff.1 h'
        obtain ⟨rfl, hwithin⟩ := assemble_inj hd htakes htakes' hoperands hos' htext
        exact .predicate op (alike_of_operands hq op hos hos' hwithin)
      | _ => cases hn'

/-- **A fragment determines its filter.**  Accepted filters with the same fragment have the same
operators over the same children in the same order, the same columns, constants with the same
literal, and placeholders for the same parameters. -/
theorem alike_of_pushdown_eq (hq : d.IsQuoted) {f g : Filter} {text : Sql}
    (hf : pushdown d f = .accepted text) (hg : pushdown d g = .accepted text) :
    f.root.Alike d g.root :=
  alike_of_sql hq f.root text (pushdown_eq_accepted_iff.1 hf) g.root (pushdown_eq_accepted_iff.1 hg)

/-- Types of placeholders and of numbers are not written. -/
theorem alike_of_pushdown_eq_types :
    let f : Filter := ⟨.or, [
      .predicate .notIn [.column "a", .constant (.int 5), .placeholder .utf8 0],
      .predicate .not [.predicate .is [.column "NULL", .constant .null]]]⟩
    let g : Filter := ⟨.or, [
      .predicate .notIn [.column "a", .constant (.uint 5), .placeholder .int32 0],
      .predicate .not [.predicate .is [.column "NULL", .constant .null]]]⟩
    let text := "(\x60a\x60 NOT IN (5, \x7b0\x7d)) OR (NOT (\x60NULL\x60 IS NULL))".toList
    pushdown .mysql f = .accepted text ∧ pushdown .mysql g = .accepted text ∧
      f.root.Alike .mysql g.root := by
  intro f g text
  have hf : pushdown .mysql f = .accepted text := rfl
  have hg : pushdown .mysql g = .accepted text := rfl
  exact ⟨hf, hg, alike_of_pushdown_eq (.inl rfl) hf hg⟩

end Fragment

end ExternalTable
