import ExternalTable.Proofs.Spelling

/-!
# Binding and substitution

Binding parameters into the fragment of a tree gives the fragment of the tree with the parameters
put in place of its placeholders.  The reader of fragments knows nothing of the tree, so the proof
shows of every text that occurs in a fragment what the reader makes of it, whatever follows.

* `Node.placeholders`, `Node.substitute`: the placeholders of a tree, and values in their place;
* `supply`: the parameters that binding asks for, up to the first that has no literal;
* `Fills`: what the reader makes of a text whose markers have given numbers;
* `fills_sql`: the same for the fragment of a tree;
* `bind_pushdown`: the main statement.
-/

namespace ExternalTable

namespace Node

mutual

/-- The numbers of the placeholders of a tree, from left to right. -/
def placeholders : Node → List UInt64
  | .placeholder _ index => [index]
  | .predicate _ children => placeholdersAll children
  | _ => []

/-- The numbers of the placeholders of several trees. -/
def placeholdersAll : List Node → List UInt64
  | [] => []
  | n :: ns => placeholders n ++ placeholdersAll ns

end

mutual

/-- The tree with a constant in place of every placeholder whose number has a value. -/
def substitute (value? : UInt64 → Option Value) : Node → Node
  | .placeholder type index =>
      match value? index with
      | some v => .constant v
      | none => .placeholder type index
  | .predicate op children => .predicate op (substituteAll value? children)
  | .column name => .column name
  | .constant v => .constant v

/-- The same in several trees. -/
def substituteAll (value? : UInt64 → Option Value) : List Node → List Node
  | [] => []
  | n :: ns => substitute value? n :: substituteAll value? ns

end

variable {f g : UInt64 → Option Value}

theorem isPredicate_substitute (n : Node) : (n.substitute f).isPredicate = n.isPredicate := by
  cases n with
  | placeholder type i =>
    rw [substitute]
    split <;> rfl
  | column name => rfl
  | constant v => rfl
  | predicate op children => rfl

theorem length_substituteAll (ns : List Node) : (substituteAll f ns).length = ns.length := by
  induction ns with
  | nil => rfl
  | cons n ns ih => simp [substituteAll, ih]

mutual

/-- Only the values of the tree's own placeholders matter. -/
theorem substitute_congr (n : Node) (h : ∀ i ∈ n.placeholders, f i = g i) :
    n.substitute f = n.substitute g := by
  cases n with
  | column name => rfl
  | constant v => rfl
  | placeholder type i => rw [substitute, substitute, h i (by simp [placeholders])]
  | predicate op children => rw [substitute, substitute, substituteAll_congr children h]

theorem substituteAll_congr (ns : List Node) (h : ∀ i ∈ placeholdersAll ns, f i = g i) :
    substituteAll f ns = substituteAll g ns := by
  cases ns with
  | nil => rfl
  | cons n ns =>
    rw [substituteAll, substituteAll,
      substitute_congr n fun i hi => h i (List.mem_append_left _ hi),
      substituteAll_congr ns fun i hi => h i (List.mem_append_right _ hi)]

end

end Node

/-- The filter with parameters in place of its placeholders. -/
def Filter.substitute (params : List Value) (f : Filter) : Filter :=
  ⟨f.operator, Node.substituteAll (fun i => params[i.toNat]?) f.children⟩

theorem Filter.root_substitute (params : List Value) (f : Filter) :
    (f.substitute params).root = f.root.substitute fun i => params[i.toNat]? := by
  rw [Filter.root, Filter.root, Node.substitute]
  rfl

namespace Fragment

/-! ### Parameters -/

/-- There is a parameter of a given number, and it has a literal. -/
def Supplied (d : Dialect) (params : List Value) (index : UInt64) : Prop :=
  ∃ v text, params[index.toNat]? = some v ∧ v.literal d = .ok text

/-- Asks for the parameters of some numbers, up to the first that has no literal. -/
def supply (d : Dialect) (params : List Value) : List UInt64 → Except FragmentError Unit
  | [] => .ok ()
  | i :: rest =>
      match parameter d params i.toNat with
      | .error e => .error e
      | .ok _ => supply d params rest

variable {d : Dialect} {params : List Value}

theorem supplied_iff_parameter {i : UInt64} :
    Supplied d params i ↔ ∃ text, parameter d params i.toNat = .ok text := by
  rw [Supplied, parameter]
  cases params[i.toNat]? with
  | none => simp
  | some v => cases hv : v.literal d <;> simp [hv]

theorem supply_append (is js : List UInt64) :
    supply d params (is ++ js) = (supply d params is).bind fun _ => supply d params js := by
  induction is with
  | nil => rfl
  | cons i is ih =>
    rw [List.cons_append, supply, supply]
    cases parameter d params i.toNat with
    | error e => rfl
    | ok text => exact ih

/-- Every parameter is supplied, or there is a first that is not. -/
theorem supply_cases (d : Dialect) (params : List Value) (is : List UInt64) :
    (supply d params is = .ok () ∧ ∀ i ∈ is, Supplied d params i) ∨
      ∃ before i after e, is = before ++ i :: after ∧ (∀ j ∈ before, Supplied d params j) ∧
        parameter d params i.toNat = .error e ∧ supply d params is = .error e := by
  induction is with
  | nil => exact .inl ⟨rfl, by simp⟩
  | cons i is ih =>
    rw [supply]
    cases hi : parameter d params i.toNat with
    | error e => exact .inr ⟨[], i, is, e, rfl, by simp, hi, rfl⟩
    | ok text =>
      have hsupplied : Supplied d params i := supplied_iff_parameter.2 ⟨text, hi⟩
      rcases ih with ⟨hok, hall⟩ | ⟨before, j, after, e, rfl, hbefore, hj, he⟩
      · exact .inl ⟨hok, by simpa [hsupplied] using hall⟩
      · exact .inr ⟨i :: before, j, after, e, rfl, by simpa [hsupplied] using hbefore, hj, he⟩

theorem supply_eq_ok_iff {is : List UInt64} :
    supply d params is = .ok () ↔ ∀ i ∈ is, Supplied d params i := by
  rcases supply_cases d params is with ⟨hok, hall⟩ | ⟨before, i, after, e, rfl, -, hi, he⟩
  · exact ⟨fun _ => hall, fun _ => hok⟩
  · refine ⟨fun hok => ?_, fun hall => ?_⟩
    · rw [he] at hok
      cases hok
    · obtain ⟨text, htext⟩ := supplied_iff_parameter.1 (hall i (by simp))
      rw [hi] at htext
      cases htext

/-! ### What the reader makes of a text -/

/-- The reader copies a text, but for markers of the given numbers, in whose place it writes their
parameters, and goes on outside of sections.  The whole is then `bound`, provided that all these
parameters are supplied. -/
def Fills (d : Dialect) (params : List Value) (text : Sql) (indices : List UInt64) (bound : Sql) :
    Prop :=
  ∀ offset rest, Clear d rest →
    (Cursor.text .outside).run d params offset (text ++ rest) =
      (supply d params indices).bind fun _ =>
        ((Cursor.text .outside).run d params (offset + encodedLength text) rest).map (bound ++ ·)

/-- A character that the reader copies outside of sections. -/
def IsPlain (d : Dialect) (c : Char) : Prop :=
  d.isQuote c = false ∧ c ≠ markerOpen

theorem isPlain_of_isWordChar (hd : d.IsCommon) {c : Char} (hc : isWordChar c = true) :
    IsPlain d c :=
  ⟨isQuote_of_isWordChar hd hc, by rintro rfl; exact absurd hc (by decide)⟩

theorem isPlain_of_isSeparatorChar (hd : d.IsCommon) {c : Char} (hc : isSeparatorChar c = true) :
    IsPlain d c :=
  ⟨isQuote_of_isSeparatorChar hd hc, by rintro rfl; exact absurd hc (by decide)⟩

theorem map_map_append (r : Except FragmentError Sql) (s t : Sql) :
    (r.map (t ++ ·)).map (s ++ ·) = r.map (s ++ t ++ ·) := by
  cases r <;> simp [Except.map]

/-- Plain characters are copied, whatever follows them. -/
theorem run_plain (hd : d.HasAsciiQuote) {s : Sql} (hs : ∀ c ∈ s, IsPlain d c) (offset : Nat)
    (rest : Sql) :
    (Cursor.text .outside).run d params offset (s ++ rest) =
      ((Cursor.text .outside).run d params (offset + encodedLength s) rest).map (s ++ ·) := by
  induction s generalizing offset with
  | nil => cases h : (Cursor.text .outside).run d params offset rest <;> simp [Except.map, h]
  | cons c s ih =>
    obtain ⟨hquote, hopen⟩ := hs c (by simp)
    have hstep : (Cursor.text .outside).step d params offset c = .ok (.text .outside, [c]) := by
      simp [Cursor.step, Place.read_outside hd hquote, hopen]
    rw [List.cons_append, Cursor.run, hstep, encodedLength_cons, ← Nat.add_assoc]
    change ((Cursor.text .outside).run d params (offset + c.utf8Size) (s ++ rest)).map _ = _
    rw [ih (fun c hc => hs c (by simp [hc])), map_map_append]
    rfl

/-- Where the reader stays inside sections it copies. -/
theorem run_staysInside {p : Place} {offset : Nat} {s : Sql} (hs : p.StaysInside d offset s)
    (rest : Sql) :
    (Cursor.text p).run d params offset (s ++ rest) =
      ((Cursor.text (p.readAll d offset s)).run d params (offset + encodedLength s) rest).map
        (s ++ ·) := by
  induction s generalizing offset p with
  | nil =>
    cases h : (Cursor.text p).run d params offset rest <;> simp [Except.map, Place.readAll, h]
  | cons c s ih =>
    have hstep : (Cursor.text p).step d params offset c = .ok (.text (p.read d offset c), [c]) := by
      simp [Cursor.step, hs.1]
    rw [List.cons_append, Cursor.run, hstep, encodedLength_cons, ← Nat.add_assoc]
    change ((Cursor.text (p.read d offset c)).run d params (offset + c.utf8Size)
      (s ++ rest)).map _ = _
    rw [ih hs.2, map_map_append]
    rfl

/-- A text that does not prolong the section before it is read as if it stood outside. -/
theorem run_closing (hd : d.HasAsciiQuote) {q : Char} (hq : d.isQuote q = true) (e : Bool)
    (start offset : Nat) {rest : Sql} (hrest : Clear d rest) :
    (Cursor.text (.closing (byteOf q) e start)).run d params offset rest =
      (Cursor.text .outside).run d params offset rest := by
  cases rest with
  | nil => rfl
  | cons c rest =>
    rw [Cursor.run, Cursor.run, Cursor.step, Cursor.step, hrest.read_closing hd hq]

theorem fills_plain (hd : d.HasAsciiQuote) {s : Sql} (hs : ∀ c ∈ s, IsPlain d c) :
    Fills d params s [] s :=
  fun offset rest _ => run_plain hd hs offset rest

/-- Plain characters in front of a text are copied. -/
theorem fills_plain_append (hd : d.HasAsciiQuote) {s text bound : Sql} {indices : List UInt64}
    (hs : ∀ c ∈ s, IsPlain d c) (h : Fills d params text indices bound) :
    Fills d params (s ++ text) indices (s ++ bound) := by
  intro offset rest hrest
  rw [List.append_assoc, run_plain hd hs, h _ rest hrest, encodedLength_append, ← Nat.add_assoc]
  cases supply d params indices with
  | error e => rfl
  | ok _ => exact map_map_append _ _ _

theorem fills_section (hd : d.HasAsciiQuote) {s : Sql} (hs : IsSection d s) :
    Fills d params s [] s := by
  intro offset rest hrest
  obtain ⟨hstay, q, e, hq, hread⟩ := hs offset
  rw [run_staysInside hstay, hread, run_closing hd hq e _ _ hrest]
  rfl

theorem fills_append {s t bs bt : Sql} {is js : List UInt64} (hs : Fills d params s is bs)
    (ht : Fills d params t js bt) (hclear : Clear d t) :
    Fills d params (s ++ t) (is ++ js) (bs ++ bt) := by
  intro offset rest hrest
  rw [List.append_assoc, hs _ _ (hclear.append hrest), ht _ _ hrest, supply_append,
    encodedLength_append, ← Nat.add_assoc]
  cases supply d params is with
  | error e => rfl
  | ok _ =>
    cases supply d params js with
    | error e => rfl
    | ok _ => exact map_map_append _ _ _

/-! ### Markers -/

/-- Digits of a marker are gathered into its number. -/
theorem run_digits {digits : Sql} (hdigits : ∀ c ∈ digits, c.isDigit = true) (start offset : Nat)
    (index : Option Nat) (hne : index.isSome = true ∨ digits ≠ []) (rest : Sql) :
    (Cursor.marker start index).run d params offset (digits ++ rest) =
      (Cursor.marker start (some (Nat.ofDigitChars 10 digits (index.getD 0)))).run d params
        (offset + encodedLength digits) rest := by
  induction digits generalizing offset index with
  | nil =>
    obtain ⟨n, rfl⟩ := Option.isSome_iff_exists.1 (hne.resolve_right (by simp))
    rfl
  | cons c digits ih =>
    have hc : c.isDigit = true := hdigits c (by simp)
    have hstep : (Cursor.marker start index).step d params offset c =
        .ok (.marker start (some (Cursor.appendDigit index c)), []) := by
      simp [Cursor.step, hc]
    rw [List.cons_append, Cursor.run, hstep]
    change ((Cursor.marker start (some (Cursor.appendDigit index c))).run d params _ _).map _ = _
    rw [ih (fun c hc => hdigits c (by simp [hc])) _ _ (.inl rfl), Nat.ofDigitChars_cons,
      Option.getD_some, Cursor.appendDigit, Nat.mul_comm, encodedLength_cons, Nat.add_assoc]
    cases Cursor.run d params _ _ rest <;> rfl

/-- The reader writes the parameter in place of a marker. -/
theorem fills_marker (hd : d.IsCommon) (i : UInt64) {bound : Sql}
    (hbound : ∀ text, parameter d params i.toNat = .ok text → text = bound) :
    Fills d params (marker i.toNat) [i] bound := by
  intro offset rest _
  have hopen : (Cursor.text .outside).step d params offset markerOpen =
      .ok (.marker offset none, []) := by
    have hquote : d.isQuote markerOpen = false := hd.isQuote_eq_false (by decide)
    simp [Cursor.step, Place.read_outside hd.hasAsciiQuote hquote]
  have hlt : i.toNat < twoPow 64 := i.toNat_lt
  have hclose : ∀ o, (Cursor.marker offset (some i.toNat)).step d params o markerClose =
      (parameter d params i.toNat).map fun text => (.text .outside, text) := by
    intro o
    rw [Cursor.step, if_neg (by decide)]
    simp [hlt]
  rw [marker, List.cons_append, List.cons_append, Cursor.run, hopen, List.append_assoc]
  change ((Cursor.marker offset none).run d params _ _).map _ = _
  rw [Digits.ofNat,
    run_digits (fun c hc => Nat.isDigit_of_mem_toDigits (by decide) (by decide) hc) _ _ none
      (.inr Nat.toDigits_ne_nil), Option.getD_none, Nat.ofDigitChars_ten_toDigits,
    List.singleton_append, Cursor.run, hclose, supply, supply]
  cases hp : parameter d params i.toNat with
  | error e => rfl
  | ok text =>
    rw [hbound text hp]
    simp only [Except.map, Except.bind, encodedLength_cons, encodedLength_append,
      encodedLength_nil, Nat.add_zero, Nat.add_assoc]
    cases Cursor.run d params _ _ rest <;> simp

/-! ### Fragments of trees -/

/-- What the reader makes of the texts of several operands, one after the other. -/
inductive FillsAll (d : Dialect) (params : List Value) :
    List Operand → List UInt64 → List Operand → Prop
  | nil : FillsAll d params [] [] []
  | cons {o o' : Operand} {os os' : List Operand} {is js : List UInt64} :
      o.compound = o'.compound → Fills d params o.text is o'.text → FillsAll d params os js os' →
      FillsAll d params (o :: os) (is ++ js) (o' :: os')

theorem fills_parenthesized (hd : d.IsCommon) {text bound : Sql} {is : List UInt64}
    (h : Fills d params text is bound) :
    Fills d params (parenthesized text) is (parenthesized bound) := by
  have hplain : ∀ c ∈ ['('] ++ [')'], IsPlain d c := fun c hc =>
    isPlain_of_isSeparatorChar hd (by revert c; decide)
  have hclose := fills_append h
    (fills_plain hd.hasAsciiQuote (s := [')']) fun c hc => hplain c (by simp_all))
    (clear_cons.2 (hplain ')' (by simp)).1)
  have hopen := fills_plain_append hd.hasAsciiQuote (s := ['('])
    (fun c hc => hplain c (by simp_all)) hclose
  simpa [parenthesized] using hopen

theorem fills_within (hd : d.IsCommon) (op : Operator) {o o' : Operand} {is : List UInt64}
    (hcompound : o.compound = o'.compound) (h : Fills d params o.text is o'.text) :
    Fills d params (o.within op) is (o'.within op) := by
  have hgrouped : Fills d params o.grouped is o'.grouped := by
    rw [Operand.grouped, Operand.grouped, hcompound]
    split
    · exact fills_parenthesized hd h
    · exact h
  cases op <;> first
    | exact hgrouped
    | exact fills_parenthesized hd h

theorem clear_of_isSeparatorChar (hd : d.IsCommon) {s : Sql}
    (hs : ∀ c ∈ s, isSeparatorChar c = true) : Clear d s := by
  intro c hc
  exact isQuote_of_isSeparatorChar hd (hs c (List.mem_of_mem_head? hc))

theorem fills_trail (hd : d.IsCommon) (op : Operator) {first others : Sql}
    (hfirst : ∀ c ∈ first, isSeparatorChar c = true)
    (hothers : ∀ c ∈ others, isSeparatorChar c = true) {os os' : List Operand} {is : List UInt64}
    (h : FillsAll d params os is os') (h1 : 1 ≤ os.length → first ≠ [])
    (h2 : 2 ≤ os.length → others ≠ []) :
    Fills d params (trail first others (os.map (Operand.within op))) is
        (trail first others (os'.map (Operand.within op))) ∧
      Clear d (trail first others (os.map (Operand.within op))) := by
  induction h generalizing first with
  | nil => exact ⟨fills_plain hd.hasAsciiQuote (by simp [trail]), clear_nil d⟩
  | @cons o o' os os' is js hcompound ho _ ih =>
    have hlast : 1 ≤ os.length → others ≠ [] := fun h => h2 (by simpa using h)
    obtain ⟨htail, hclear⟩ := ih hothers hlast (fun h => hlast (by omega))
    have hwithin := fills_append (fills_within hd op hcompound ho) htail hclear
    refine ⟨?_, ?_⟩
    · have := fills_plain_append hd.hasAsciiQuote
        (fun c hc => isPlain_of_isSeparatorChar hd (hfirst c hc)) hwithin
      simpa only [trail, List.map_cons, List.append_assoc] using this
    · rw [List.map_cons, trail]
      obtain ⟨c, s, rfl⟩ := List.exists_cons_of_ne_nil (h1 (by simp))
      exact clear_cons.2 (clear_cons.1 (clear_of_isSeparatorChar hd hfirst))

theorem fills_assemble (hd : d.IsCommon) {op : Operator} {os os' : List Operand}
    {is : List UInt64} (htakes : takes op os.length = true) (h : FillsAll d params os is os') :
    Fills d params (assemble op os) is (assemble op os') := by
  have hsep : ∀ {s : Sql}, (∀ c ∈ s, c ∈ (spelling op).1 ∨ c ∈ (spelling op).2 ∨ c ∈ opening op ∨
      c ∈ closing op) → ∀ c ∈ s, isSeparatorChar c = true :=
    fun hs c hc => isSeparatorChar_of_mem (hs c hc)
  obtain ⟨hfirst, hothers⟩ := spelling_ne_nil htakes
  cases h with
  | nil => exact absurd (one_le_of_takes htakes) (by simp)
  | @cons o o' os os' is js hcompound ho hos =>
    obtain ⟨htrail, hclear⟩ := fills_trail hd op (hsep fun c hc => .inl hc)
      (hsep fun c hc => .inr (.inl hc)) hos (fun h => hfirst (by simpa using h))
      (fun h => hothers (by simpa using h))
    have hclosing := hsep (s := closing op) fun c hc => .inr (.inr (.inr hc))
    have hend := fills_append htrail
      (fills_plain hd.hasAsciiQuote fun c hc => isPlain_of_isSeparatorChar hd (hclosing c hc))
      (clear_of_isSeparatorChar hd hclosing)
    have hwithin := fills_append (fills_within hd op hcompound ho) hend
      (hclear.append (clear_of_isSeparatorChar hd hclosing))
    have hopening := hsep (s := opening op) fun c hc => .inr (.inr (.inl hc))
    have := fills_plain_append hd.hasAsciiQuote
      (fun c hc => isPlain_of_isSeparatorChar hd (hopening c hc)) hwithin
    simpa only [assemble_cons, List.append_assoc, List.append_nil] using this

/-- The values of the parameters that are supplied. -/
def suppliedValue? (d : Dialect) (params : List Value) (index : UInt64) : Option Value :=
  params[index.toNat]?.filter fun v => (v.literal d).isOk

theorem suppliedValue?_eq_some_iff {i : UInt64} {v : Value} :
    suppliedValue? d params i = some v ↔
      params[i.toNat]? = some v ∧ ∃ text, v.literal d = .ok text := by
  rw [suppliedValue?, Option.filter_eq_some_iff]
  cases hv : v.literal d <;> simp [Except.isOk, Except.toBool]

/-- A leaf is copied, or it is a placeholder that its parameter replaces. -/
theorem fills_leaf (hd : d.IsCommon) {n : Node} {text : Sql} (hn : n.isPredicate = false)
    (h : sql d n = .ok text) :
    ∃ bound, sql d (n.substitute (suppliedValue? d params)) = .ok bound ∧
      Fills d params text n.placeholders bound := by
  have hcopied : IsWord text ∨ IsSection d text → Fills d params text [] text := by
    rintro (hword | hsection)
    · exact fills_plain hd.hasAsciiQuote fun c hc => isPlain_of_isWordChar hd (hword.2 c hc)
    · exact fills_section hd.hasAsciiQuote hsection
  have hcases := leaf_cases hd.hasAsciiQuote hn h
  cases n with
  | predicate op children => cases hn
  | column name =>
    refine ⟨text, h, hcopied ?_⟩
    rcases hcases with h | h | ⟨_, _, h, -⟩
    · exact .inl h
    · exact .inr h
    · cases h
  | constant v =>
    refine ⟨text, h, hcopied ?_⟩
    rcases hcases with h | h | ⟨_, _, h, -⟩
    · exact .inl h
    · exact .inr h
    · cases h
  | placeholder type i =>
    obtain ⟨-, rfl⟩ := sql_placeholder_iff.1 h
    rw [Node.substitute]
    cases hi : suppliedValue? d params i with
    -- Without a parameter binding fails, whatever is put in place of the marker.
    | none =>
      refine ⟨marker i.toNat, h, fills_marker hd i fun literal hp => ?_⟩
      obtain ⟨v, hv⟩ := supplied_iff_parameter.2 ⟨literal, hp⟩
      rw [suppliedValue?_eq_some_iff.2 ⟨hv.choose_spec.1, _, hv.choose_spec.2⟩] at hi
      cases hi
    | some v =>
      obtain ⟨hv, literal, hliteral⟩ := suppliedValue?_eq_some_iff.1 hi
      refine ⟨literal, sql_constant_iff.2 hliteral, fills_marker hd i fun literal' hp => ?_⟩
      rw [parameter, hv] at hp
      simp only [hliteral, Except.ok.injEq] at hp
      exact hp.symm

/-- The reader makes the fragment of a tree into that of the tree with the supplied parameters put
in place of its placeholders. -/
theorem fills_sql (hd : d.IsCommon) (n : Node) (text : Sql) (h : sql d n = .ok text) :
    ∃ bound, sql d (n.substitute (suppliedValue? d params)) = .ok bound ∧
      Fills d params text n.placeholders bound := by
  refine sql_induction (fun n text hn h => fills_leaf hd hn h) ?_ n text h
  intro op children os htakes hos
  -- The children keep their kinds, so the same ones stand in parentheses afterwards.
  have hchildren : ∃ os',
      List.Forall₂ (IsOperand d) (Node.substituteAll (suppliedValue? d params) children) os' ∧
        FillsAll d params os (Node.placeholdersAll children) os' := by
    clear htakes h
    induction hos with
    | nil => exact ⟨[], .nil, .nil⟩
    | @cons n o ns os ho _ ih =>
      obtain ⟨⟨hcompound, -⟩, bound, hsql, hfills⟩ := ho
      obtain ⟨os', hoperands, hall⟩ := ih
      refine ⟨⟨n.isPredicate, bound⟩ :: os', .cons ⟨?_, hsql⟩ hoperands,
        .cons hcompound hfills hall⟩
      exact (Node.isPredicate_substitute n).symm
  obtain ⟨os', hoperands, hall⟩ := hchildren
  refine ⟨assemble op os', ?_, ?_⟩
  · rw [Node.substitute, sql_predicate_iff, Node.length_substituteAll]
    exact ⟨htakes, os', hoperands, rfl⟩
  · rw [hos.length_eq] at htakes
    exact fills_assemble hd htakes hall

/-- Binding asks for the parameters of the placeholders in order.  If all are supplied, it gives the
fragment of the tree with the parameters in place of its placeholders. -/
theorem bind_sql (params : List Value) (hd : d.IsCommon) {n : Node} {text : Sql}
    (h : sql d n = .ok text) :
    ∃ bound, sql d (n.substitute (suppliedValue? d params)) = .ok bound ∧
      bind d params text = (supply d params n.placeholders).map fun _ => bound := by
  obtain ⟨bound, hbound, hfills⟩ := fills_sql hd n text h
  refine ⟨bound, hbound, ?_⟩
  have hrun := hfills 0 [] (clear_nil d)
  rw [List.append_nil] at hrun
  rw [bind, hrun]
  cases supply d params n.placeholders with
  | error e => rfl
  | ok _ => exact congrArg Except.ok (List.append_nil bound)

theorem substitute_suppliedValue? {n : Node} (h : ∀ i ∈ n.placeholders, Supplied d params i) :
    n.substitute (suppliedValue? d params) = n.substitute fun i => params[i.toNat]? := by
  refine Node.substitute_congr n fun i hi => ?_
  obtain ⟨v, text, hv, htext⟩ := h i hi
  rw [hv, suppliedValue?_eq_some_iff]
  exact ⟨hv, text, htext⟩

/-- What binding reports of a parameter that is not supplied. -/
theorem parameter_eq_error {index : Nat} {e : FragmentError}
    (h : parameter d params index = .error e) :
    (params.length ≤ index ∧ e = .missingParameter index params.length) ∨
      ∃ v cause, params[index]? = some v ∧ v.literal d = .error cause ∧
        e = .unrenderableParameter index cause := by
  rw [parameter] at h
  cases hv : params[index]? with
  | none =>
    rw [hv] at h
    cases h
    exact .inl ⟨List.getElem?_eq_none_iff.1 hv, rfl⟩
  | some v =>
    rw [hv] at h
    cases hl : v.literal d with
    | ok text => simp [hl] at h
    | error cause =>
      simp only [hl, Except.error.injEq] at h
      exact .inr ⟨v, cause, rfl, hl, h.symm⟩

/-- **Binding is substitution.**  Parameters can be bound into the fragment of an accepted filter
exactly if every placeholder has a parameter with a literal.  The bound text is then the fragment of
the filter with the parameters in place of its placeholders, which is accepted too.  Otherwise the
error is that of the first placeholder, from left to right, whose parameter is missing or has no
literal; in particular no marker is malformed and no section unterminated. -/
theorem bind_pushdown (hd : d.IsCommon) {f : Filter} {text : Sql}
    (h : pushdown d f = .accepted text) (params : List Value) :
    ((∃ bound, bind d params text = .ok bound) ↔
        ∀ i ∈ f.root.placeholders, Supplied d params i) ∧
      (∀ bound, bind d params text = .ok bound →
        pushdown d (f.substitute params) = .accepted bound) ∧
      (∀ e, bind d params text = .error e → ∃ before i after,
        f.root.placeholders = before ++ i :: after ∧ (∀ j ∈ before, Supplied d params j) ∧
          ((params.length ≤ i.toNat ∧ e = .missingParameter i.toNat params.length) ∨
            ∃ v cause, params[i.toNat]? = some v ∧ v.literal d = .error cause ∧
              e = .unrenderableParameter i.toNat cause)) ∧
      ∀ offset, bind d params text ≠ .error (.malformedMarker offset) ∧
        bind d params text ≠ .error (.unterminatedQuote offset) := by
  obtain ⟨bound, hsql, hbind⟩ := bind_sql params hd (pushdown_eq_accepted_iff.1 h)
  rcases supply_cases d params f.root.placeholders with
    ⟨hok, hall⟩ | ⟨before, i, after, e, hsplit, hbefore, hi, he⟩
  · rw [substitute_suppliedValue? hall, ← Filter.root_substitute] at hsql
    have hbound : bind d params text = .ok bound := by rw [hbind, hok]; rfl
    refine ⟨⟨fun _ => hall, fun _ => ⟨bound, hbound⟩⟩, fun bound' h' => ?_, fun e he => ?_, ?_⟩
    · rw [hbound] at h'
      cases h'
      exact pushdown_eq_accepted_iff.2 hsql
    · rw [hbound] at he
      cases he
    · simp [hbound]
  · have herror : bind d params text = .error e := by rw [hbind, he]; rfl
    have hcause := parameter_eq_error hi
    refine ⟨⟨fun ⟨bound, hb⟩ => ?_, fun hall => ?_⟩, fun bound' h' => ?_, fun e' he' => ?_,
      fun offset => ?_⟩
    · rw [herror] at hb
      cases hb
    · obtain ⟨literal, hliteral⟩ := supplied_iff_parameter.1 (hall i (by simp [hsplit]))
      rw [hi] at hliteral
      cases hliteral
    · rw [herror] at h'
      cases h'
    · rw [herror] at he'
      cases he'
      exact ⟨before, i, after, hsplit, hbefore, hcause⟩
    · rcases hcause with ⟨-, rfl⟩ | ⟨_, _, -, -, rfl⟩ <;> simp [herror]

/-- Names, constants and parameters may hold quotes, backslashes and braces of their own. -/
theorem bind_pushdown_quotes :
    let f : Filter := ⟨.like, [.column "a\x60\x7b0\x7d", .placeholder .utf8 1,
      .constant (.text "'\\ \x7b0\x7d")]⟩
    let params : List Value := [.int 5, .text "' OR \x7b0\x7d"]
    Dialect.mysql.IsCommon ∧
      pushdown .mysql f = .accepted
        "\x60a\x60\x60\x7b0\x7d\x60 LIKE \x7b1\x7d ESCAPE '''\\\\ \x7b0\x7d'".toList ∧
      pushdown .mysql (f.substitute params) = .accepted
        "\x60a\x60\x60\x7b0\x7d\x60 LIKE ''' OR \x7b0\x7d' ESCAPE '''\\\\ \x7b0\x7d'".toList :=
  have hd : Dialect.mysql.IsCommon := .inr (.inl rfl)
  ⟨hd, rfl, (bind_pushdown hd rfl _).2.1 _ rfl⟩

end Fragment

end ExternalTable
