import ExternalTable.Proofs.Lockstep
import ExternalTable.Proofs.TopLevel
import ExternalTable.Statement

/-!
# Grouping fragments

A condition over several fragments puts those in parentheses that have an `OR` at their top level.
Which ones these are is decided by the fragments alone: whatever values are bound to their markers,
no `OR` comes to the top level or leaves it.

* `IsInert`, `Swaps`: marked text that can be exchanged without a trace in the search for an `OR`;
* `InStep`, `Binds.inStep`: a fragment and its bound text differ by such an exchange;
* `traits`, `roles`, `arranged`: what a condition looks at in its fragments and makes of them;
* `grouping_bind`: the main statement.
-/

namespace ExternalTable.Fragment

variable {d : Dialect} {params : List Value}

/-! ### Exchanging marked text -/

/-- Marked text in which no `OR` begins, and with which no `OR` goes on that begins before it. -/
structure IsInert (ms : List Mark) : Prop where
  head : ∃ m ∈ ms.head?, m ∉ shown orConnective
  space_notMem : space ∉ ms

/-- Two marked texts that are the same but for inert parts. -/
inductive Swaps : List Mark → List Mark → Prop
  | nil : Swaps [] []
  | keep (m : Mark) {ms ns : List Mark} : Swaps ms ns → Swaps (m :: ms) (m :: ns)
  | swap {xs ys ms ns : List Mark} : IsInert xs → IsInert ys → Swaps ms ns →
      Swaps (xs ++ ms) (ys ++ ns)

theorem IsInert.begins_eq_false {xs : List Mark} (h : IsInert xs) {c : Char}
    (hc : c ∈ orConnective) (words : Sql) (ms : List Mark) :
    begins (c :: words) (xs ++ ms) = false := by
  obtain ⟨m, hm, hmem⟩ := h.head
  obtain ⟨xs, rfl⟩ := List.head?_eq_some_iff.1 hm
  have hne : (c, true) ≠ m := by
    rintro rfl
    exact hmem (List.mem_map_of_mem hc)
  rw [begins, shown, List.map_cons, List.cons_append, List.isPrefixOf_cons_cons,
    beq_false_of_ne hne, Bool.false_and]

theorem begins_of_swaps {words : Sql} (hwords : ∀ c ∈ words, c ∈ orConnective) {ms ns : List Mark}
    (h : Swaps ms ns) : begins words ms = begins words ns := by
  induction h generalizing words with
  | nil => rfl
  | keep m _ ih =>
    cases words with
    | nil => rfl
    | cons c words =>
      have hrest := ih fun c hc => hwords c (List.mem_cons_of_mem _ hc)
      rw [begins, begins, shown, List.map_cons, List.isPrefixOf_cons_cons,
        List.isPrefixOf_cons_cons]
      exact congrArg (_ && ·) hrest
  | swap hxs hys _ _ =>
    cases words with
    | nil => rfl
    | cons c words =>
      have hc := hwords c List.mem_cons_self
      rw [hxs.begins_eq_false hc, hys.begins_eq_false hc]

/-- Texts that differ in inert parts only show the same connectives. -/
theorem exposes_of_swaps {ms ns : List Mark} (h : Swaps ms ns) :
    exposes orConnective ms = exposes orConnective ns := by
  induction h with
  | nil => rfl
  | keep m h ih => rw [exposes, exposes, begins_of_swaps (fun _ => id) (h.keep m), ih]
  | swap hxs hys _ ih => rw [exposes_solid hxs.space_notMem, exposes_solid hys.space_notMem, ih]

/-- Hidden text is inert. -/
theorem isInert_hidden {t : Sql} (ht : t ≠ []) : IsInert (hidden t) := by
  obtain ⟨c, t, rfl⟩ := List.exists_cons_of_ne_nil ht
  exact ⟨⟨_, rfl, by simp [shown]⟩, by simp [hidden, space]⟩

/-- Text that begins with no character of the connective and holds no space is inert. -/
theorem isInert_veil {c : Char} {t : Sql} (hc : c ∉ orConnective) (ht : ' ' ∉ c :: t)
    (depth : Nat) : IsInert (veil depth (shown (c :: t))) := by
  cases depth with
  | zero => exact ⟨⟨_, rfl, by simpa [shown] using hc⟩, by simpa [shown, space] using ht⟩
  | succ depth => simpa using isInert_hidden (List.cons_ne_nil c t)

/-! ### Literals and markers -/

theorem isBlankChar_of_isNumberChar {c : Char} (hc : isNumberChar c = true) :
    isBlankChar c = false := by
  simp only [isNumberChar, Bool.or_eq_true, beq_iff_eq] at hc
  rcases hc with (hc | rfl) | rfl
  · have hrange : 48 ≤ c.toNat ∧ c.toNat ≤ 57 := by
      simpa [Char.isDigit, UInt32.le_iff_toNat_le] using hc
    simp only [isBlankChar, blankRanges, List.any_eq_false, List.forall_mem_cons,
      decide_eq_true_eq]
    simp
    omega
  · decide
  · decide

/-- A literal without quotes begins neither like the connective nor with a blank, and holds no
space. -/
theorem exists_cons_of_literal {t : Sql} (h : t ∈ keywordLiterals ∨ IsNumber t) :
    ∃ c s, t = c :: s ∧ c ∉ orConnective ∧ isBlankChar c = false ∧ ' ' ∉ t := by
  rcases h with h | ⟨hne, hchars⟩
  · have key : ∀ t ∈ keywordLiterals,
        t.headD ' ' ∉ orConnective ∧ isBlankChar (t.headD ' ') = false ∧ ' ' ∉ t := by decide
    obtain ⟨hor, hblank, hspace⟩ := key t h
    cases t with
    | nil => cases hblank
    | cons c s => exact ⟨c, s, rfl, hor, hblank, hspace⟩
  · obtain ⟨c, s, rfl⟩ := List.exists_cons_of_ne_nil hne
    have hc := hchars c List.mem_cons_self
    refine ⟨c, s, rfl, fun hor => ?_, isBlankChar_of_isNumberChar hc, fun hspace => ?_⟩
    · have key : ∀ c ∈ orConnective, isNumberChar c = false := by decide
      rw [key c hor] at hc
      cases hc
    · exact absurd (hchars _ hspace) (by decide)

/-- What a parameter writes is a literal. -/
theorem literal_of_parameter {index : Nat} {text : Sql}
    (h : parameter d params index = .ok text) :
    (∃ s, text = d.textLiteral s) ∨ text ∈ keywordLiterals ∨ IsNumber text := by
  rw [parameter] at h
  cases hv : params[index]? with
  | none => simp [hv] at h
  | some v =>
    cases hl : v.literal d with
    | error cause => simp [hv, hl] at h
    | ok literal =>
      simp only [hv, hl, Except.ok.injEq] at h
      subst h
      rcases literal_cases hl with ⟨s, -, hs⟩ | hword
      · exact .inl ⟨s.toList, hs⟩
      · exact .inr hword

/-- The characters of a marker are flat, and none of them is a space. -/
theorem marker_chars (hd : d.IsCommon) {digits : Sql}
    (hdigits : ∀ c ∈ digits, c.isDigit = true) :
    (∀ c ∈ markerOpen :: (digits ++ [markerClose]), IsFlat d c) ∧
      ' ' ∉ markerOpen :: (digits ++ [markerClose]) := by
  have hbrace : ∀ c ∈ [markerOpen, markerClose], IsFlat d c := by
    have key : ∀ c ∈ [markerOpen, markerClose], c ∉ ['\'', '\x60', '\x22'] ∧ c ≠ '(' ∧ c ≠ ')' := by
      decide
    exact fun c hc => ⟨hd.isQuote_eq_false (key c hc).1, (key c hc).2⟩
  refine ⟨fun c hc => ?_, fun hspace => ?_⟩
  · simp only [List.mem_cons, List.mem_append, List.not_mem_nil, or_false] at hc
    rcases hc with rfl | hc | rfl
    · exact hbrace _ (by simp)
    · exact isFlat_of_isWordChar hd (isWordChar_of_isNumberChar
        (isNumberChar_of_isDigit (hdigits c hc)))
    · exact hbrace _ (by simp)
  · simp only [List.mem_cons, List.mem_append, List.not_mem_nil, or_false] at hspace
    rcases hspace with h | h | h
    · exact absurd h (by decide)
    · exact absurd (hdigits _ h) (by decide)
    · exact absurd h (by decide)

/-! ### A fragment and its bound text -/

/-- Flat text is exposed wherever its first character is read outside of sections. -/
theorem exposure_flat_of_read (hd : d.HasAsciiQuote) {p : Place} {offset : Nat} {c : Char}
    (h : p.read d offset c = .outside) {s : Sql} (hs : ∀ x ∈ c :: s, IsFlat d x) (depth : Nat)
    (rest : Sql) :
    exposure d p depth offset (c :: s ++ rest) =
      veil depth (shown (c :: s)) ++
        exposure d .outside depth (offset + encodedLength (c :: s)) rest := by
  have h' : Place.outside.read d offset c = .outside :=
    Place.read_outside hd (hs c List.mem_cons_self).1 offset
  rw [← exposure_flat hd hs, List.cons_append, exposure, exposure, h, h']

theorem readAll_flat_of_read (hd : d.HasAsciiQuote) {p : Place} {offset : Nat} {c : Char}
    (h : p.read d offset c = .outside) {s : Sql} (hs : ∀ x ∈ c :: s, IsFlat d x) (rest : Sql) :
    p.readAll d offset (c :: s ++ rest) =
      Place.outside.readAll d (offset + encodedLength (c :: s)) rest := by
  have h' : Place.outside.read d offset c = .outside :=
    Place.read_outside hd (hs c List.mem_cons_self).1 offset
  rw [← readAll_flat hd hs, List.cons_append, Place.readAll, Place.readAll, h, h']

/-- A fragment and its bound text show the same but for inert parts, and neither ends within a
section. -/
structure InStep (d : Dialect) (p p' : Place) (depth offset offset' : Nat) (t bound : Sql) :
    Prop where
  swaps : Swaps (exposure d p depth offset t) (exposure d p' depth offset' bound)
  openedAt?_eq_none : (p.readAll d offset t).openedAt? = none
  openedAt?_bound_eq_none : (p'.readAll d offset' bound).openedAt? = none

/-- Binding keeps step: in place of each marker stands a literal, and both are inert. -/
theorem Binds.inStep (hd : d.IsCommon) {p p' : Place} {offset : Nat} {t bound : Sql}
    (h : Binds d params p offset t bound) (hp : p.Shadows d p') (depth offset' : Nat) :
    InStep d p p' depth offset offset' t bound := by
  induction h generalizing p' depth offset' with
  | done hend => exact ⟨.nil, hend, hp.openedAt?_eq_none_iff.1 hend⟩
  | @copy p offset c rest bound _ _ ih =>
    have hagrees := hp.read hd.hasAsciiQuote c offset offset'
    by_cases hread : p.read d offset c = .outside
    · have hrest := ih (.same hagrees) (nesting depth c) (offset' + c.utf8Size)
      refine ⟨?_, hrest.openedAt?_eq_none, hrest.openedAt?_bound_eq_none⟩
      rw [exposure, exposure, if_pos hread, if_pos (hagrees.eq_outside_iff.1 hread)]
      exact hrest.swaps.keep _
    · have hrest := ih (.same hagrees) depth (offset' + c.utf8Size)
      refine ⟨?_, hrest.openedAt?_eq_none, hrest.openedAt?_bound_eq_none⟩
      rw [exposure, exposure, if_neg hread, if_neg fun h => hread (hagrees.eq_outside_iff.2 h)]
      exact hrest.swaps.keep _
  | @fill p offset digits rest text bound hread _ hdigits hparameter _ ih =>
    obtain ⟨hflat, hspace⟩ := marker_chars hd hdigits
    have hmarker := isInert_veil (show markerOpen ∉ orConnective by decide) hspace depth
    have hmarks := exposure_flat_of_read hd.hasAsciiQuote hread hflat depth rest
    have hend := readAll_flat_of_read hd.hasAsciiQuote hread hflat rest
    rcases literal_of_parameter hparameter with ⟨s, rfl⟩ | hword
    · obtain ⟨hstay, hshadows⟩ := hp.textLiteral hd.hasAsciiQuote hread s offset'
      have hrest := ih hshadows depth (offset' + encodedLength (d.textLiteral s))
      refine ⟨?_, hend ▸ hrest.openedAt?_eq_none, ?_⟩
      · rw [hmarks, exposure_staysInside hstay]
        exact .swap hmarker (isInert_hidden (List.cons_ne_nil _ _)) hrest.swaps
      · rw [Place.readAll_append]
        exact hrest.openedAt?_bound_eq_none
    · obtain ⟨c, s, rfl, hor, -, hspace'⟩ := exists_cons_of_literal hword
      have hflat' : ∀ x ∈ c :: s, IsFlat d x := fun x hx =>
        isFlat_of_isWordChar hd ((isWord_of_literal hword).2 x hx)
      have hread' := hp.read_of_not_quote hd.hasAsciiQuote hread (hflat' c List.mem_cons_self).1
        offset'
      have hrest := ih (.same .outside) depth (offset' + encodedLength (c :: s))
      refine ⟨?_, hend ▸ hrest.openedAt?_eq_none, ?_⟩
      · rw [hmarks, exposure_flat_of_read hd.hasAsciiQuote hread' hflat' depth]
        exact .swap hmarker (isInert_veil hor hspace' depth) hrest.swaps
      · rw [readAll_flat_of_read hd.hasAsciiQuote hread' hflat']
        exact hrest.openedAt?_bound_eq_none

/-- Binding neither brings an `OR` to the top level nor takes one away. -/
theorem hasTopLevelOr_of_bind (hd : d.IsCommon) {fragment bound : Sql}
    (h : bind d params fragment = .ok bound) :
    hasTopLevelOr d bound = hasTopLevelOr d fragment := by
  have hstep := (binds_of_run h).inStep hd (.same .outside) 0 0
  rw [hasTopLevelOr, hasTopLevelOr, hasTopLevelOrFrom_eq hd, hasTopLevelOrFrom_eq hd,
    exposes_of_swaps hstep.swaps, hstep.openedAt?_eq_none, hstep.openedAt?_bound_eq_none]

/-- Where binding finds a section unterminated, so does the search for an `OR`. -/
theorem hasTopLevelOr_of_unterminated (hd : d.IsCommon) {fragment : Sql} {start : Nat}
    (h : bind d params fragment = .error (.unterminatedQuote start)) :
    hasTopLevelOr d fragment = true := by
  have hopened : (Place.outside.readAll d 0 fragment).openedAt? = some start :=
    openedAt?_of_run hd h
  rw [hasTopLevelOr, hasTopLevelOrFrom_eq hd, hopened, Option.isSome_some, Bool.or_true]

/-! ### Conditions -/

/-- Neither a marker nor a literal is blank, so binding leaves no more and no fewer fragments blank. -/
theorem Binds.isBlank_eq {p : Place} {offset : Nat} {t bound : Sql}
    (h : Binds d params p offset t bound) : isBlank bound = isBlank t := by
  induction h with
  | done => rfl
  | copy _ _ ih => exact congrArg (_ && ·) ih
  | @fill p offset digits rest text bound _ _ _ hparameter _ _ =>
    have htext : ∃ c ∈ text, isBlankChar c = false := by
      rcases literal_of_parameter hparameter with ⟨s, rfl⟩ | hword
      · exact ⟨'\'', List.mem_cons_self, by decide⟩
      · obtain ⟨c, s, rfl, -, hblank, -⟩ := exists_cons_of_literal hword
        exact ⟨c, List.mem_cons_self, hblank⟩
    have hmarker : isBlankChar markerOpen = false := by decide
    obtain ⟨c, hc, hblank⟩ := htext
    have hbound : isBlank (text ++ bound) = false :=
      List.all_eq_false.2 ⟨c, List.mem_append_left _ hc, by simp [hblank]⟩
    rw [hbound]
    exact (List.all_eq_false.2 ⟨markerOpen, by simp, by simp [hmarker]⟩).symm

/-- What a condition makes of a fragment. -/
inductive Role where
  | omitted
  | bare
  | grouped
  deriving DecidableEq

/-- What a condition looks at in a fragment: whether it is blank, and whether it has an `OR` at its
top level. -/
def traits (d : Dialect) (fragment : Sql) : Bool × Bool :=
  (isBlank fragment, hasTopLevelOr d fragment)

/-- The roles of fragments with given traits: blank ones are left out, and among several others those
stand in parentheses that have an `OR`. -/
def roles (looks : List (Bool × Bool)) : List Role :=
  looks.map fun (blank, or) =>
    if blank then .omitted
    else if or && decide (2 ≤ looks.countP fun (blank, _) => !blank) then .grouped
    else .bare

/-- A fragment in its role. -/
def Role.write? : Role → Sql → Option Sql
  | .omitted, _ => none
  | .bare, f => some f
  | .grouped, f => some (parenthesized f)

/-- The condition over fragments in given roles. -/
def arranged (roles : List Role) (fragments : List Sql) : Sql :=
  let kept := (List.zipWith Role.write? roles fragments).filterMap id
  if kept.isEmpty then [] else " WHERE ".toList ++ " AND ".toList.intercalate kept

/-- A condition writes its fragments in the roles that their traits give them. -/
theorem condition_eq_arranged (d : Dialect) (fragments : List Sql) :
    condition d fragments = arranged (roles (fragments.map (traits d))) fragments := by
  have hwritten : ∀ several : Bool,
      (List.zipWith Role.write? ((fragments.map (traits d)).map fun (blank, or) =>
        if blank then .omitted else if or && several then .grouped else .bare) fragments).filterMap
          id =
        (fragments.filter fun f => !isBlank f).map fun f => if several then conjunct d f else f := by
    intro several
    induction fragments with
    | nil => rfl
    | cons f fragments ih =>
      rw [List.map_cons, List.map_cons, List.zipWith_cons_cons, List.filterMap_cons, ih,
        List.filter_cons]
      cases hblank : isBlank f <;> cases hor : hasTopLevelOr d f <;> cases several <;>
        simp [traits, hblank, hor, Role.write?, conjunct]
  have hcount : (fragments.map (traits d)).countP (fun (blank, _) => !blank) =
      (fragments.filter fun f => !isBlank f).length := by
    rw [List.countP_map, List.countP_eq_length_filter]
    rfl
  rw [condition, arranged, roles, hwritten, hcount]
  -- The conjunction of one fragment is this fragment, whatever its traits.
  rcases fragments.filter fun f => !isBlank f with - | ⟨f, - | ⟨g, kept⟩⟩
  · rfl
  · simp [conjunction]
  · simp [conjunction]

/-- Bound fragments have the traits of the fragments. -/
theorem traits_of_bindAll (hd : d.IsCommon) {position : Nat} {fragments bounds : List Sql}
    (h : bindAll d params position fragments = .ok bounds) :
    bounds.map (traits d) = fragments.map (traits d) := by
  induction fragments generalizing position bounds with
  | nil =>
    cases h
    rfl
  | cons f fragments ih =>
    rw [bindAll] at h
    cases hbound : bind d params f with
    | error e => simp [hbound] at h
    | ok bound =>
      cases hrest : bindAll d params (position + 1) fragments with
      | error e => simp [hbound, hrest, Except.map] at h
      | ok rest =>
        simp only [hbound, hrest, Except.map, Except.ok.injEq] at h
        subst h
        rw [List.map_cons, List.map_cons, ih hrest, traits, traits, (binds_of_run hbound).isBlank_eq,
          hasTopLevelOr_of_bind hd hbound]

/-- **Parameters do not change the structure of a condition.**  A bound fragment has an `OR` at its
top level exactly if the fragment has one, whatever values are bound.  So the fragments as they came
from the host decide which of them a condition leaves out and which stand in parentheses.  A fragment
with a section that does not end, which cannot be bound, counts as having an `OR`. -/
theorem grouping_bind (hd : d.IsCommon) (params : List Value) :
    (∀ fragment bound, bind d params fragment = .ok bound →
        hasTopLevelOr d bound = hasTopLevelOr d fragment) ∧
      (∀ fragments bounds, bindAll d params 0 fragments = .ok bounds →
        condition d bounds = arranged (roles (fragments.map (traits d))) bounds) ∧
      ∀ fragment start, bind d params fragment = .error (.unterminatedQuote start) →
        hasTopLevelOr d fragment = true := by
  refine ⟨fun _ _ => hasTopLevelOr_of_bind hd, fun fragments bounds h => ?_,
    fun _ _ => hasTopLevelOr_of_unterminated hd⟩
  rw [condition_eq_arranged, traits_of_bindAll hd h]

/-- A text that holds quotes, parentheses and an `OR` merges with the sections on both sides of its
marker, and still only the fragment with an `OR` of its own stands in parentheses. -/
theorem grouping_bind_merged :
    let params : List Value := [.text "' OR '(\\", .int (-5)]
    let fragments : List Sql := ["a='x'\x7b0\x7d'y'".toList, " ".toList, "b OR \x7b1\x7d".toList]
    let bounds : List Sql := ["a='x'''' OR ''(\\\\''y'".toList, " ".toList, "b OR -5".toList]
    Dialect.mysql.IsCommon ∧ bindAll .mysql params 0 fragments = .ok bounds ∧
      condition .mysql bounds = arranged (roles (fragments.map (traits .mysql))) bounds ∧
      arranged (roles (fragments.map (traits .mysql))) bounds =
        " WHERE a='x'''' OR ''(\\\\''y' AND (b OR -5)".toList := by
  intro params fragments bounds
  have hd : Dialect.mysql.IsCommon := .inr (.inl rfl)
  have hbound : bindAll .mysql params 0 fragments = .ok bounds := rfl
  exact ⟨hd, hbound, (grouping_bind hd params).2.1 fragments bounds hbound, by decide⟩

end ExternalTable.Fragment
