import Mathlib.Data.List.Forall2
import ExternalTable.Proofs.IntegerParameter

/-!
# Requests as their documents give them

A document that can be read makes a request that mirrors it, value by value, unless there is an
object among its parameters or within arrays there.  The first such parameter is then reported.

* `Raw.field?`: the fields of a document, by name or by place;
* `Raw.HasObject`, `Raw.Mirrors`: documents without a value, and the values of all others;
* `value_cases`: one document as a value;
* `parameters_cases`: several, as far as the first without a value;
* `fields?_eq`: what is read as the fields of a document;
* `ofJson_mirrors`: the main statement.
-/

namespace ExternalTable

namespace Json

/-- The content of a field.  An object has it under its name, an array at its place. -/
def Raw.field? (place : Nat) (name : String) : Raw → Option Raw
  | .object members => (members.find? fun m => text? m.1 = some name).map Prod.snd
  | .array items => items[place]?
  | _ => none

/-- The documents that are an object, or an array with an object somewhere inside. -/
inductive Raw.HasObject : Raw → Prop
  | object (members : List (List Piece × Raw)) : HasObject (.object members)
  | item {items : List Raw} {item : Raw} :
      item ∈ items → HasObject item → HasObject (.array items)

/-- The value of a document: arrays become lists of the values of their items, in order. -/
inductive Raw.Mirrors : Raw → Value → Prop
  | null : Mirrors .null .null
  | bool (b : Bool) : Mirrors (.bool b) (.bool b)
  | int {ν : Numeral} {n : Int64} : ν.json? = some (.int n) → Mirrors (.number ν) (.int n)
  | uint {ν : Numeral} {n : UInt64} : ν.json? = some (.uint n) → Mirrors (.number ν) (.uint n)
  | float {ν : Numeral} {bits : UInt64} :
      ν.json? = some (.float bits) → Mirrors (.number ν) (.float64 bits)
  | text {pieces : List Piece} {s : String} : text? pieces = some s → Mirrors (.text pieces) (.text s)
  | array {items : List Raw} {values : List Value} :
      List.Forall₂ Mirrors items values → Mirrors (.array items) (.list values)

/-! ### Values -/

theorem Numeral.json?_cases {ν : Numeral} {j : Json} (h : ν.json? = some j) :
    (∃ n, j = .int n) ∨ (∃ n, j = .uint n) ∨ ∃ bits, j = .float bits := by
  have hfloat : ν.float? = some j → ∃ bits, j = .float bits := by
    intro hν
    obtain ⟨bits, -, rfl⟩ := Option.map_eq_some_iff.1 hν
    exact ⟨_, rfl⟩
  unfold Numeral.json? at h
  dsimp only at h
  split_ifs at h
  · exact .inr (.inr (hfloat h))
  · exact .inl ⟨_, (Option.some.inj h).symm⟩
  · exact .inr (.inr (hfloat h))
  · exact .inl ⟨_, (Option.some.inj h).symm⟩
  · exact .inr (.inl ⟨_, (Option.some.inj h).symm⟩)
  · exact .inr (.inr (hfloat h))

theorem hasObject_array_iff {items : List Raw} :
    (Raw.array items).HasObject ↔ ∃ item ∈ items, item.HasObject := by
  constructor
  · rintro (_ | ⟨hmem, hitem⟩)
    exact ⟨_, hmem, hitem⟩
  · rintro ⟨item, hmem, hitem⟩
    exact .item hmem hitem

mutual

/-- A document with an object inside has no value, and any other has the value that mirrors it. -/
theorem value_cases (r : Raw) {levels : Nat} {j : Json} (h : r.json? levels = some j) :
    (r.HasObject ∧ j.value? = none) ∨
      (¬ r.HasObject ∧ ∃ v, j.value? = some v ∧ r.Mirrors v) := by
  cases r with
  | null =>
    cases h
    exact .inr ⟨nofun, .null, rfl, .null⟩
  | bool b =>
    cases h
    exact .inr ⟨nofun, .bool b, rfl, .bool b⟩
  | number ν =>
    rw [Raw.json?] at h
    rcases ν.json?_cases h with ⟨n, rfl⟩ | ⟨n, rfl⟩ | ⟨bits, rfl⟩
    · exact .inr ⟨nofun, .int n, rfl, .int h⟩
    · exact .inr ⟨nofun, .uint n, rfl, .uint h⟩
    · exact .inr ⟨nofun, .float64 bits, rfl, .float h⟩
  | text pieces =>
    obtain ⟨s, hs, rfl⟩ := Option.map_eq_some_iff.1 h
    exact .inr ⟨nofun, .text s, rfl, .text hs⟩
  | object members =>
    cases levels with
    | zero => cases h
    | succ levels =>
      obtain ⟨js, -, rfl⟩ := Option.map_eq_some_iff.1 h
      exact .inl ⟨.object members, rfl⟩
  | array items =>
    cases levels with
    | zero => cases h
    | succ levels =>
      obtain ⟨js, hjs, rfl⟩ := Option.map_eq_some_iff.1 h
      rw [hasObject_array_iff, value?]
      rcases values_cases items hjs with ⟨hobject, hnone⟩ | ⟨hplain, vs, hvs, hmirrors⟩
      · exact .inl ⟨hobject, by rw [hnone]; rfl⟩
      · refine .inr ⟨?_, .list vs, by rw [hvs]; rfl, .array hmirrors⟩
        rintro ⟨item, hmem, hitem⟩
        exact hplain item hmem hitem

/-- Several documents have their values unless one of them has an object inside. -/
theorem values_cases (items : List Raw) {levels : Nat} {js : List Json}
    (h : Raw.jsonAll? levels items = some js) :
    ((∃ item ∈ items, item.HasObject) ∧ values? js = none) ∨
      ((∀ item ∈ items, ¬ item.HasObject) ∧
        ∃ vs, values? js = some vs ∧ List.Forall₂ Raw.Mirrors items vs) := by
  cases items with
  | nil =>
    cases h
    exact .inr ⟨by simp, [], rfl, .nil⟩
  | cons item items =>
    obtain ⟨j, js, hj, hjs, rfl⟩ := jsonAll?_cons h
    rw [values?]
    rcases value_cases item hj with ⟨hobject, hnone⟩ | ⟨hplain, v, hv, hmirrors⟩
    · exact .inl ⟨⟨item, List.mem_cons_self, hobject⟩, by rw [hnone]⟩
    · rw [hv]
      rcases values_cases items hjs with ⟨⟨other, hmem, hobject⟩, hnone⟩ | ⟨hrest, vs, hvs, hall⟩
      · exact .inl ⟨⟨other, List.mem_cons_of_mem _ hmem, hobject⟩, by simp only [hnone]; rfl⟩
      · exact .inr ⟨List.forall_mem_cons.2 ⟨hplain, hrest⟩, v :: vs, by simp only [hvs]; rfl,
          .cons hmirrors hall⟩

end

/-! ### Fields -/

/-- The members of a field are those whose key is its name. -/
theorem head?_of_membersOf? {field : String} {members : List (List Piece × Raw)} {found : List Raw}
    (h : Record.membersOf? field members = some found) :
    found.head? = (members.find? fun m => text? m.1 = some field).map Prod.snd := by
  induction members generalizing found with
  | nil =>
    cases h
    rfl
  | cons m members ih =>
    obtain ⟨key, content⟩ := m
    rw [Record.membersOf?] at h
    cases hkey : text? key with
    | none => simp [hkey] at h
    | some name =>
      simp only [hkey, Option.map_eq_some_iff] at h
      obtain ⟨rest, hrest, rfl⟩ := h
      by_cases hname : name = field
      · simp [hkey, hname]
      · simp [hkey, hname, ih hrest]

theorem member?_eq {field : String} {members : List (List Piece × Raw)} {content : Option Raw}
    (h : Record.member? members field = some content) :
    content = (members.find? fun m => text? m.1 = some field).map Prod.snd := by
  unfold Record.member? at h
  split at h
  · next hfound =>
    cases h
    exact head?_of_membersOf? hfound
  · next found hfound =>
    cases h
    exact head?_of_membersOf? hfound
  · cases h

/-- What is read as the fields of a record of four. -/
theorem fields?_eq {a b c d : String} {raw : Raw} {contents : List (Option Raw)}
    (h : Record.fields? [a, b, c, d] false raw = some contents) :
    contents = [raw.field? 0 a, raw.field? 1 b, raw.field? 2 c, raw.field? 3 d] := by
  cases raw with
  | object members =>
    simp only [Record.fields?, List.mapM_cons, List.mapM_nil, Option.bind_eq_bind,
      Option.pure_def, Option.bind_eq_some_iff, Option.some.injEq] at h
    obtain ⟨fa, ha, _, ⟨fb, hb, _, ⟨fc, hc, _, ⟨fd, hd, _, rfl, rfl⟩, rfl⟩, rfl⟩, rfl⟩ := h
    rw [member?_eq ha, member?_eq hb, member?_eq hc, member?_eq hd]
    rfl
  | array items =>
    rw [Record.fields?] at h
    split at h
    · cases h
    · next hlength =>
      cases h
      match items with
      | [] | [_] | [_, _] | [_, _, _] | [_, _, _, _] => rfl
      | _ :: _ :: _ :: _ :: _ :: _ => simp at hlength
  | _ => cases h

/-- What a field supplies: the value of its content, or another one where it is missing. -/
def Raw.Supplies (field : Option Raw) (missing v : Value) : Prop :=
  match field with
  | none => v = missing
  | some content => content.Mirrors v

theorem supplies_text {field : Option Raw} {s : String}
    (h : Record.withDefault? Record.text? "" field = some s) :
    Raw.Supplies field (.text "") (.text s) := by
  cases field with
  | none =>
    cases h
    rfl
  | some content =>
    cases content with
    | text pieces => exact .text h
    | _ => cases h

theorem mirrors_texts {items : List Raw} {ss : List String}
    (h : items.mapM Record.text? = some ss) :
    List.Forall₂ Raw.Mirrors items (ss.map .text) := by
  induction items generalizing ss with
  | nil =>
    cases h
    exact .nil
  | cons item items ih =>
    simp only [List.mapM_cons, Option.bind_eq_bind, Option.pure_def, Option.bind_eq_some_iff,
      Option.some.injEq] at h
    obtain ⟨s, hs, rest, hrest, rfl⟩ := h
    have hitem : Raw.Supplies (some item) (.text "") (.text s) := supplies_text hs
    exact .cons hitem (ih hrest)

theorem supplies_texts {field : Option Raw} {ss : List String}
    (h : Record.withDefault? Record.texts? [] field = some ss) :
    Raw.Supplies field (.list []) (.list (ss.map .text)) := by
  cases field with
  | none =>
    cases h
    rfl
  | some content =>
    cases content with
    | array items => exact .array (mirrors_texts h)
    | _ => cases h

/-- The documents that a field holds. -/
def Raw.items : Option Raw → List Raw
  | some (.array items) => items
  | _ => []

theorem exists_array_of_documents? {content : Raw} {js : List Json}
    (h : Record.documents? content = some js) : ∃ items, content = .array items := by
  unfold Record.documents? at h
  split at h
  · next found hcontent =>
    cases content with
    | array items => exact ⟨items, rfl⟩
    | number ν =>
      rcases ν.json?_cases hcontent with ⟨n, hn⟩ | ⟨n, hn⟩ | ⟨bits, hbits⟩
      · cases hn
      · cases hn
      · cases hbits
    | text pieces =>
      obtain ⟨s, -, hs⟩ := Option.map_eq_some_iff.1 hcontent
      cases hs
    | object members =>
      obtain ⟨found, -, hfound⟩ := Option.map_eq_some_iff.1 hcontent
      cases hfound
    | _ => cases hcontent
  · cases h

/-- The documents of a field are those that it holds. -/
theorem jsonAll?_items {field : Option Raw} {js : List Json}
    (h : Record.withDefault? Record.documents? [] field = some js) :
    Raw.jsonAll? (Record.maxNesting - 2) (Raw.items field) = some js ∧
      ∀ vs, List.Forall₂ Raw.Mirrors (Raw.items field) vs →
        Raw.Supplies field (.list []) (.list vs) := by
  cases field with
  | none =>
    cases h
    refine ⟨rfl, fun vs hvs => ?_⟩
    cases hvs
    rfl
  | some content =>
    obtain ⟨items, rfl⟩ := exists_array_of_documents? h
    exact ⟨Scan.Request.jsonAll?_of_documents? h, fun vs hvs => .array hvs⟩

/-- The first of several documents that has an object inside. -/
structure IsFirstObject (items : List Raw) (i : Nat) : Prop where
  hasObject : ∃ item, items[i]? = some item ∧ item.HasObject
  before : ∀ item ∈ items.take i, ¬ item.HasObject

theorem IsFirstObject.le {items : List Raw} {i k : Nat} (hi : IsFirstObject items i)
    (hk : IsFirstObject items k) : k ≤ i := by
  by_contra hlt
  obtain ⟨item, hitem, hobject⟩ := hi.hasObject
  refine hk.before item (List.mem_of_getElem? (i := i) ?_) hobject
  rw [List.getElem?_take_of_lt (by omega), hitem]

theorem IsFirstObject.unique {items : List Raw} {i k : Nat} (hi : IsFirstObject items i)
    (hk : IsFirstObject items k) : i = k :=
  Nat.le_antisymm (hk.le hi) (hi.le hk)

end Json

namespace Scan

namespace Request

open Json

/-- Several documents become parameters one by one, unless one of them has an object inside. -/
theorem parameters_cases {levels : Nat} {items : List Raw} {js : List Json}
    (h : Raw.jsonAll? levels items = some js) (index : Nat) :
    (∃ i, IsFirstObject items i ∧
        parameters index js = .error (.unsupportedValue (index + i))) ∨
      ((∀ item ∈ items, ¬ item.HasObject) ∧
        ∃ vs, parameters index js = .ok vs ∧ List.Forall₂ Raw.Mirrors items vs) := by
  induction items generalizing js index with
  | nil =>
    cases h
    exact .inr ⟨by simp, [], rfl, .nil⟩
  | cons item items ih =>
    obtain ⟨j, js, hj, hjs, rfl⟩ := jsonAll?_cons h
    rw [parameters]
    rcases value_cases item hj with ⟨hobject, hnone⟩ | ⟨hplain, v, hv, hmirrors⟩
    · exact .inl ⟨0, ⟨⟨item, rfl, hobject⟩, by simp⟩, by rw [hnone]; rfl⟩
    · rw [hv]
      rcases ih hjs (index + 1) with ⟨i, hfirst, herror⟩ | ⟨hrest, vs, hvs, hall⟩
      · refine .inl ⟨i + 1, ⟨hfirst.hasObject, ?_⟩, ?_⟩
        · rw [List.take_succ_cons]
          exact List.forall_mem_cons.2 ⟨hplain, hfirst.before⟩
        · rw [show index + (i + 1) = index + 1 + i by omega]
          simp only [herror]
          rfl
      · exact .inr ⟨List.forall_mem_cons.2 ⟨hplain, hrest⟩, v :: vs, by simp only [hvs]; rfl,
          .cons hmirrors hall⟩

/-- A request with what the fields of a document supply. -/
structure Mirrors (raw : Raw) (q : Request) : Prop where
  table : Raw.Supplies (raw.field? 0 "table") (.text "") (.text q.table)
  columns : Raw.Supplies (raw.field? 1 "columns") (.list []) (.list (q.columns.map .text))
  filters : Raw.Supplies (raw.field? 2 "filters") (.list []) (.list (q.filters.map .text))
  params : Raw.Supplies (raw.field? 3 "question_mark_values") (.list []) (.list q.params)

/-- What is read of a document, field by field. -/
theorem exists_raw_of_fields? {document : List Char} {table : String} {columns filters : List String}
    {values : List Json} (h : fields? document = some (table, columns, filters, values)) :
    ∃ raw, Raw.read? document = some raw ∧
      Record.withDefault? Record.text? "" (raw.field? 0 "table") = some table ∧
      Record.withDefault? Record.texts? [] (raw.field? 1 "columns") = some columns ∧
      Record.withDefault? Record.texts? [] (raw.field? 2 "filters") = some filters ∧
      Record.withDefault? Record.documents? [] (raw.field? 3 "question_mark_values") =
        some values := by
  unfold fields? at h
  cases hraw : Raw.read? document with
  | none => simp [hraw] at h
  | some raw =>
    simp only [hraw] at h
    split at h
    · next hfields =>
      have hcontents := fields?_eq hfields
      simp only [List.cons.injEq, and_true] at hcontents
      obtain ⟨rfl, rfl, rfl, rfl⟩ := hcontents
      obtain ⟨_, htable, h⟩ := Option.bind_eq_some_iff.1 h
      obtain ⟨_, hcolumns, h⟩ := Option.bind_eq_some_iff.1 h
      obtain ⟨_, hfilters, h⟩ := Option.bind_eq_some_iff.1 h
      obtain ⟨_, hvalues, h⟩ := Option.bind_eq_some_iff.1 h
      cases h
      exact ⟨raw, rfl, htable, hcolumns, hfilters, hvalues⟩
    · cases h

/-- **Parameters mirror their documents, or are refused at the first object.**  Take any document that
can be read as a request.  It is refused at a parameter exactly if this is the first one that is an
object, or an array with an object inside at any depth, and so it is refused if there is one at all.
Otherwise it makes a request with one parameter for each item, in order: texts, truth values and null
stay themselves, numbers are what they are read as, and arrays become lists, item by item again.  The
table, the columns and the filters are those of the document, and empty where they are missing. -/
theorem ofJson_mirrors {document : String} (h : ofJson document ≠ .error .unreadable) :
    ∃ raw, Raw.read? document.toList = some raw ∧
      let items := Raw.items (raw.field? 3 "question_mark_values")
      (∀ index, ofJson document = .error (.unsupportedValue index) ↔ IsFirstObject items index) ∧
      ((∃ item ∈ items, item.HasObject) →
        ∃ index, ofJson document = .error (.unsupportedValue index)) ∧
      ((∀ item ∈ items, ¬ item.HasObject) → ∃ q, ofJson document = .ok q ∧ q.Mirrors raw) := by
  cases hfields : fields? document.toList with
  | none => exact absurd (by rw [ofJson, hfields]) h
  | some fields =>
    obtain ⟨table, columns, filters, values⟩ := fields
    obtain ⟨raw, hraw, htable, hcolumns, hfilters, hvalues⟩ := exists_raw_of_fields? hfields
    obtain ⟨hitems, hparams⟩ := jsonAll?_items hvalues
    refine ⟨raw, hraw, ?_⟩
    rcases parameters_cases hitems 0 with ⟨i, hfirst, herror⟩ | ⟨hplain, vs, hvs, hall⟩
    · have hresult : ofJson document = .error (.unsupportedValue i) := by
        rw [ofJson, hfields]
        simp only [herror, Nat.zero_add]
      obtain ⟨item, hitem, hobject⟩ := hfirst.hasObject
      refine ⟨fun index => ⟨fun hindex => ?_, fun hindex => ?_⟩, fun _ => ⟨i, hresult⟩,
        fun hnone => absurd hobject (hnone item (List.mem_of_getElem? hitem))⟩
      · cases hresult.symm.trans hindex
        exact hfirst
      · rw [hresult, hfirst.unique hindex]
    · have hresult : ofJson document = .ok ⟨table, columns, filters, vs⟩ := by
        rw [ofJson, hfields]
        simp only [hvs]
      refine ⟨fun index => ⟨fun hindex => ?_, fun hindex => ?_⟩,
        fun ⟨item, hmem, hobject⟩ => absurd hobject (hplain item hmem),
        fun _ => ⟨_, hresult, supplies_text htable, supplies_texts hcolumns,
          supplies_texts hfilters, hparams vs hall⟩⟩
      · cases hresult.symm.trans hindex
      · obtain ⟨item, hitem, hobject⟩ := hindex.hasObject
        exact absurd hobject (hplain item (List.mem_of_getElem? hitem))

/-- A text and nested arrays are taken as they are; an object two arrays deep is refused, before the
one that stands alone. -/
theorem ofJson_mirrors_nested :
    let plain := "\x7b\"question_mark_values\":[\"x\",[true,[null]]]\x7d"
    let nested := "[\"t\",[],[],[\"x\",[true,[\x7b\x7d]],\x7b\x7d]]"
    ofJson plain ≠ .error .unreadable ∧ ofJson nested ≠ .error .unreadable ∧
      (∃ raw q, Raw.read? plain.toList = some raw ∧ ofJson plain = .ok q ∧ q.Mirrors raw) ∧
      ofJson nested = .error (.unsupportedValue 1) := by
  intro plain nested
  have hreadable : ∀ document : String,
      (match ofJson document with | .error .unreadable => false | _ => true) = true →
        ofJson document ≠ .error .unreadable := by
    intro document h hunreadable
    rw [hunreadable] at h
    cases h
  have hplain : ofJson plain ≠ .error .unreadable := hreadable plain (by decide +kernel)
  have hnested : ofJson nested ≠ .error .unreadable := hreadable nested (by decide +kernel)
  have hplainTokens : tokens? plain.toList = some [.openObject,
      .text ("question_mark_values".toList.map .char), .colon, .openArray, .text [.char 'x'], .comma,
      .openArray, .bool true, .comma, .openArray, .null, .closeArray, .closeArray, .closeArray,
      .closeObject] := by
    decide +kernel
  have hnestedTokens : tokens? nested.toList = some [.openArray, .text [.char 't'], .comma,
      .openArray, .closeArray, .comma, .openArray, .closeArray, .comma, .openArray,
      .text [.char 'x'], .comma, .openArray, .bool true, .comma, .openArray, .openObject,
      .closeObject, .closeArray, .closeArray, .comma, .openObject, .closeObject, .closeArray,
      .closeArray] := by
    decide +kernel
  refine ⟨hplain, hnested, ?_, ?_⟩
  · obtain ⟨raw, hraw, -, -, hmirrors⟩ := ofJson_mirrors hplain
    have hitems : Raw.items (raw.field? 3 "question_mark_values") =
        [.text [.char 'x'], .array [.bool true, .array [.null]]] := by
      rw [Raw.read?, hplainTokens] at hraw
      cases hraw
      rfl
    have hplainItems : ∀ item ∈ [Raw.text [.char 'x'], .array [.bool true, .array [.null]]],
        ¬ item.HasObject := by
      simp only [List.forall_mem_cons, hasObject_array_iff, List.exists_mem_cons_iff]
      refine ⟨nofun, ?_, nofun⟩
      rintro (h | (h | ⟨_, h, _⟩) | ⟨_, h, _⟩) <;> cases h
    obtain ⟨q, hq, hqraw⟩ := hmirrors (hitems ▸ hplainItems)
    exact ⟨raw, q, hraw, hq, hqraw⟩
  · obtain ⟨raw, hraw, hiff, -, -⟩ := ofJson_mirrors hnested
    have hitems : Raw.items (raw.field? 3 "question_mark_values") =
        [.text [.char 'x'], .array [.bool true, .array [.object []]], .object []] := by
      rw [Raw.read?, hnestedTokens] at hraw
      cases hraw
      rfl
    refine (hiff 1).2 (hitems ▸ ⟨⟨_, rfl, ?_⟩, ?_⟩)
    · exact .item (List.mem_cons_of_mem _ List.mem_cons_self)
        (.item List.mem_cons_self (.object []))
    · exact List.forall_mem_cons.2 ⟨nofun, nofun⟩

end Request

end Scan

end ExternalTable
