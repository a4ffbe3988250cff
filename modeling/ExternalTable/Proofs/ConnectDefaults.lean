import Mathlib.Tactic.Common
import ExternalTable.Source.Basic

/-!
# The properties of a connection

A connection to a source of the MySQL family carries the configured user and password, and the
defaults of the plugin that the URL does not set.  A URL sets a parameter in its query, after the
first question mark; but a default also gives way to a URL that has its name in another place.

* `Sets`, `Strays`: a URL that sets a parameter, and one that only contains its name;
* `occursIn_iff`, `urlMentions_iff`: what it is for a URL to contain a name;
* `Dictionary.get?_insert_eq_some_iff`, `property?_foldl_addDefault`: the properties after one is
  set, and after all defaults are added;
* `property?_connectOptions`: the main statement.
-/

namespace ExternalTable

theorem Dictionary.get?_insert_eq_some_iff {α : Type} (d : Dictionary α) (key other : String)
    (value v : α) :
    (d.insert key value).get? other = some v ↔
      (other = key ∧ v = value) ∨ (other ≠ key ∧ d.get? other = some v) := by
  by_cases h : other = key
  · subst h
    simp [eq_comm]
  · have hother : (d.insert key value).get? other = d.get? other :=
      d.get?_update_of_ne (fun _ => value) h
    simp [hother, h]

/-- Occurring in a text is being a part of it. -/
theorem ConnectOptions.occursIn_iff (part text : List Char) :
    occursIn part text = true ↔ part <:+: text := by
  induction text with
  | nil => simp [occursIn]
  | cons c text ih =>
    rw [occursIn, Bool.or_eq_true, ih, List.isPrefixOf_iff_prefix, List.infix_cons_iff]

namespace Source

/-! ### Parameters of a URL -/

/-- The items of the query of a URL: the pieces between ampersands of what follows the first
question mark. -/
def queryItems (url : String) : List (List Char) :=
  (url.toList.dropWhile (· ≠ '?')).tail.splitOn '&'

/-- Whether a URL sets a parameter: an item of its query has exactly this name before the first
equals sign. -/
def Sets (url key : String) : Prop :=
  ∃ item ∈ queryItems url, item.takeWhile (· ≠ '=') = key.toList

/-- Whether a URL contains the name of a parameter without setting it. -/
def Strays (url key : String) : Prop :=
  key.toList <:+: url.toList ∧ ¬ Sets url key

instance (url key : String) : Decidable (Sets url key) :=
  inferInstanceAs (Decidable (∃ item ∈ queryItems url, _))

theorem infix_of_mem_intercalate (separator : List Char) {t : List Char} {ts : List (List Char)}
    (h : t ∈ ts) : t <:+: separator.intercalate ts := by
  induction ts with
  | nil => exact absurd h List.not_mem_nil
  | cons u ts ih =>
    cases ts with
    | nil =>
      rw [List.mem_singleton.1 h]
      simp [List.intercalate]
    | cons w ts =>
      rw [List.intercalate_cons_cons]
      rcases List.mem_cons.1 h with rfl | h
      · exact ((List.prefix_append _ _).trans (List.prefix_append _ _)).isInfix
      · exact (ih h).trans (List.suffix_append _ _).isInfix

/-- What a URL sets it contains. -/
theorem Sets.infix {url key : String} (h : Sets url key) : key.toList <:+: url.toList := by
  obtain ⟨item, hitem, hkey⟩ := h
  have hquery : item <:+: (url.toList.dropWhile (· ≠ '?')).tail := by
    have := infix_of_mem_intercalate ['&'] hitem
    rwa [queryItems, List.intercalate_splitOn] at this
  have hname : key.toList <:+: item := hkey ▸ (List.takeWhile_prefix _).isInfix
  have hafter : (url.toList.dropWhile (· ≠ '?')).tail <:+: url.toList :=
    ((List.tail_suffix _).trans (List.dropWhile_suffix _)).isInfix
  exact (hname.trans hquery).trans hafter

theorem urlMentions_iff (o : ConnectOptions) (key : String) :
    o.urlMentions key = true ↔ Sets o.url key ∨ Strays o.url key := by
  rw [ConnectOptions.urlMentions, ConnectOptions.occursIn_iff, Strays]
  by_cases h : Sets o.url key
  · simp [h, h.infix]
  · simp [h]

/-! ### Properties -/

theorem url_addDefault (o : ConnectOptions) (p : String × String) :
    (addDefault o p).url = o.url := by
  unfold addDefault
  split <;> rfl

/-- A default that is new is there afterwards unless the URL mentions it. -/
theorem property?_addDefault {o : ConnectOptions} {p : String × String}
    (hnew : o.property? p.1 = none) (key value : String) :
    (addDefault o p).property? key = some value ↔
      o.property? key = some value ∨ ((key, value) = p ∧ o.urlMentions p.1 = false) := by
  unfold addDefault
  split
  · next h => simp [h]
  · next h =>
    rw [ConnectOptions.withProperty, ConnectOptions.property?, Dictionary.get?_insert_eq_some_iff]
    by_cases hkey : key = p.1
    · subst hkey
      simp [hnew, h, Prod.ext_iff]
    · simp [hkey, Prod.ext_iff, ConnectOptions.property?]

/-- Defaults with different names, all of them new, are added unless the URL mentions them. -/
theorem property?_foldl_addDefault {defaults : List (String × String)} {o : ConnectOptions}
    (hdistinct : (defaults.map Prod.fst).Nodup) (hnew : ∀ p ∈ defaults, o.property? p.1 = none)
    (key value : String) :
    (defaults.foldl addDefault o).property? key = some value ↔
      o.property? key = some value ∨
        ((key, value) ∈ defaults ∧ ¬ Sets o.url key ∧ ¬ Strays o.url key) := by
  induction defaults generalizing o with
  | nil => simp
  | cons p defaults ih =>
    obtain ⟨hp, hrest⟩ := List.forall_mem_cons.1 hnew
    obtain ⟨hnotin, hdistinct⟩ := List.nodup_cons.1 hdistinct
    have hstep := property?_addDefault hp
    have hnew' : ∀ q ∈ defaults, (addDefault o p).property? q.1 = none := by
      intro q hq
      refine Option.eq_none_iff_forall_ne_some.2 fun v hv => ?_
      rcases (hstep q.1 v).1 hv with h | ⟨hpair, -⟩
      · rw [hrest q hq] at h
        cases h
      · exact hnotin (List.mem_map.2 ⟨q, hq, (Prod.ext_iff.1 hpair).1⟩)
    rw [List.foldl_cons, ih hdistinct hnew', hstep, url_addDefault, or_assoc, List.mem_cons]
    have hmentions : o.urlMentions p.1 = false ↔ ¬ Sets o.url p.1 ∧ ¬ Strays o.url p.1 := by
      rw [← not_or, ← urlMentions_iff, Bool.not_eq_true]
    rw [hmentions]
    constructor
    · rintro (h | ⟨rfl, h⟩ | ⟨hmem, h⟩)
      · exact .inl h
      · exact .inr ⟨.inl rfl, h⟩
      · exact .inr ⟨.inr hmem, h⟩
    · rintro (h | ⟨rfl | hmem, h⟩)
      · exact .inl h
      · exact .inr (.inl ⟨rfl, h⟩)
      · exact .inr (.inr ⟨hmem, h⟩)

/-- The properties that a configuration gives. -/
theorem property?_config (c : Config) (key value : String) :
    c.connectOptions.property? key = some value ↔
      (key = "user" ∧ value = c.user) ∨ (key = "password" ∧ c.password = some value) := by
  unfold Config.connectOptions
  cases hpassword : c.password with
  | none =>
    simp [ConnectOptions.property?, ConnectOptions.withProperty, ConnectOptions.ofUrl,
      Dictionary.get?_insert_eq_some_iff]
  | some password =>
    simp only [ConnectOptions.property?, ConnectOptions.withProperty, ConnectOptions.ofUrl,
      Dictionary.get?_insert_eq_some_iff, Dictionary.get?_empty, Option.some.injEq]
    by_cases hkey : key = "password"
    · subst hkey
      simp [eq_comm]
    · simp [hkey]

/-- **A default is left out where the URL sets it, and where its name strays.**  The properties of a
connection of the MySQL family are the configured user, the configured password if there is one, and
each default that the URL neither sets nor contains in any other place; there are no others. -/
theorem property?_connectOptions (c : Config) (key value : String) :
    (Source.mk .mysql c).connectOptions.property? key = some value ↔
      (key = "user" ∧ value = c.user) ∨ (key = "password" ∧ c.password = some value) ∨
        ((key, value) ∈ Plugin.mysql.connectDefaults ∧ ¬ Sets c.url key ∧ ¬ Strays c.url key) := by
  have hurl : c.connectOptions.url = c.url := by
    unfold Config.connectOptions
    split <;> rfl
  have hnew : ∀ p ∈ Plugin.mysql.connectDefaults, c.connectOptions.property? p.1 = none := by
    intro p hp
    have hnames : p.1 ≠ "user" ∧ p.1 ≠ "password" := by
      revert p
      decide
    refine Option.eq_none_iff_forall_ne_some.2 fun v hv => ?_
    rcases (property?_config c p.1 v).1 hv with ⟨h, -⟩ | ⟨h, -⟩
    · exact hnames.1 h
    · exact hnames.2 h
  rw [connectOptions, property?_foldl_addDefault (by decide) hnew, property?_config, hurl, or_assoc]

/-- The name of a default in the value of another parameter keeps that default out. -/
theorem default_lost_to_value :
    let url := "jdbc:mysql://db/shop?note=tinyInt1isBit"
    ("tinyInt1isBit", "false") ∈ Plugin.mysql.connectDefaults ∧ ¬ Sets url "tinyInt1isBit" ∧
      (Source.mk .mysql ⟨url, "app", none, "orders"⟩).connectOptions.property? "tinyInt1isBit" =
        none := by
  decide

end Source

end ExternalTable
