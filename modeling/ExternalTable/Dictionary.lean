/-!
# Dictionaries

Finite maps from texts, with their entries in the order of the keys.

* `Dictionary.insert`: sets the value of a key;
* `Dictionary.get?`: the value of a key;
* `Dictionary.update`: sets the value of a key from the one it had.

Keys increase strictly along the entries, so the order in which they were set leaves no trace.
-/

namespace ExternalTable

/-- A finite map from texts.  The keys of the entries increase strictly, compared character by
character. -/
structure Dictionary (α : Type) where
  entries : List (String × α)
  increasing : entries.Pairwise fun d e => d.1 < e.1
  deriving DecidableEq

namespace Dictionary

variable {α : Type}

/-- The dictionary without entries. -/
def empty : Dictionary α := ⟨[], .nil⟩

/-- Sets the value of a key in ordered entries, from the one it had. -/
def updateEntries (key : String) (f : Option α → α) : List (String × α) → List (String × α)
  | [] => [(key, f none)]
  | (k, v) :: rest =>
      if key < k then (key, f none) :: (k, v) :: rest
      else if key = k then (k, f (some v)) :: rest
      else (k, v) :: updateEntries key f rest

/-- Setting a key brings in no other key. -/
theorem fst_mem_updateEntries {key : String} {f : Option α → α} {entries : List (String × α)}
    {e : String × α} (h : e ∈ updateEntries key f entries) :
    e.1 = key ∨ ∃ d ∈ entries, d.1 = e.1 := by
  induction entries with
  | nil => exact .inl (by simp_all [updateEntries])
  | cons d rest ih =>
    obtain ⟨k, v⟩ := d
    unfold updateEntries at h
    split at h
    · rcases List.mem_cons.mp h with rfl | h
      · exact .inl rfl
      · exact .inr ⟨e, h, rfl⟩
    · split at h
      · next hk =>
        rcases List.mem_cons.mp h with rfl | h
        · exact .inl hk.symm
        · exact .inr ⟨e, List.mem_cons_of_mem _ h, rfl⟩
      · rcases List.mem_cons.mp h with rfl | h
        · exact .inr ⟨(k, v), List.mem_cons_self, rfl⟩
        · rcases ih h with h | ⟨d, hd, hk⟩
          · exact .inl h
          · exact .inr ⟨d, List.mem_cons_of_mem _ hd, hk⟩

/-- Setting a key keeps the keys increasing. -/
theorem increasing_updateEntries (key : String) (f : Option α → α) {entries : List (String × α)}
    (h : entries.Pairwise fun d e => d.1 < e.1) :
    (updateEntries key f entries).Pairwise fun d e => d.1 < e.1 := by
  induction entries with
  | nil => simp [updateEntries]
  | cons d rest ih =>
    obtain ⟨k, v⟩ := d
    obtain ⟨hd, hrest⟩ := List.pairwise_cons.mp h
    unfold updateEntries
    split
    · next hlt =>
      refine List.pairwise_cons.mpr ⟨fun e he => ?_, h⟩
      rcases List.mem_cons.mp he with rfl | he
      · exact hlt
      · exact String.lt_trans hlt (hd e he)
    · next hlt =>
      split
      · exact List.pairwise_cons.mpr ⟨hd, hrest⟩
      · next hne =>
        refine List.pairwise_cons.mpr ⟨fun e he => ?_, ih hrest⟩
        rcases fst_mem_updateEntries he with hk | ⟨d, hmem, hk⟩
        · exact hk ▸ Std.lt_of_le_of_ne hlt (Ne.symm hne)
        · exact hk ▸ hd d hmem

/-- Sets the value of a key from the one it had. -/
def update (d : Dictionary α) (key : String) (f : Option α → α) : Dictionary α :=
  ⟨updateEntries key f d.entries, increasing_updateEntries key f d.increasing⟩

/-- Sets the value of a key. -/
def insert (d : Dictionary α) (key : String) (value : α) : Dictionary α :=
  d.update key fun _ => value

/-- The value of a key. -/
def get? (d : Dictionary α) (key : String) : Option α :=
  d.entries.lookup key

/-- The dictionary of a list of entries, of which later ones win. -/
def ofList (entries : List (String × α)) : Dictionary α :=
  entries.foldl (fun d (key, value) => d.insert key value) empty

@[simp] theorem get?_empty (key : String) : (empty : Dictionary α).get? key = none := rfl

theorem lookup_updateEntries_of_ne {key other : String} (f : Option α → α) (h : other ≠ key)
    (entries : List (String × α)) :
    (updateEntries key f entries).lookup other = entries.lookup other := by
  have hb : (other == key) = false := beq_eq_false_iff_ne.mpr h
  induction entries with
  | nil => simp [updateEntries, List.lookup_cons, hb]
  | cons e rest ih =>
    obtain ⟨k, v⟩ := e
    unfold updateEntries
    split
    · simp only [List.lookup_cons, hb]
    · split
      · next hk => subst hk; simp only [List.lookup_cons, hb]
      · simp only [List.lookup_cons, ih]

/-- Setting one key leaves the others alone. -/
theorem get?_update_of_ne (d : Dictionary α) {key other : String} (f : Option α → α)
    (h : other ≠ key) : (d.update key f).get? other = d.get? other :=
  lookup_updateEntries_of_ne f h d.entries

/-- Entries of greater keys only do not hold a key. -/
theorem lookup_eq_none_of_lt {key : String} {entries : List (String × α)}
    (h : ∀ e ∈ entries, key < e.1) : entries.lookup key = none := by
  induction entries with
  | nil => rfl
  | cons e rest ih =>
    obtain ⟨k, v⟩ := e
    have hlt : key < k := h (k, v) List.mem_cons_self
    have hb : (key == k) = false :=
      beq_eq_false_iff_ne.mpr fun hk => String.lt_irrefl k (hk ▸ hlt)
    simpa only [List.lookup_cons, hb] using ih fun e he => h e (List.mem_cons_of_mem _ he)

/-- Entries that increase from a greater key on do not hold a key. -/
theorem lookup_cons_eq_none_of_lt {key k : String} {v : α} {entries : List (String × α)}
    (h : ((k, v) :: entries).Pairwise fun d e => d.1 < e.1) (hlt : key < k) :
    ((k, v) :: entries).lookup key = none :=
  lookup_eq_none_of_lt fun _ he => (List.mem_cons.mp he).elim (fun he => he ▸ hlt) fun he =>
    String.lt_trans hlt ((List.pairwise_cons.mp h).1 _ he)

theorem lookup_updateEntries_self (key : String) (f : Option α → α) {entries : List (String × α)}
    (h : entries.Pairwise fun d e => d.1 < e.1) :
    (updateEntries key f entries).lookup key = some (f (entries.lookup key)) := by
  induction entries with
  | nil => simp [updateEntries]
  | cons e rest ih =>
    obtain ⟨k, v⟩ := e
    unfold updateEntries
    split
    -- All keys are greater, so the key had no value.
    · next hlt => rw [lookup_cons_eq_none_of_lt h hlt, List.lookup_cons_self]
    · split
      · next heq => subst heq; simp only [List.lookup_cons_self]
      · next hne =>
        simpa only [List.lookup_cons, beq_eq_false_iff_ne.mpr hne] using
          ih (List.pairwise_cons.mp h).2

/-- A key that was set has the value made from the one that it had. -/
@[simp] theorem get?_update_self (d : Dictionary α) (key : String) (f : Option α → α) :
    (d.update key f).get? key = some (f (d.get? key)) :=
  lookup_updateEntries_self key f d.increasing

/-- A value that was set is found. -/
@[simp] theorem get?_insert_self (d : Dictionary α) (key : String) (value : α) :
    (d.insert key value).get? key = some value :=
  get?_update_self d key fun _ => value

/-- Increasing entries are determined by the values of their keys. -/
theorem eq_of_lookup_eq {as bs : List (String × α)}
    (ha : as.Pairwise fun d e => d.1 < e.1) (hb : bs.Pairwise fun d e => d.1 < e.1)
    (h : ∀ key, as.lookup key = bs.lookup key) : as = bs := by
  induction as generalizing bs with
  | nil =>
    cases bs with
    | nil => rfl
    | cons b bs =>
      obtain ⟨k, w⟩ := b
      simpa using h k
  | cons a as ih =>
    obtain ⟨j, v⟩ := a
    cases bs with
    | nil => simpa using h j
    | cons b bs =>
      obtain ⟨k, w⟩ := b
      have not_lt : ¬ j < k := fun hlt => by
        simpa [lookup_cons_eq_none_of_lt hb hlt] using h j
      have not_gt : ¬ k < j := fun hlt => by
        simpa [lookup_cons_eq_none_of_lt ha hlt] using h k
      obtain rfl : j = k := String.le_antisymm not_gt not_lt
      obtain rfl : v = w := by simpa using h j
      obtain ⟨has, ha⟩ := List.pairwise_cons.mp ha
      obtain ⟨hbs, hb⟩ := List.pairwise_cons.mp hb
      refine congrArg _ (ih ha hb fun key => ?_)
      by_cases hkey : key = j
      · subst hkey
        rw [lookup_eq_none_of_lt has, lookup_eq_none_of_lt hbs]
      · simpa only [List.lookup_cons, beq_eq_false_iff_ne.mpr hkey] using h key

/-- A dictionary is determined by the values of its keys. -/
theorem eq_of_get?_eq {d e : Dictionary α} (h : ∀ key, d.get? key = e.get? key) : d = e := by
  cases d
  cases e
  congr
  exact eq_of_lookup_eq ‹_› ‹_› h

end Dictionary

end ExternalTable
