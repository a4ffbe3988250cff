/-!
# Doubling special characters

Text is quoted by writing every special character twice.

* `Quoted.double`: writes the special characters twice;
* `Quoted.halve?`: reads that back, and refuses a special character that stands alone;
* `Quoted.enclose`: the same between two quote characters.
-/

namespace ExternalTable.Quoted

/-- Writes every special character twice and every other once. -/
def double (special : Char → Bool) : List Char → List Char
  | [] => []
  | c :: rest => if special c then c :: c :: double special rest else c :: double special rest

/-- Text between two quotes, with the special characters within it doubled. -/
def enclose (quote : Char) (special : Char → Bool) (text : List Char) : List Char :=
  quote :: double special text ++ [quote]

/-- Reads doubled text.  A special character that is not followed by its like is refused. -/
def halve? (special : Char → Bool) : List Char → Option (List Char)
  | [] => some []
  | [c] => if special c then none else some [c]
  | c :: d :: rest =>
      if special c then
        if c = d then (halve? special rest).map (c :: ·) else none
      else
        (halve? special (d :: rest)).map (c :: ·)

@[simp] theorem double_nil (special : Char → Bool) : double special [] = [] := rfl

/-- Doubled text reads back. -/
theorem halve?_double (special : Char → Bool) (s : List Char) :
    halve? special (double special s) = some s := by
  induction s with
  | nil => rfl
  | cons c s ih =>
    by_cases h : special c
    · simp [double, halve?, h, ih]
    · cases hs : double special s with
      | nil =>
        rw [hs] at ih
        have : s = [] := by simpa [halve?] using ih.symm
        simp [double, halve?, h, this]
      | cons d t =>
        rw [hs] at ih
        simp [double, halve?, h, hs, ih]

end ExternalTable.Quoted
