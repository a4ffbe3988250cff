/-!
# Blank text

The white space of Unicode (the property `White_Space`), and text that holds nothing else.
-/

namespace ExternalTable

/-- The code points of white space, as ranges with both ends included. -/
def blankRanges : List (Nat × Nat) :=
  [(0x9, 0xD), (0x20, 0x20), (0x85, 0x85), (0xA0, 0xA0), (0x1680, 0x1680), (0x2000, 0x200A),
    (0x2028, 0x2029), (0x202F, 0x202F), (0x205F, 0x205F), (0x3000, 0x3000)]

/-- Whether a character is white space. -/
def isBlankChar (c : Char) : Bool :=
  blankRanges.any fun (first, last) => decide (first ≤ c.toNat ∧ c.toNat ≤ last)

/-- Whether a text holds nothing but white space. -/
def isBlank (text : List Char) : Bool :=
  text.all isBlankChar

@[simp] theorem isBlank_nil : isBlank [] = true := rfl

end ExternalTable
