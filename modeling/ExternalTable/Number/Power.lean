/-!
# Powers

The powers of two, five and ten, as functions of natural numbers: `twoPow`, `fivePow`, `tenPow`.
-/

namespace ExternalTable

/-- A power of two. -/
def twoPow (n : Nat) : Nat := Nat.pow 2 n

/-- A power of five. -/
def fivePow (n : Nat) : Nat := Nat.pow 5 n

/-- A power of ten. -/
def tenPow (n : Nat) : Nat := Nat.pow 10 n

@[simp] theorem tenPow_zero : tenPow 0 = 1 := rfl

theorem tenPow_succ (n : Nat) : tenPow (n + 1) = tenPow n * 10 := rfl

theorem twoPow_succ (n : Nat) : twoPow (n + 1) = twoPow n * 2 := rfl

theorem tenPow_pos (n : Nat) : 0 < tenPow n := by
  induction n with
  | zero => decide
  | succ n ih => rw [tenPow_succ]; omega

end ExternalTable
