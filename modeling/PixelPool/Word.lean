/-!
The range of a machine word of 64 bits, in which sizes and counters are kept, and multiplication
that notices when its result leaves that range.
-/

namespace PixelPool.Word

/-- The largest size a word can hold: all its 64 bits are set. -/
def max : Nat := 0xFFFFFFFFFFFFFFFF

/-- The largest number of bytes that one block of memory can have: half the range of a word. -/
def maxBlock : Nat := 0x7FFFFFFFFFFFFFFF

/-- The product, unless it does not fit a word. -/
def mul? (a b : Nat) : Option Nat := if a * b ≤ max then some (a * b) else none

theorem mul?_eq_some_iff {a b n : Nat} : mul? a b = some n ↔ n = a * b ∧ a * b ≤ max := by
  unfold mul?
  split <;> simp_all [eq_comm]

end PixelPool.Word
