/-!
Numbers written in digits of a base, most significant digit first.
-/

namespace PixelPool.Numeral

/-- The value of an ASCII digit or letter in base sixteen, both cases of letters allowed. -/
def digitValue? (c : Char) : Option Nat :=
  if '0' ≤ c ∧ c ≤ '9' then some (c.toNat - '0'.toNat)
  else if 'a' ≤ c ∧ c ≤ 'f' then some (c.toNat - 'a'.toNat + 10)
  else if 'A' ≤ c ∧ c ≤ 'F' then some (c.toNat - 'A'.toNat + 10)
  else none

/-- The value of the character as a digit of `base`, for bases up to sixteen. -/
def digit? (base : Nat) (c : Char) : Option Nat :=
  (digitValue? c).bind fun d => if d < base then some d else none

/-- Whether the character is a digit of `base`. -/
def isDigit (base : Nat) (c : Char) : Bool := (digit? base c).isSome

/-- The number that continues `acc` by the digits that follow. -/
def continue? (base : Nat) : Nat → List Char → Option Nat
  | acc, [] => some acc
  | acc, c :: rest => (digit? base c).bind fun d => continue? base (acc * base + d) rest

/-- The number written by the digits, of which there must be at least one. Leading zeros are
allowed. -/
def read? (base : Nat) : List Char → Option Nat
  | [] => none
  | digits => continue? base 0 digits

end PixelPool.Numeral
