/-!
Numbers of the 64-bit binary floating-point format, in exact integer arithmetic: the nearest such
number to a decimal, and the shortest decimal that still reads back as the same number.

The shortest decimal is found on the grids of multiples of a power of ten, coarsest first. On each
grid only the two neighbours of the value can be nearest to it; the first grid on which one of them
lies among the reals that round to the value gives the fewest digits.
-/

namespace PixelPool.Numeral

/-- A floating-point number: a signed multiple of a power of two, an infinity, or no number. -/
inductive Binary64 where
  | finite (negative : Bool) (mantissa : Nat) (exponent : Int)
  | infinite (negative : Bool)
  | notANumber
  deriving DecidableEq

namespace Binary64

/-- The quotient rounded to the nearest integer, a half to the even neighbour. -/
def roundHalfEven (num den : Nat) : Nat :=
  let quotient := num / den
  let twice := 2 * (num % den)
  if twice < den then quotient
  else if den < twice then quotient + 1
  else quotient + quotient % 2

/-- The fraction `num / den` divided by two to the power `e`, as a fraction. -/
def unscale (num den : Nat) (e : Int) : Nat × Nat :=
  if 0 ≤ e then (num, den * Nat.pow 2 e.toNat) else (num * Nat.pow 2 (-e).toNat, den)

/-- The smallest exponent of a finite number. -/
def minExponent : Int := -1074

/-- The largest exponent of a finite number whose mantissa has all its 53 bits. -/
def maxExponent : Int := 971

/-- The number nearest to the fraction `num / den`, with the given sign. -/
def nearest (negative : Bool) (num den : Nat) : Binary64 :=
  if num = 0 then .finite negative 0 minExponent
  else
    let estimate : Int := (Nat.log2 num : Int) - (Nat.log2 den : Int)
    let reduced := unscale num den estimate
    let top := if reduced.1 < reduced.2 then estimate - 1 else estimate
    let exponent := if top - 52 < minExponent then minExponent else top - 52
    let scaled := unscale num den exponent
    let mantissa := roundHalfEven scaled.1 scaled.2
    let carried :=
      if mantissa = Nat.pow 2 53 then (Nat.pow 2 52, exponent + 1) else (mantissa, exponent)
    if maxExponent < carried.2 then .infinite negative
    else .finite negative carried.1 carried.2

/-- The number nearest to `coefficient` times ten to the power `power`. Values far outside the range
of the format are settled by their number of digits alone. -/
def ofDecimal (negative : Bool) (coefficient : Nat) (power : Int) : Binary64 :=
  let magnitude := power + (Nat.toDigits 10 coefficient).length
  if coefficient = 0 ∨ magnitude < -330 then .finite negative 0 minExponent
  else if 330 < magnitude then .infinite negative
  else if 0 ≤ power then nearest negative (coefficient * Nat.pow 10 power.toNat) 1
  else nearest negative coefficient (Nat.pow 10 (-power).toNat)

/-- The multiple of ten to the power `power` that is nearest to `mantissa * 2 ^ exponent` among
those that round to it, as its coefficient. The reals that round to the value reach half way to its
neighbours, ends included if the mantissa is even; the lower neighbour of a power of two is
nearer. -/
def onGrid? (mantissa : Nat) (exponent power : Int) : Option Nat :=
  let low := if mantissa = Nat.pow 2 52 ∧ minExponent < exponent then 4 * mantissa - 1
    else 4 * mantissa - 2
  let high := 4 * mantissa + 2
  let quarter := unscale 1 1 (2 - exponent)
  let grid := if 0 ≤ power then (Nat.pow 10 power.toNat, 1) else (1, Nat.pow 10 (-power).toNat)
  let perUnit := quarter.1 * grid.2
  let perStep := quarter.2 * grid.1
  let below := 4 * mantissa * perUnit / perStep
  let ends := mantissa % 2 = 0
  let lowFits := low * perUnit < below * perStep ∨ (ends ∧ low * perUnit = below * perStep)
  let highFits := (below + 1) * perStep < high * perUnit ∨
    (ends ∧ (below + 1) * perStep = high * perUnit)
  let nearerBelow := 2 * (4 * mantissa * perUnit) < (2 * below + 1) * perStep
  if lowFits then
    if highFits then some (if nearerBelow then below else below + 1) else some below
  else if highFits then some (below + 1)
  else none

/-- The shortest decimal that reads back as `mantissa * 2 ^ exponent`, as coefficient and power of
ten. No number of the format needs a grid coarser than the first or finer than the last one
tried. -/
def shortest (mantissa : Nat) (exponent : Int) : Nat × Int :=
  let attempt (step : Nat) : Option (Nat × Int) :=
    let power : Int := 310 - (step : Int)
    (onGrid? mantissa exponent power).map fun coefficient => (coefficient, power)
  ((List.range 650).findSome? attempt).getD (0, 0)

/-- The decimal `coefficient * 10 ^ power` written without an exponent, with at least one digit on
either side of the point. -/
def positional (coefficient : Nat) (power : Int) : List Char :=
  let digits := Nat.toDigits 10 coefficient
  if 0 ≤ power then digits ++ List.replicate power.toNat '0' ++ ['.', '0']
  else
    let places := (-power).toNat
    let padded := List.replicate (places + 1 - digits.length) '0' ++ digits
    padded.take (padded.length - places) ++ '.' :: padded.drop (padded.length - places)

/-- The number as diagnostics write it. -/
def text : Binary64 → List Char
  | .finite negative mantissa exponent =>
    let decimal := if mantissa = 0 then (0, 0) else shortest mantissa exponent
    (if negative then ['-'] else []) ++ positional decimal.1 decimal.2
  | .infinite negative => if negative then ['-', 'i', 'n', 'f'] else ['i', 'n', 'f']
  | .notANumber => ['N', 'a', 'N']

end Binary64

end PixelPool.Numeral
