import PixelPool.Numeral.Binary64
import PixelPool.Numeral.Digits

/-!
The numbers of a TOML document. Digits may be grouped by single underscores between them. Integers
have 64 bits; a float that rounds to positive infinity is no number.
-/

namespace PixelPool.Toml

open Numeral (Binary64)

/-- The digits of `base` that the text goes on with after a digit, each possibly after one
underscore, and the rest. An underscore without a digit behind it is left standing. -/
def moreDigits (base : Nat) : List Char → List Char × List Char
  | '_' :: c :: rest =>
    if Numeral.isDigit base c then
      let r := moreDigits base rest
      (c :: r.1, r.2)
    else ([], '_' :: c :: rest)
  | c :: rest =>
    if Numeral.isDigit base c then
      let r := moreDigits base rest
      (c :: r.1, r.2)
    else ([], c :: rest)
  | [] => ([], [])

/-- One or more digits of `base`, leading zeros allowed. -/
def digits? (base : Nat) : List Char → Option (List Char × List Char)
  | c :: rest =>
    if Numeral.isDigit base c then
      let r := moreDigits base rest
      some (c :: r.1, r.2)
    else none
  | [] => none

/-- A sign, if the text starts with one, as "is negative". -/
def sign : List Char → Bool × List Char
  | '-' :: rest => (true, rest)
  | '+' :: rest => (false, rest)
  | s => (false, s)

/-- The digits before a point or exponent: a lone zero, or digits that start with no zero. -/
def wholeDigits? : List Char → Option (List Char × List Char)
  | '0' :: rest => some (['0'], rest)
  | s => digits? 10 s

/-- The largest integer of 64 bits. -/
def maxInteger : Int := 0x7FFFFFFFFFFFFFFF

/-- The smallest integer of 64 bits. -/
def minInteger : Int := -0x8000000000000000

/-- The integer, if it has 64 bits. -/
def inRange? (n : Int) : Option Int := if minInteger ≤ n ∧ n ≤ maxInteger then some n else none

/-- An unsigned integer of `base`, read after its mark. -/
def basedInteger? (base : Nat) (s : List Char) : Option (Int × List Char) := do
  let (digits, rest) ← digits? base s
  let n ← Numeral.read? base digits
  let n ← inRange? n
  return (n, rest)

/-- An integer: hexadecimal, octal and binary by their marks, else decimal with an optional sign. -/
def integer? : List Char → Option (Int × List Char)
  | '0' :: 'x' :: rest => basedInteger? 16 rest
  | '0' :: 'o' :: rest => basedInteger? 8 rest
  | '0' :: 'b' :: rest => basedInteger? 2 rest
  | s => do
    let (negative, unsigned) := sign s
    let (digits, rest) ← wholeDigits? unsigned
    let n ← Numeral.read? 10 digits
    let n ← inRange? (if negative then -(n : Int) else n)
    return (n, rest)

/-- The exponent after its letter. -/
def exponent? (s : List Char) : Option (Int × List Char) := do
  let (negative, unsigned) := sign s
  let (digits, rest) ← digits? 10 unsigned
  let n ← Numeral.read? 10 digits
  return (if negative then -(n : Int) else n, rest)

/-- The part of a float after its whole digits: a fraction, an exponent, or both. -/
def floatTail? : List Char → Option (List Char × Int × List Char)
  | '.' :: rest => do
    let (fraction, rest) ← digits? 10 rest
    match rest with
    | 'e' :: after | 'E' :: after =>
      let (power, rest) ← exponent? after
      return (fraction, power, rest)
    | _ => return (fraction, 0, rest)
  | 'e' :: after | 'E' :: after => do
    let (power, rest) ← exponent? after
    return ([], power, rest)
  | _ => none

/-- The infinities and the value that is no number, read after the sign. -/
def specialFloat? (negative : Bool) : List Char → Option (Binary64 × List Char)
  | 'i' :: 'n' :: 'f' :: rest => some (.infinite negative, rest)
  | 'n' :: 'a' :: 'n' :: rest => some (.notANumber, rest)
  | _ => none

/-- A float in digits. -/
def decimalFloat? (s : List Char) : Option (Binary64 × List Char) := do
  let (negative, unsigned) := sign s
  let (whole, rest) ← wholeDigits? unsigned
  let (fraction, power, rest) ← floatTail? rest
  let coefficient ← Numeral.read? 10 (whole ++ fraction)
  let x := Binary64.ofDecimal negative coefficient (power - fraction.length)
  if x = .infinite false then none else return (x, rest)

/-- A float. -/
def float? (s : List Char) : Option (Binary64 × List Char) :=
  match decimalFloat? s with
  | some r => some r
  | none => specialFloat? (sign s).1 (sign s).2

end PixelPool.Toml
