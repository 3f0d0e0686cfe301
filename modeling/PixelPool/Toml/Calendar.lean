import PixelPool.Toml.Value
import PixelPool.Numeral.Digits

/-!
Dates and times of a TOML document. A day must be one of the calendar's; a minute may have a leap
second.
-/

namespace PixelPool.Toml

/-- Exactly `count` decimal digits. -/
def fixedDigits? (count : Nat) (s : List Char) : Option (Nat × List Char) :=
  if (s.take count).length = count then
    (Numeral.read? 10 (s.take count)).map (·, s.drop count)
  else none

/-- Two digits for a number of at most `last`. -/
def twoDigits? (last : Nat) (s : List Char) : Option (Nat × List Char) :=
  (fixedDigits? 2 s).bind fun r => if r.1 ≤ last then some r else none

/-- The text after the character `c`, if it starts with it. -/
def expect? (c : Char) : List Char → Option (List Char)
  | [] => none
  | d :: rest => if d = c then some rest else none

/-- The number of days in a month. -/
def daysIn (year month : Nat) : Nat :=
  if month = 2 then
    if year % 4 = 0 ∧ (year % 100 ≠ 0 ∨ year % 400 = 0) then 29 else 28
  else if month = 4 ∨ month = 6 ∨ month = 9 ∨ month = 11 then 30
  else 31

/-- A day, as `2024-02-29`. -/
def date? (s : List Char) : Option (Date × List Char) := do
  let (year, s) ← fixedDigits? 4 s
  let s ← expect? '-' s
  let (month, s) ← twoDigits? 12 s
  let s ← expect? '-' s
  let (day, s) ← twoDigits? (daysIn year month) s
  if month = 0 ∨ day = 0 then none else return (⟨year, month, day⟩, s)

/-- The digits of a fraction of a second, if there is one. -/
def fraction (s : List Char) : List Char × List Char :=
  match s with
  | '.' :: rest =>
    let digits := rest.takeWhile (Numeral.isDigit 10)
    if digits.isEmpty then ([], s) else (digits, rest.dropWhile (Numeral.isDigit 10))
  | _ => ([], s)

/-- A time of day, as `23:59:60.5`. -/
def time? (s : List Char) : Option (Time × List Char) := do
  let (hour, s) ← twoDigits? 23 s
  let s ← expect? ':' s
  let (minute, s) ← twoDigits? 59 s
  let s ← expect? ':' s
  let (second, s) ← twoDigits? 60 s
  let (digits, s) := fraction s
  return (⟨hour, minute, second, digits⟩, s)

/-- An offset in hours and minutes, read after its sign. -/
def hours? (east : Bool) (s : List Char) : Option (Offset × List Char) := do
  let (hour, s) ← twoDigits? 23 s
  let s ← expect? ':' s
  let (minute, s) ← twoDigits? 59 s
  let distance : Int := hour * 60 + minute
  return (.minutes (if east then distance else -distance), s)

/-- An offset, if the text starts with one. -/
def offset? : List Char → Option (Offset × List Char)
  | 'Z' :: rest | 'z' :: rest => some (.universal, rest)
  | '+' :: rest => hours? true rest
  | '-' :: rest => hours? false rest
  | _ => none

/-- What may follow a date: nothing, or a time after `T` or a single blank, possibly at an
offset. -/
def timeOf (date : Date) (s : List Char) : Moment × List Char :=
  match s with
  | c :: rest =>
    if c = 'T' ∨ c = 't' ∨ c = ' ' then
      match time? rest with
      | none => (.day date, s)
      | some (time, after) =>
        match offset? after with
        | none => (.both date time none, after)
        | some (offset, after) => (.both date time (some offset), after)
    else (.day date, s)
  | [] => (.day date, s)

/-- A date, a time of day, or both. -/
def moment? (s : List Char) : Option (Moment × List Char) :=
  match date? s with
  | some (date, rest) => some (timeOf date rest)
  | none => (time? s).map fun r => (.clock r.1, r.2)

end PixelPool.Toml
