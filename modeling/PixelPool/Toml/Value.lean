import PixelPool.Numeral.Binary64

/-!
The values of a TOML document.

A table remembers how it came about, since that decides what may still be added to it: a table with
a header of its own stands once, a table that a header only passed through may still get its own
header, a table made by a dotted key grows by dotted keys only, and an inline table is closed.
-/

namespace PixelPool.Toml

/-- A calendar day. -/
structure Date where
  year : Nat
  month : Nat
  day : Nat
  deriving DecidableEq

/-- A time of day, with the digits of its fraction of a second. -/
structure Time where
  hour : Nat
  minute : Nat
  second : Nat
  fraction : List Char
  deriving DecidableEq

/-- A distance from universal time, in minutes. -/
inductive Offset where
  | universal
  | minutes (east : Int)
  deriving DecidableEq

/-- A date, a time of day, or both, the latter possibly at an offset. -/
inductive Moment where
  | day (date : Date)
  | clock (time : Time)
  | both (date : Date) (time : Time) (offset : Option Offset)
  deriving DecidableEq

/-- How a table came about. -/
inductive Form where
  /-- By its own header; also the document itself and each element of an array of tables. -/
  | header
  /-- On the way to the table of a longer header. -/
  | implied
  /-- By a dotted key. -/
  | dotted
  /-- Between braces, as a value. -/
  | inline
  deriving DecidableEq

/-- A value. The entries of a table stand in the order in which the document defines them. -/
inductive Value where
  | string (text : List Char)
  | integer (n : Int)
  | float (x : Numeral.Binary64)
  | boolean (b : Bool)
  | moment (m : Moment)
  | array (items : List Value)
  | table (form : Form) (entries : List (List Char × Value))
  | tables (elements : List (List (List Char × Value)))

/-- A key without its quotes and escapes. -/
abbrev Key := List Char

/-- The entries of a table. -/
abbrev Entries := List (Key × Value)

end PixelPool.Toml
