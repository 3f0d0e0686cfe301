import PixelPool.Toml.Text
import PixelPool.Toml.Value

/-!
Keys of a TOML document: bare or quoted, joined by dots.
-/

namespace PixelPool.Toml

/-- The characters of a bare key: ASCII letters and digits, dash and underscore. -/
def isBare (c : Char) : Bool := c.isAlphanum || c = '-' || c = '_'

/-- One part of a key. -/
def simpleKey? : List Char → Option (Key × List Char)
  | '"' :: rest => basicText? rest
  | '\'' :: rest => literalText? rest
  | s =>
    let bare := s.takeWhile isBare
    if bare.isEmpty then none else some (bare, s.dropWhile isBare)

/-- The parts of a key from a given part on, with blanks allowed around each of them. -/
def keyParts? (s : List Char) : Option (List Key × List Char) :=
  match simpleKey? (skipSpaces s) with
  | none => none
  | some (part, after) =>
    match skipSpaces after with
    | '.' :: rest =>
      if rest.length < s.length then (keyParts? rest).map fun r => (part :: r.1, r.2) else none
    | rest => some ([part], rest)
termination_by s.length

/-- A key may have this many parts at most. -/
def maxKeyParts : Nat := 79

/-- A key with all its parts. -/
def key? (s : List Char) : Option (List Key × List Char) :=
  (keyParts? s).bind fun r => if r.1.length ≤ maxKeyParts then some r else none

end PixelPool.Toml
