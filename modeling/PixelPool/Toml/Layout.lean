/-!
The text between the tokens of a TOML document: blanks, line ends and comments.
-/

namespace PixelPool.Toml

/-- Space and tab, the only blanks inside a line. -/
def isSpace (c : Char) : Bool := c = ' ' || c = '\t'

/-- The characters that may stand in comments: tab, and everything but controls. -/
def isVisible (c : Char) : Bool :=
  c = '\t' || (decide (0x20 ≤ c.toNat) && decide (c.toNat ≠ 0x7f))

/-- The text from its first character on that is no blank. -/
def skipSpaces (s : List Char) : List Char := s.dropWhile isSpace

/-- The text after the line end it starts with. A carriage return counts only before a line feed. -/
def newline? : List Char → Option (List Char)
  | '\n' :: rest => some rest
  | '\r' :: '\n' :: rest => some rest
  | _ => none

/-- The text after a comment, if it starts with one. -/
def skipComment : List Char → List Char
  | '#' :: rest => rest.dropWhile isVisible
  | s => s

/-- The text of the next line, if nothing but blanks and a comment is left on this one. -/
def endOfLine? (s : List Char) : Option (List Char) :=
  match skipComment (skipSpaces s) with
  | [] => some []
  | rest => newline? rest

/-- The text after blanks, line ends and comments, which may stand anywhere between the items of an
array. A comment that holds a control character is left standing from there. -/
def skipLayout : List Char → List Char
  | [] => []
  | '\r' :: '\n' :: rest => skipLayout rest
  | '\n' :: rest => skipLayout rest
  | '#' :: rest => skipLayout (rest.dropWhile isVisible)
  | c :: rest => if isSpace c then skipLayout rest else c :: rest
termination_by s => s.length
decreasing_by
  all_goals simp only [List.length_cons]
  all_goals first
    | omega
    | exact Nat.lt_succ_of_le (List.dropWhile_suffix _).length_le

end PixelPool.Toml
