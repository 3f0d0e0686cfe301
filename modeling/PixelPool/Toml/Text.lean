import PixelPool.Toml.Layout
import PixelPool.Numeral.Digits

/-!
The strings of a TOML document: basic strings with escapes and literal strings without, each on one
line or over many. Every reader gets the text after the opening quotes and gives the string's
content with the text after the closing ones.
-/

namespace PixelPool.Toml

/-- The character with the code point written by the digits, if there is one. -/
def codePoint? (digits : List Char) : Option Char :=
  (Numeral.read? 16 digits).bind fun n => if n.isValidChar then some (Char.ofNat n) else none

/-- The character that an escape stands for, read after the backslash. -/
def escape? : List Char → Option (Char × List Char)
  | 'b' :: rest => some ('\x08', rest)
  | 't' :: rest => some ('\t', rest)
  | 'n' :: rest => some ('\n', rest)
  | 'f' :: rest => some ('\x0c', rest)
  | 'r' :: rest => some ('\r', rest)
  | '"' :: rest => some ('"', rest)
  | '\\' :: rest => some ('\\', rest)
  | 'u' :: rest =>
    if (rest.take 4).length = 4 then (codePoint? (rest.take 4)).map (·, rest.drop 4) else none
  | 'U' :: rest =>
    if (rest.take 8).length = 8 then (codePoint? (rest.take 8)).map (·, rest.drop 8) else none
  | _ => none

/-- The text after the blanks and line ends it starts with. -/
def skipBreaks : List Char → List Char
  | '\r' :: '\n' :: rest => skipBreaks rest
  | '\n' :: rest => skipBreaks rest
  | c :: rest => if isSpace c then skipBreaks rest else c :: rest
  | [] => []

/-- The content of a basic string on one line. -/
def basicText? (s : List Char) : Option (List Char × List Char) :=
  match s with
  | [] => none
  | '"' :: rest => some ([], rest)
  | '\\' :: rest =>
    match escape? rest with
    | none => none
    | some (c, after) =>
      if after.length < rest.length then
        (basicText? after).map fun r => (c :: r.1, r.2)
      else none
  | c :: rest => if isVisible c then (basicText? rest).map fun r => (c :: r.1, r.2) else none
termination_by s.length
decreasing_by all_goals simp only [List.length_cons]; omega

/-- The content of a literal string on one line. -/
def literalText? : List Char → Option (List Char × List Char)
  | [] => none
  | '\'' :: rest => some ([], rest)
  | c :: rest => if isVisible c then (literalText? rest).map fun r => (c :: r.1, r.2) else none

/-- Splits a run of three or more quotes at the end of a string over many lines: up to two of them
belong to the content, and three close it. -/
def closingQuotes? (quote : Char) (s : List Char) : Option (List Char × List Char) :=
  let run := (s.takeWhile (· == quote)).length
  if run < 3 then none
  else
    let inside := if run - 3 < 2 then run - 3 else 2
    some (List.replicate inside quote, s.drop (inside + 3))

/-- The content of a basic string over many lines. A backslash at the end of a line hides the line
end together with all blanks and line ends that follow. -/
def basicLines? (s : List Char) : Option (List Char × List Char) :=
  match s with
  | [] => none
  | '"' :: rest =>
    match closingQuotes? '"' s with
    | some closed => some closed
    | none => (basicLines? rest).map fun r => ('"' :: r.1, r.2)
  | '\\' :: rest =>
    match newline? (skipSpaces rest) with
    | some after =>
      if (skipBreaks after).length < rest.length then basicLines? (skipBreaks after) else none
    | none =>
      match escape? rest with
      | none => none
      | some (c, after) =>
        if after.length < rest.length then
          (basicLines? after).map fun r => (c :: r.1, r.2)
        else none
  | '\r' :: '\n' :: rest => (basicLines? rest).map fun r => ('\n' :: r.1, r.2)
  | '\n' :: rest => (basicLines? rest).map fun r => ('\n' :: r.1, r.2)
  | c :: rest => if isVisible c then (basicLines? rest).map fun r => (c :: r.1, r.2) else none
termination_by s.length
decreasing_by all_goals simp only [List.length_cons]; omega

/-- The content of a literal string over many lines. -/
def literalLines? : List Char → Option (List Char × List Char)
  | [] => none
  | '\'' :: rest =>
    match closingQuotes? '\'' ('\'' :: rest) with
    | some closed => some closed
    | none => (literalLines? rest).map fun r => ('\'' :: r.1, r.2)
  | '\r' :: '\n' :: rest => (literalLines? rest).map fun r => ('\n' :: r.1, r.2)
  | '\n' :: rest => (literalLines? rest).map fun r => ('\n' :: r.1, r.2)
  | c :: rest => if isVisible c then (literalLines? rest).map fun r => (c :: r.1, r.2) else none

/-- The text without the line end it may start with: the one right after the opening quotes of a
string over many lines is no part of it. -/
def skipFirstBreak (s : List Char) : List Char := (newline? s).getD s

/-- A string of any of the four kinds. -/
def text? : List Char → Option (List Char × List Char)
  | '"' :: '"' :: '"' :: rest => basicLines? (skipFirstBreak rest)
  | '"' :: rest => basicText? rest
  | '\'' :: '\'' :: '\'' :: rest => literalLines? (skipFirstBreak rest)
  | '\'' :: rest => literalText? rest
  | _ => none

end PixelPool.Toml
