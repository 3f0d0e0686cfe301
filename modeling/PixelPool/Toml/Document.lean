import PixelPool.Toml.Calendar
import PixelPool.Toml.Key
import PixelPool.Toml.Number
import PixelPool.Toml.Table

/-!
Reading a TOML document (version 1.0). A reader gets text and gives what it read together with the
text after it; a document is read line by line into its entries. Loops end because each turn leaves
less text, which they check as they go.
-/

namespace PixelPool.Toml

/-- The items of an array up to and with its closing bracket, for a given reader of items. A comma
may follow the last item. -/
def items? (item : List Char → Option (Value × List Char)) (s : List Char) :
    Option (List Value × List Char) :=
  match skipLayout s with
  | ']' :: rest => some ([], rest)
  | start =>
    match item start with
    | none => none
    | some (v, after) =>
      match skipLayout after with
      | ']' :: rest => some ([v], rest)
      | ',' :: rest =>
        if rest.length < s.length then (items? item rest).map fun r => (v :: r.1, r.2) else none
      | _ => none
termination_by s.length

/-- A key with its value, on one line up to the end of the value. -/
def pair? (value : List Char → Option (Value × List Char)) (s : List Char) :
    Option (List Key × Value × List Char) := do
  let (key, rest) ← key? s
  match rest with
  | '=' :: rest =>
    let (v, rest) ← value (skipSpaces rest)
    return (key, v, rest)
  | _ => none

/-- The pairs of an inline table after its opening brace or a comma, up to and with its closing
brace. -/
def pairs? (value : List Char → Option (Value × List Char)) (s : List Char) (entries : Entries) :
    Option (Entries × List Char) :=
  match pair? value s with
  | none => none
  | some (key, v, after) =>
    match addAt key v .inline entries with
    | none => none
    | some entries =>
      match skipSpaces after with
      | '\x7d' :: rest => some (entries, rest)
      | ',' :: rest => if rest.length < s.length then pairs? value rest entries else none
      | _ => none
termination_by s.length

/-- An inline table, read after its opening brace. -/
def inlineTable? (value : List Char → Option (Value × List Char)) (s : List Char) :
    Option (Entries × List Char) :=
  match skipSpaces s with
  | '\x7d' :: rest => some ([], rest)
  | _ => pairs? value s []

/-- A date, time or number. Dates are tried first and floats before integers, since an integer may
start either. -/
def quantity? (s : List Char) : Option (Value × List Char) :=
  match moment? s with
  | some (m, rest) => some (.moment m, rest)
  | none =>
    match float? s with
    | some (x, rest) => some (.float x, rest)
    | none => (integer? s).map fun r => (.integer r.1, r.2)

/-- A value that may nest `depth` arrays and inline tables. -/
def value? : (depth : Nat) → List Char → Option (Value × List Char)
  | depth, '[' :: rest =>
    match depth with
    | 0 => none
    | depth + 1 => (items? (value? depth) rest).map fun r => (.array r.1, r.2)
  | depth, '\x7b' :: rest =>
    match depth with
    | 0 => none
    | depth + 1 => (inlineTable? (value? depth) rest).map fun r => (.table .inline r.1, r.2)
  | _, 't' :: 'r' :: 'u' :: 'e' :: rest => some (.boolean true, rest)
  | _, 'f' :: 'a' :: 'l' :: 's' :: 'e' :: rest => some (.boolean false, rest)
  | _, '"' :: rest => (text? ('"' :: rest)).map fun r => (.string r.1, r.2)
  | _, '\'' :: rest => (text? ('\'' :: rest)).map fun r => (.string r.1, r.2)
  | _, s => quantity? s

/-- Arrays and inline tables may be nested this deep. -/
def maxDepth : Nat := 79

/-- A header line, read after its first bracket. -/
def headerLine? (d : Draft) : List Char → Option (Draft × List Char)
  | '[' :: rest => do
    let (key, rest) ← key? rest
    match rest with
    | ']' :: ']' :: rest =>
      let next ← endOfLine? rest
      let d ← d.header? true key
      return (d, next)
    | _ => none
  | s => do
    let (key, rest) ← key? s
    match rest with
    | ']' :: rest =>
      let next ← endOfLine? rest
      let d ← d.header? false key
      return (d, next)
    | _ => none

/-- A line with a key and its value. -/
def pairLine? (d : Draft) (s : List Char) : Option (Draft × List Char) := do
  let (key, v, rest) ← pair? (value? maxDepth) s
  let next ← endOfLine? rest
  let d ← d.add? key v
  return (d, next)

/-- The next line of a document: empty, a comment, a header, or a key with its value. -/
def line? (d : Draft) (s : List Char) : Option (Draft × List Char) :=
  match skipSpaces s with
  | '[' :: rest => headerLine? d rest
  | start =>
    match endOfLine? start with
    | some next => some (d, next)
    | none => pairLine? d start

/-- The entries of the document that the draft and the remaining lines make. -/
def lines? (d : Draft) (s : List Char) : Option Entries :=
  if s.isEmpty then some d.entries
  else
    match line? d s with
    | none => none
    | some (d, next) => if next.length < s.length then lines? d next else none
termination_by s.length

/-- The entries of a document, `none` if it is none. A byte order mark at its start is no part of
it. -/
def document? : List Char → Option Entries
  | '\ufeff' :: rest => lines? .empty rest
  | s => lines? .empty s

end PixelPool.Toml
