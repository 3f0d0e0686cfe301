import PixelPool.Toml.Value

/-!
Adding to the tables of a TOML document: under a header, or at a dotted key. Nothing is ever defined
twice, and what a dotted key or a header may extend follows from how each table on its way came
about.
-/

namespace PixelPool.Toml

namespace Entries

/-- The value at a key. -/
def find? (entries : Entries) (k : Key) : Option Value :=
  (List.find? (fun e => e.1 == k) entries).map (·.2)

/-- The entries with the value at an existing key replaced where it stands. -/
def replace (entries : Entries) (k : Key) (v : Value) : Entries :=
  entries.map fun e => if e.1 = k then (k, v) else e

/-- The entries without a key. -/
def erase (entries : Entries) (k : Key) : Entries := entries.filter fun e => !(e.1 == k)

end Entries

/-- Changes the table that a path leads to, starting from a table of the given form. Missing tables
on the way are made, dotted ones for a dotted key and implied ones for a header. The path passes
through the last element of an array of tables, never through a value, and a dotted key never
through a table that has its own header. -/
def alongPath (dotted : Bool) (change : Form → Entries → Option Entries) :
    List Key → Form → Entries → Option Entries
  | [], form, entries => change form entries
  | k :: path, _, entries =>
    match Entries.find? entries k with
    | none =>
      let form := if dotted then Form.dotted else Form.implied
      (alongPath dotted change path form []).map fun inner => entries ++ [(k, .table form inner)]
    | some (.table form inner) =>
      if form = .inline ∨ (dotted ∧ form = .header) then none
      else (alongPath dotted change path form inner).map fun changed =>
        Entries.replace entries k (.table form changed)
    | some (.tables elements) =>
      match elements.getLast? with
      | none => none
      | some last => (alongPath dotted change path .header last).map fun changed =>
        Entries.replace entries k (.tables (elements.dropLast ++ [changed]))
    | some _ => none

/-- Adds a value at a key that the table does not have yet. A dotted key ends only in a table made
by dotted keys, and a plain key never in such a table. -/
def addValue (plain : Bool) (k : Key) (v : Value) (form : Form) (entries : Entries) :
    Option Entries :=
  if plain = decide (form = .dotted) ∨ (Entries.find? entries k).isSome then none
  else some (entries ++ [(k, v)])

/-- Adds a value at a key, dotted or not, of a table. -/
def addAt (key : List Key) (v : Value) (form : Form) (entries : Entries) : Option Entries :=
  match key.getLast? with
  | none => none
  | some k =>
    alongPath true (addValue key.dropLast.isEmpty k v) key.dropLast form entries

/-- Gives a table its header. A table that longer headers implied keeps its entries and now takes
its place in the order of the document; any other existing value is an error. -/
def openTable (k : Key) (_ : Form) (entries : Entries) : Option Entries :=
  match Entries.find? entries k with
  | none => some (entries ++ [(k, .table .header [])])
  | some (.table .implied inner) => some (Entries.erase entries k ++ [(k, .table .header inner)])
  | some _ => none

/-- Adds an element to an array of tables, which is made by its first header. -/
def openElement (k : Key) (_ : Form) (entries : Entries) : Option Entries :=
  match Entries.find? entries k with
  | none => some (entries ++ [(k, .tables [[]])])
  | some (.tables elements) => some (Entries.replace entries k (.tables (elements ++ [[]])))
  | some _ => none

/-- A document being read: its entries so far, and the table that the last header opened. -/
structure Draft where
  entries : Entries
  here : List Key

namespace Draft

/-- A document without entries. -/
def empty : Draft := ⟨[], []⟩

/-- The document after a header: of a table, or of an element of an array of tables. -/
def header? (d : Draft) (element : Bool) (key : List Key) : Option Draft :=
  match key.getLast? with
  | none => none
  | some k =>
    (alongPath false (if element then openElement k else openTable k) key.dropLast .header
      d.entries).map fun entries => ⟨entries, key⟩

/-- The document after a key with its value. -/
def add? (d : Draft) (key : List Key) (v : Value) : Option Draft :=
  (alongPath false (addAt key v) d.here .header d.entries).map fun entries => ⟨entries, d.here⟩

end Draft

end PixelPool.Toml
