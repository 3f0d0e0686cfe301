/-!
The library that reads settings out of TOML documents, as the pool uses it. The pool hands over a
text, the key of its setting and a default, and takes back a word or an error; how a document is
read is the library's own affair. So the library is a parameter of what reads a document, and a
theorem about documents names what it relies on.
-/

namespace PixelPool.Toml

/-- A library that reads documents. -/
structure Reader where
  Error : Type
  Value : Type
  /-- The words of an error, as far as they are settled: those of an error of syntax may be left
  open. -/
  message : Error → Option String
  /-- The value that an integer is. -/
  integer : Int → Value
  /-- The keys of a document and their values, in its order, or why the text is no document. -/
  entries : List Char → Except Error (List (List Char × Value))
  /-- The machine word that a value gives. -/
  word : Value → Except Error Nat
  /-- Reads a document for the word of one key. The document may hold no other key; if it does not
  hold this one either, the default stands for it. -/
  field : (key : List Char) → (default : Nat) → (text : List Char) → Except Error Nat

end PixelPool.Toml
