import PixelPool.Text.Quoted
import PixelPool.Toml.Document
import PixelPool.Toml.Reader

/-!
A reader of documents to run with: the documents are those of TOML 1.0, and a document for one key
is gone through in its order, so that the first entry which does not fit is the one that is
reported.
-/

namespace PixelPool.Toml

/-- Why a document does not fit. -/
inductive Misfit where
  | unknownField (key expected : Key)
  /-- The value is of another kind, described by the text. -/
  | wrongType (found : List Char)
  | negative (n : Int)
  deriving DecidableEq

/-- The sentence that reports the misfit. -/
def Misfit.message : Misfit → String
  | .unknownField key expected =>
    "unknown field \x60" ++ String.ofList key ++ "\x60, expected \x60" ++ String.ofList expected
      ++ "\x60"
  | .wrongType found => "invalid type: " ++ String.ofList found ++ ", expected usize"
  | .negative n => "invalid value: integer \x60" ++ toString n ++ "\x60, expected usize"

/-- The word that a value gives, or how the value misfits. -/
def wordOf : Value → Except Misfit Nat
  | .integer n => if n < 0 then .error (.negative n) else .ok n.toNat
  | .string text => .error (.wrongType (['s', 't', 'r', 'i', 'n', 'g', ' '] ++ Text.quoted text))
  | .float x => .error (.wrongType ("floating point \x60".toList ++ x.text ++ ['\x60']))
  | .boolean true => .error (.wrongType "boolean \x60true\x60".toList)
  | .boolean false => .error (.wrongType "boolean \x60false\x60".toList)
  | .array _ | .tables _ => .error (.wrongType "sequence".toList)
  | .table _ _ | .moment _ => .error (.wrongType "map".toList)

/-- The word of the key after the entries of a document, each of which must be that key. -/
def fieldOf (key : Key) (n : Nat) : Entries → Except Misfit Nat
  | [] => .ok n
  | (k, value) :: rest =>
    if k = key then
      match wordOf value with
      | .ok m => fieldOf key m rest
      | .error misfit => .error misfit
    else .error (.unknownField k key)

/-- The reader; the errors of syntax are not told apart and have no words. -/
def reader : Reader where
  Error := Option Misfit
  Value := Value
  message e := e.map Misfit.message
  integer := .integer
  entries text :=
    match document? text with
    | none => .error none
    | some entries => .ok entries
  word value := (wordOf value).mapError some
  field key n text :=
    match document? text with
    | none => .error none
    | some entries => (fieldOf key n entries).mapError some

end PixelPool.Toml
