import Mathlib.Algebra.Group.Int.Defs
import PixelPool.Proofs.Documents

/-!
What the pool relies on of a reader of documents, and that the one it runs with keeps to it.

The reader belongs to a library, so its documented behaviour is stated as hypotheses on a
`Toml.Reader`: which lines with an integer are documents (`Reader.FollowsToml`), and what becomes of
a document with one entry when a word is asked for (`Reader.FillsWords`). Both hold of
`Toml.reader` (`reader_followsToml`, `reader_fillsWords`).
-/

namespace PixelPool.Toml

/-! ## 1. Hypotheses -/

namespace Reader

/-- Documents are those of TOML 1.0, with integers of 64 bits. -/
structure FollowsToml (R : Reader) : Prop where
  /-- A line that gives a bare key an integer in decimal digits is a document with that entry. -/
  entry {k : Key} {n : Int} (bare : IsBareKey k) (least : -2 ^ 63 ≤ n) (most : n ≤ 2 ^ 63 - 1) :
    R.entries (assignment k (written n)) = .ok [(k, R.integer n)]
  /-- If the integer is out of range the text is no document. That is an error of syntax, which is
  not worded like one about a value. -/
  beyond {k : Key} {n : Int} (bare : IsBareKey k) (outside : n < -2 ^ 63 ∨ 2 ^ 63 - 1 < n) :
    ∃ e, R.entries (assignment k (written n)) = .error e ∧
      ∀ what, R.message e ≠ some ("invalid value: " ++ what)

/-- A word is read from a document with one entry if that is for its key. -/
structure FillsWords (R : Reader) : Prop where
  /-- An integer that is not negative is a word. -/
  integer {n : Nat} (most : n ≤ 2 ^ 63 - 1) : R.word (R.integer n) = .ok n
  /-- A negative one is not, and is shown beside what was expected. -/
  negative {n : Int} (least : -2 ^ 63 ≤ n) (below : n < 0) :
    ∃ e, R.word (R.integer n) = .error e ∧ R.message e
      = some ("invalid value: integer \x60" ++ toString n ++ "\x60, expected usize")
  /-- The entry of the key gives what its value gives. -/
  filled {key : Key} {m n : Nat} {text : List Char} {v : R.Value}
    (read : R.entries text = .ok [(key, v)]) (gives : R.word v = .ok n) :
    R.field key m text = .ok n
  /-- If its value gives no word, the error keeps its message on the way out. -/
  misfit {key : Key} {m : Nat} {text : List Char} {v : R.Value} {e : R.Error}
    (read : R.entries text = .ok [(key, v)]) (fails : R.word v = .error e) :
    ∃ e', R.field key m text = .error e' ∧ R.message e' = R.message e
  /-- Any other key is an error that names it beside the one that was expected. -/
  unknown {key k : Key} {m : Nat} {text : List Char} {v : R.Value}
    (read : R.entries text = .ok [(k, v)]) (other : k ≠ key) :
    ∃ e, R.field key m text = .error e ∧ R.message e
      = some ("unknown field \x60" ++ String.ofList k ++ "\x60, expected \x60"
        ++ String.ofList key ++ "\x60")
  /-- A text that is no document gives nothing, for the same reason. -/
  unread {key : Key} {m : Nat} {text : List Char} {e : R.Error}
    (fails : R.entries text = .error e) :
    ∃ e', R.field key m text = .error e' ∧ R.message e' = R.message e

end Reader

/-! ## 2. The reader that runs -/

theorem inRange?_eq_some_of {n : Int} (least : -2 ^ 63 ≤ n) (most : n ≤ 2 ^ 63 - 1) :
    inRange? n = some n := by
  rw [inRange?, if_pos]
  unfold minInteger maxInteger
  omega

theorem inRange?_eq_none_of {n : Int} (outside : n < -2 ^ 63 ∨ 2 ^ 63 - 1 < n) :
    inRange? n = none := by
  rw [inRange?, if_neg]
  unfold minInteger maxInteger
  omega

theorem reader_followsToml : reader.FollowsToml where
  entry bare least most := by
    simp only [reader, document?_assignment_written bare, inRange?_eq_some_of least most,
      Option.map_some]
  beyond bare outside := by
    refine ⟨none, ?_, fun what => nofun⟩
    simp only [reader, document?_assignment_written bare, inRange?_eq_none_of outside,
      Option.map_none]

theorem wordOf_natCast (n : Nat) : wordOf (.integer n) = .ok n := by
  rw [wordOf, if_neg (by omega), Int.toNat_natCast]

theorem wordOf_neg {n : Int} (below : n < 0) : wordOf (.integer n) = .error (.negative n) := by
  rw [wordOf, if_pos below]

/-- A document with one entry gives what the value of the key gives, and misfits if the key is
another one. -/
theorem reader_field {key k : Key} {text : List Char} {v : Value}
    (read : reader.entries text = .ok [(k, v)]) (m : Nat) : reader.field key m text
      = if k = key then reader.word v else .error (some (.unknownField k key)) := by
  cases document : document? text with
  | none => simp [reader, document] at read
  | some entries =>
    obtain rfl : entries = [(k, v)] := by simpa [reader, document] using read
    simp only [reader, document, fieldOf]
    split
    · cases wordOf v <;> rfl
    · rfl

theorem reader_fillsWords : reader.FillsWords where
  integer _ := by simp only [reader, wordOf_natCast, Except.mapError]
  negative {n} _ below := by
    refine ⟨some (.negative n), ?_, rfl⟩
    simp only [reader, wordOf_neg below, Except.mapError]
  filled read gives := by rw [reader_field read, if_pos rfl, gives]
  misfit {_ _ _ _ e} read fails := ⟨e, by rw [reader_field read, if_pos rfl, fails], rfl⟩
  unknown {key k _ _ _} read other :=
    ⟨some (.unknownField k key), by rw [reader_field read, if_neg other], rfl⟩
  unread {_ _ text e} fails := by
    cases document : document? text with
    | none =>
      simp only [reader, document] at fails
      obtain rfl := Except.error.inj fails
      exact ⟨none, by simp only [reader, document], rfl⟩
    | some entries => simp [reader, document] at fails

end PixelPool.Toml
