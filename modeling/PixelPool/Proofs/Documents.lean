import PixelPool.Proofs.Environment

/-!
Documents of one line that give a bare key an integer in decimal digits.

What a line is read as is settled by its first characters: a bare key starts with a character that
starts nothing else, no comment, header, quote or line end (`ne_cons_of_bare`), and the text of an
integer holds no character that a date, a float or a marked integer needs (`moment?_eq_none`,
`float?_written`, `integer?_written`). So such a line has one reading, and it is the integer if that
has 64 bits (`value?_written`); otherwise the text is no document at all. Main statement:
`document?_assignment_written`.
-/

namespace PixelPool

namespace Numeral

/-- The digits of a number other than zero do not start with a zero. -/
theorem head?_toDigits_ne {n : Nat} (pos : 0 < n) : (Nat.toDigits 10 n).head? ≠ some '0' := by
  induction n using Nat.strong_induction_on with
  | _ n ih =>
    rw [Nat.toDigits_eq_if (by decide)]
    split
    · rw [List.head?_cons, ne_eq, Option.some.injEq, Nat.digitChar_eq_zero]
      omega
    · rw [List.head?_append_of_ne_nil _ Nat.toDigits_ne_nil]
      exact ih (n / 10) (by omega) (by omega)

end Numeral

namespace Toml

variable {s text : List Char} {c d : Char} {k : Key}

/-! ## 1. Digits -/

/-- Digits do not start with a character that is none. -/
theorem ne_cons_of_digits (digits : ∀ c ∈ s, c.isDigit = true) (other : d.isDigit = false)
    (rest : List Char) : s ≠ d :: rest := by
  rintro rfl
  have digit := digits d (List.mem_cons_self ..)
  rw [other] at digit
  cases digit

theorem moreDigits_of_digits (digits : ∀ c ∈ s, c.isDigit = true) :
    moreDigits 10 s = (s, []) := by
  fun_induction moreDigits 10 s with
  | case1 c rest digit more ih => exact absurd rfl (ne_cons_of_digits digits (by decide) _)
  | case2 c rest noDigit => exact absurd rfl (ne_cons_of_digits digits (by decide) _)
  | case3 c rest noMark digit more ih =>
    have rest := ih fun d h => digits d (List.mem_cons_of_mem _ h)
    simp only [more, rest]
  | case4 c rest noMark noDigit =>
    rw [Numeral.isDigit_ten] at noDigit
    exact absurd (digits c (List.mem_cons_self ..)) noDigit
  | case5 => rfl

theorem digits?_of_digits (nonempty : s ≠ []) (digits : ∀ c ∈ s, c.isDigit = true) :
    digits? 10 s = some (s, []) := by
  cases s with
  | nil => exact absurd rfl nonempty
  | cons c rest =>
    have more := moreDigits_of_digits fun d h => digits d (List.mem_cons_of_mem _ h)
    rw [digits?, Numeral.isDigit_ten, if_pos (digits c (List.mem_cons_self ..)), more]

/-- The digits of a number have no leading zero to stop at, but for the zero that stands alone. -/
theorem wholeDigits?_toDigits (n : Nat) :
    wholeDigits? (Nat.toDigits 10 n) = some (Nat.toDigits 10 n, []) := by
  have decimal := Numeral.decimal_toDigits n
  rcases Nat.eq_zero_or_pos n with rfl | pos
  · rfl
  · unfold wholeDigits?
    split
    · next zero => exact absurd (by rw [zero]; rfl) (Numeral.head?_toDigits_ne pos)
    · exact digits?_of_digits decimal.nonempty decimal.digits

/-! ## 2. Integers -/

/-- The digits of an integer, after a minus sign if it is negative. -/
def written (n : Int) : List Char :=
  if n < 0 then '-' :: Nat.toDigits 10 n.natAbs else Nat.toDigits 10 n.natAbs

theorem written_natCast (n : Nat) : written n = Nat.toDigits 10 n := by
  rw [written, if_neg (by omega), Int.natAbs_natCast]

theorem written_neg {n : Nat} (pos : 1 ≤ n) : written (-n) = '-' :: Nat.toDigits 10 n := by
  rw [written, if_pos (by omega), Int.natAbs_neg, Int.natAbs_natCast]

/-- Behind its first character, the text of an integer holds digits only. -/
theorem written_cases (n : Int) : ∃ c rest, written n = c :: rest ∧
    (c.isDigit = true ∨ c = '-') ∧ ∀ d ∈ rest, d.isDigit = true := by
  have decimal := Numeral.decimal_toDigits n.natAbs
  unfold written
  split
  · exact ⟨_, _, rfl, .inr rfl, decimal.digits⟩
  · cases digits : Nat.toDigits 10 n.natAbs with
    | nil => exact absurd digits decimal.nonempty
    | cons c rest =>
      rw [digits] at decimal
      exact ⟨c, rest, rfl, .inl (decimal.digits c (List.mem_cons_self ..)),
        fun d h => decimal.digits d (List.mem_cons_of_mem _ h)⟩

theorem written_ne_cons (n : Int) (other : d.isDigit = false) (noSign : d ≠ '-')
    (rest : List Char) : written n ≠ d :: rest := by
  obtain ⟨c, tail, shape, first, -⟩ := written_cases n
  rw [shape]
  rintro ⟨⟩
  rcases first with digit | minus
  · rw [other] at digit
    cases digit
  · exact noSign minus

theorem not_mem_tail_written (n : Int) (other : d.isDigit = false) : d ∉ (written n).tail := by
  obtain ⟨c, rest, shape, -, digits⟩ := written_cases n
  rw [shape, List.tail_cons]
  intro h
  have digit := digits d h
  rw [other] at digit
  cases digit

theorem sign_written (n : Int) :
    sign (written n) = (decide (n < 0), Nat.toDigits 10 n.natAbs) := by
  have decimal := Numeral.decimal_toDigits n.natAbs
  unfold written
  split
  · next negative => rw [sign, decide_eq_true negative]
  · next natural =>
    unfold sign
    split
    · next minus => exact absurd minus (ne_cons_of_digits decimal.digits (by decide) _)
    · next plus => exact absurd plus (ne_cons_of_digits decimal.digits (by decide) _)
    · rw [decide_eq_false natural]

theorem integer?_written (n : Int) :
    integer? (written n) = (inRange? n).map fun m => (m, []) := by
  have value : Numeral.read? 10 (Nat.toDigits 10 n.natAbs) = some n.natAbs :=
    Numeral.read?_ten_eq_some_iff.2 (Numeral.decimal_toDigits _)
  have signed : (if decide (n < 0) = true then -(n.natAbs : Int) else n.natAbs) = n := by
    simp only [decide_eq_true_eq]
    split <;> omega
  -- a base is marked by a letter behind the first digit
  have unmarked (mark : Char) (letter : mark.isDigit = false) (rest : List Char) :
      written n ≠ '0' :: mark :: rest := by
    intro marked
    apply not_mem_tail_written n letter
    rw [marked]
    exact List.mem_cons_self ..
  unfold integer?
  split
  · next marked => exact absurd marked (unmarked _ (by decide) _)
  · next marked => exact absurd marked (unmarked _ (by decide) _)
  · next marked => exact absurd marked (unmarked _ (by decide) _)
  · simp only [sign_written, wholeDigits?_toDigits, value, Option.bind_eq_bind, Option.bind_some,
      signed]
    cases inRange? n <;> rfl

theorem float?_written (n : Int) : float? (written n) = none := by
  have digits := (Numeral.decimal_toDigits n.natAbs).digits
  have noFraction : decimalFloat? (written n) = none := by
    simp [decimalFloat?, sign_written, wholeDigits?_toDigits, floatTail?]
  rw [float?, noFraction]
  simp only [sign_written]
  unfold specialFloat?
  split
  · next infinite => exact absurd infinite (ne_cons_of_digits digits (by decide) _)
  · next noNumber => exact absurd noNumber (ne_cons_of_digits digits (by decide) _)
  · rfl

theorem expect?_of_not_mem (h : c ∉ s) : expect? c s = none := by
  cases s with
  | nil => rfl
  | cons d rest =>
    rw [expect?, if_neg]
    rintro rfl
    exact h (List.mem_cons_self ..)

/-- Behind a fixed number of digits there is nothing that is not already in the text. -/
theorem expect?_of_fixedDigits? {count m : Nat} {rest : List Char}
    (read : fixedDigits? (count + 1) s = some (m, rest)) (h : c ∉ s.tail) :
    expect? c rest = none := by
  have drop : rest = s.tail.drop count := by
    unfold fixedDigits? at read
    split at read
    · obtain ⟨m, -, same⟩ := Option.map_eq_some_iff.1 read
      cases same
      rw [List.drop_tail]
    · cases read
  apply expect?_of_not_mem
  rw [drop]
  intro later
  exact h (List.mem_of_mem_drop later)

/-- A date has a dash and a time has a colon behind its first digits. -/
theorem moment?_eq_none (noDash : '-' ∉ s.tail) (noColon : ':' ∉ s.tail) : moment? s = none := by
  have noDate : date? s = none := by
    unfold date?
    cases year : fixedDigits? 4 s with
    | none => rfl
    | some r => simp [expect?_of_fixedDigits? year noDash]
  have noTime : time? s = none := by
    unfold time? twoDigits?
    cases hour : fixedDigits? 2 s with
    | none => rfl
    | some r => simp [expect?_of_fixedDigits? hour noColon]
  rw [moment?, noDate, noTime]
  rfl

/-- As a value, the text of an integer is that integer, if it has 64 bits, and nothing else. -/
theorem value?_written (depth : Nat) (n : Int) :
    value? depth (written n) = (inRange? n).map fun m => (.integer m, []) := by
  have quantity : quantity? (written n) = (inRange? n).map fun m => (.integer m, []) := by
    have noMoment : moment? (written n) = none :=
      moment?_eq_none (not_mem_tail_written n (by decide)) (not_mem_tail_written n (by decide))
    rw [quantity?, noMoment, float?_written, integer?_written]
    cases inRange? n <;> rfl
  rw [← quantity]
  unfold value?
  split
  · next array => exact absurd array (written_ne_cons n (by decide) (by decide) _)
  · next table => exact absurd table (written_ne_cons n (by decide) (by decide) _)
  · next yes => exact absurd yes (written_ne_cons n (by decide) (by decide) _)
  · next no => exact absurd no (written_ne_cons n (by decide) (by decide) _)
  · next basic => exact absurd basic (written_ne_cons n (by decide) (by decide) _)
  · next literal => exact absurd literal (written_ne_cons n (by decide) (by decide) _)
  · rfl

/-! ## 3. Bare keys -/

/-- One or more ASCII letters, digits, dashes and underscores. -/
def IsBareKey (k : Key) : Prop :=
  k ≠ [] ∧ ∀ c ∈ k, c.isAlpha = true ∨ c.isDigit = true ∨ c = '-' ∨ c = '_'

theorem isBare_iff :
    isBare c = true ↔ c.isAlpha = true ∨ c.isDigit = true ∨ c = '-' ∨ c = '_' := by
  simp [isBare, Char.isAlphanum, or_assoc]

theorem IsBareKey.isBare (bare : IsBareKey k) : ∀ c ∈ k, isBare c = true := fun c h =>
  isBare_iff.2 (bare.2 c h)

theorem IsBareKey.exists_first (bare : IsBareKey k) :
    ∃ c rest, k = c :: rest ∧ Toml.isBare c = true := by
  cases k with
  | nil => exact absurd rfl bare.1
  | cons c rest => exact ⟨c, rest, rfl, bare.isBare c (List.mem_cons_self ..)⟩

/-- What starts with a bare key does not start with any other character. -/
theorem ne_cons_of_bare (bare : IsBareKey k) (other : isBare d = false) (s rest : List Char) :
    k ++ s ≠ d :: rest := by
  obtain ⟨c, tail, rfl, first⟩ := bare.exists_first
  rintro ⟨⟩
  rw [other] at first
  cases first

theorem simpleKey?_bare (bare : IsBareKey k) (rest : List Char) :
    simpleKey? (k ++ ' ' :: rest) = some (k, ' ' :: rest) := by
  have stop : isBare ' ' = false := by decide
  have taken : (k ++ ' ' :: rest).takeWhile isBare = k := by
    rw [List.takeWhile_append_of_pos bare.isBare]
    simp [stop]
  have left : (k ++ ' ' :: rest).dropWhile isBare = ' ' :: rest := by
    rw [List.dropWhile_append_of_pos bare.isBare]
    simp [stop]
  unfold simpleKey?
  split
  · next quoted => exact absurd quoted (ne_cons_of_bare bare (by decide) _ _)
  · next quoted => exact absurd quoted (ne_cons_of_bare bare (by decide) _ _)
  · simp [taken, left, bare.1]

theorem isSpace_eq_false (noBlank : c ≠ ' ') (noTab : c ≠ '\t') : isSpace c = false := by
  simp [isSpace, noBlank, noTab]

theorem skipSpaces_bare (bare : IsBareKey k) (s : List Char) : skipSpaces (k ++ s) = k ++ s := by
  obtain ⟨c, rest, rfl, first⟩ := bare.exists_first
  have noSpace : isSpace c = false := by
    apply isSpace_eq_false
    · rintro rfl
      exact absurd first (by decide)
    · rintro rfl
      exact absurd first (by decide)
  simp [skipSpaces, noSpace]

theorem key?_bare (bare : IsBareKey k) (rest : List Char) :
    key? (k ++ ' ' :: '=' :: rest) = some ([k], '=' :: rest) := by
  have parts : keyParts? (k ++ ' ' :: '=' :: rest) = some ([k], '=' :: rest) := by
    rw [keyParts?, skipSpaces_bare bare, simpleKey?_bare bare]
    simp [skipSpaces, isSpace]
  rw [key?, parts]
  rfl

/-! ## 4. Lines -/

/-- The line that gives the key the value that the text writes. -/
def assignment (k : Key) (text : List Char) : List Char := k ++ ' ' :: '=' :: ' ' :: text

/-- More than blanks and a comment is left of a line where a bare key starts. -/
theorem endOfLine?_bare (bare : IsBareKey k) (s : List Char) : endOfLine? (k ++ s) = none := by
  have noComment : skipComment (k ++ s) = k ++ s := by
    unfold skipComment
    split
    · next comment => exact absurd comment (ne_cons_of_bare bare (by decide) _ _)
    · rfl
  have noBreak : newline? (k ++ s) = none := by
    unfold newline?
    split
    · next lineFeed => exact absurd lineFeed (ne_cons_of_bare bare (by decide) _ _)
    · next carriageReturn => exact absurd carriageReturn (ne_cons_of_bare bare (by decide) _ _)
    · rfl
  rw [endOfLine?, skipSpaces_bare bare, noComment]
  split
  · next nothing => exact absurd (List.append_eq_nil_iff.1 nothing).1 bare.1
  · exact noBreak

theorem add?_empty (k : Key) (v : Value) : Draft.empty.add? [k] v = some ⟨[(k, v)], []⟩ := by
  simp [Draft.add?, Draft.empty, alongPath, addAt, addValue, Entries.find?]

/-- The reading of a line, for a value that starts with no blank and takes up all of its text. -/
theorem line?_assignment (bare : IsBareKey k) (solid : ∀ c ∈ text.head?, isSpace c = false)
    (whole : ∀ r, value? maxDepth text = some r → r.2 = []) :
    line? .empty (assignment k text)
      = (value? maxDepth text).map fun r => (⟨[(k, r.1)], []⟩, []) := by
  have start : skipSpaces (' ' :: text) = text := by
    cases text with
    | nil => rfl
    | cons c rest => simp [skipSpaces, solid c rfl, show isSpace ' ' = true by decide]
  have pair : pair? (value? maxDepth) (assignment k text)
      = (value? maxDepth text).map fun r => ([k], r.1, r.2) := by
    simp only [assignment, pair?, key?_bare bare, Option.bind_eq_bind, Option.bind_some, start]
    cases value? maxDepth text <;> rfl
  have noHeader (rest : List Char) : assignment k text ≠ '[' :: rest :=
    ne_cons_of_bare bare (by decide) _ _
  have noBlank : skipSpaces (assignment k text) = assignment k text := skipSpaces_bare bare _
  have more : endOfLine? (assignment k text) = none := endOfLine?_bare bare _
  rw [line?, noBlank]
  split
  · next header => exact absurd header (noHeader _)
  · simp only [more, pairLine?, pair]
    cases read : value? maxDepth text with
    | none => rfl
    | some r =>
      simp [whole r read, endOfLine?, skipSpaces, skipComment, add?_empty]

theorem document?_assignment (bare : IsBareKey k) (solid : ∀ c ∈ text.head?, isSpace c = false)
    (whole : ∀ r, value? maxDepth text = some r → r.2 = []) :
    document? (assignment k text) = (value? maxDepth text).map fun r => [(k, r.1)] := by
  have filled : (assignment k text).isEmpty = false := by simp [assignment]
  have lines : lines? .empty (assignment k text)
      = (value? maxDepth text).map fun r => [(k, r.1)] := by
    rw [lines?, line?_assignment bare solid whole, filled]
    cases value? maxDepth text with
    | none => rfl
    | some r =>
      -- nothing is left after the line
      have last : lines? ⟨[(k, r.1)], []⟩ [] = some [(k, r.1)] := by rw [lines?]; rfl
      simp [last, assignment]
  rw [← lines]
  unfold document?
  split
  · next marked => exact absurd marked (ne_cons_of_bare bare (by decide) _ _)
  · rfl

/-- A line that gives a bare key an integer is a document with that entry, if the integer has 64
bits, and otherwise none. -/
theorem document?_assignment_written (bare : IsBareKey k) (n : Int) :
    document? (assignment k (written n)) = (inRange? n).map fun m => [(k, .integer m)] := by
  have solid : ∀ c ∈ (written n).head?, isSpace c = false := by
    intro c first
    obtain ⟨rest, shape⟩ := List.head?_eq_some_iff.1 first
    apply isSpace_eq_false
    · rintro rfl
      exact written_ne_cons n (by decide) (by decide) _ shape
    · rintro rfl
      exact written_ne_cons n (by decide) (by decide) _ shape
  rw [document?_assignment bare solid, value?_written]
  · cases inRange? n <;> rfl
  · intro r read
    rw [value?_written] at read
    obtain ⟨m, -, rfl⟩ := Option.map_eq_some_iff.1 read
    rfl

end Toml

end PixelPool
