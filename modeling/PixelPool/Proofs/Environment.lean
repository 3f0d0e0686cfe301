import Mathlib.Algebra.Group.Nat.Defs
import Mathlib.Data.List.DropRight
import PixelPool.Config

/-!
The environment variable: which texts it may hold, and what they say.

A text is read if, without the white space at its two ends, it is an optional plus sign and one or
more ASCII digits that write a number of at most 64 bits. The three parts of this are facts of their
own: trimming takes away all white space at the ends and nothing else (`Text.trim_eq_iff`), digits
are read as the number they write (`Numeral.read?_ten_eq_some_iff`), and a word is a number with an
optional sign that fits (`Config.wordOf?_eq_some_iff`). Put together they say which texts are read,
and as what; all others are refused as they are (`Config.withEnvironment_laws`).
-/

namespace PixelPool

/-! ## 1. Decimal digits -/

namespace Numeral

variable {s : List Char} {c : Char} {n : Nat}

/-- One or more ASCII digits that write `n`, leading zeros allowed. -/
structure Decimal (s : List Char) (n : Nat) : Prop where
  nonempty : s ≠ []
  digits : ∀ c ∈ s, c.isDigit = true
  value : Nat.ofDigitChars 10 s 0 = n

theorem isDigit_iff_le : c.isDigit = true ↔ '0' ≤ c ∧ c ≤ '9' := by
  simp [Char.isDigit, Char.le_def]

theorem digit?_ten (c : Char) :
    digit? 10 c = if c.isDigit then some (c.toNat - '0'.toNat) else none := by
  unfold digit? digitValue?
  by_cases h : c.isDigit = true
  · have range := isDigit_iff_le.1 h
    have last : c.toNat ≤ 57 := Char.le_def.1 range.2
    have small : c.toNat - '0'.toNat < 10 := by
      show c.toNat - 48 < 10
      omega
    rw [if_pos range, if_pos h, Option.bind_some, if_pos small]
  · -- a letter is a digit of a larger base
    have range := mt isDigit_iff_le.2 h
    rw [if_neg range, if_neg h]
    split
    · simp
    · split
      · simp
      · rfl

theorem isDigit_ten (c : Char) : isDigit 10 c = c.isDigit := by
  rw [isDigit, digit?_ten]
  cases c.isDigit <;> rfl

theorem continue?_ten (acc : Nat) (s : List Char) :
    continue? 10 acc s = if s.all Char.isDigit then some (Nat.ofDigitChars 10 s acc) else none := by
  induction s generalizing acc with
  | nil => rfl
  | cons c rest ih =>
    rw [continue?, digit?_ten, List.all_cons, Nat.ofDigitChars_cons]
    cases c.isDigit with
    | false => simp
    | true => rw [if_pos rfl, Option.bind_some, ih, Bool.true_and, Nat.mul_comm acc 10]

theorem read?_ten_eq_some_iff : read? 10 s = some n ↔ Decimal s n := by
  cases s with
  | nil =>
    refine iff_of_false (by simp [read?]) ?_
    intro h
    exact h.nonempty rfl
  | cons c rest =>
    rw [read?, continue?_ten, Option.ite_none_right_eq_some, List.all_eq_true, Option.some.injEq]
    · constructor
      · rintro ⟨digits, value⟩
        exact ⟨List.cons_ne_nil _ _, digits, value⟩
      · rintro ⟨-, digits, value⟩
        exact ⟨digits, value⟩
    · simp

theorem decimal_toDigits (n : Nat) : Decimal (Nat.toDigits 10 n) n where
  nonempty := Nat.toDigits_ne_nil
  digits _ h := Nat.isDigit_of_mem_toDigits (by decide) (by decide) h
  value := Nat.ofDigitChars_ten_toDigits

end Numeral

/-! ## 2. White space -/

namespace Text

variable {s t : List Char} {c : Char}

/-- The characters with the property White_Space, one by one. -/
def whiteSpace : List Char :=
  ['\t', '\n', '\x0b', '\x0c', '\r', ' ', '\u0085', '\u00a0', '\u1680', '\u2000', '\u2001',
    '\u2002', '\u2003', '\u2004', '\u2005', '\u2006', '\u2007', '\u2008', '\u2009', '\u200a',
    '\u2028', '\u2029', '\u202f', '\u205f', '\u3000']

theorem isBlank_iff : isBlank c = true ↔ c ∈ whiteSpace := by
  rw [isBlank, inRanges_iff, whiteSpace]
  simp only [blankRanges, List.mem_cons, List.not_mem_nil, or_false, exists_eq_or_imp,
    exists_eq_left, ← Char.toNat_inj, Char.reduceToNat]
  omega

theorem isBlank_eq_false_iff : isBlank c = false ↔ c ∉ whiteSpace := by
  rw [← isBlank_iff, Bool.not_eq_true]

theorem not_mem_whiteSpace_of_isDigit (h : c.isDigit = true) : c ∉ whiteSpace := by
  have apart : whiteSpace.all (fun d => !d.isDigit) = true := by decide
  intro blank
  have noDigit := List.all_eq_true.1 apart c blank
  rw [h] at noDigit
  cases noDigit

/-- The text `t` is what is left of `s` without the white space at its two ends. -/
structure Trimmed (s t : List Char) : Prop where
  around : ∃ before after, s = before ++ t ++ after ∧
    (∀ c ∈ before, c ∈ whiteSpace) ∧ ∀ c ∈ after, c ∈ whiteSpace
  first : ∀ c ∈ t.head?, c ∉ whiteSpace
  last : ∀ c ∈ t.getLast?, c ∉ whiteSpace

theorem trim_eq (s : List Char) : trim s = (s.dropWhile isBlank).rdropWhile isBlank := rfl

theorem not_mem_of_head?_dropWhile (h : c ∈ (s.dropWhile isBlank).head?) : c ∉ whiteSpace := by
  have stops := List.head?_dropWhile_not isBlank s
  rw [h] at stops
  exact isBlank_eq_false_iff.1 stops

/-- Trimming takes away white space only, and all that stands at the ends. -/
theorem trimmed_trim (s : List Char) : Trimmed s (trim s) where
  around := by
    refine ⟨s.takeWhile isBlank, (s.dropWhile isBlank).rtakeWhile isBlank, ?_, ?_, ?_⟩
    · rw [trim_eq, List.append_assoc, List.rdropWhile_append_rtakeWhile,
        List.takeWhile_append_dropWhile]
    · intro c h
      exact isBlank_iff.1 (List.mem_takeWhile_imp h)
    · intro c h
      exact isBlank_iff.1 (List.mem_rtakeWhile_imp h)
  first := by
    intro c h
    obtain ⟨rest, whole⟩ := List.rdropWhile_prefix isBlank (l := s.dropWhile isBlank)
    apply not_mem_of_head?_dropWhile (s := s)
    rw [← whole, ← trim_eq, List.head?_append, h]
    rfl
  last := by
    intro c h
    rw [trim, List.getLast?_reverse] at h
    exact not_mem_of_head?_dropWhile h

theorem dropWhile_isBlank_append {before : List Char} (blank : ∀ c ∈ before, c ∈ whiteSpace)
    (first : ∀ c ∈ t.head?, c ∉ whiteSpace) (filled : t ≠ []) (after : List Char) :
    (before ++ t ++ after).dropWhile isBlank = t ++ after := by
  cases t with
  | nil => exact absurd rfl filled
  | cons c rest =>
    have visible : isBlank c = false := isBlank_eq_false_iff.2 (first c rfl)
    rw [List.append_assoc, List.dropWhile_append_of_pos fun d h => isBlank_iff.2 (blank d h)]
    simp [visible]

/-- There is only one way to trim a text. -/
theorem Trimmed.eq_trim (h : Trimmed s t) : trim s = t := by
  obtain ⟨⟨before, after, rfl, blankBefore, blankAfter⟩, first, last⟩ := h
  by_cases empty : t = []
  · subst empty
    have nothing : (before ++ [] ++ after).dropWhile isBlank = [] := by
      rw [List.append_nil, List.dropWhile_eq_nil_iff]
      intro c h
      rcases List.mem_append.1 h with h | h
      · exact isBlank_iff.2 (blankBefore c h)
      · exact isBlank_iff.2 (blankAfter c h)
    rw [trim_eq, nothing, List.rdropWhile_nil]
  · -- from behind, what follows the text stands before it
    have back : (after.reverse ++ t.reverse ++ []).dropWhile isBlank = t.reverse ++ [] :=
      dropWhile_isBlank_append (by simpa using blankAfter) (by simpa using last)
        (by simpa using empty) []
    rw [trim, dropWhile_isBlank_append blankBefore first empty, List.reverse_append]
    simpa using congrArg List.reverse back

theorem trim_eq_iff : trim s = t ↔ Trimmed s t := by
  constructor
  · rintro rfl
    exact trimmed_trim s
  · exact Trimmed.eq_trim

end Text

/-! ## 3. The variable -/

namespace Config

variable {c : Config} {s : String} {text : List Char} {n : Nat}

/-- The text is an optional plus sign and the digits of `n`. -/
def Writes (text : List Char) (n : Nat) : Prop :=
  ∃ digits, (text = digits ∨ text = '+' :: digits) ∧ Numeral.Decimal digits n

theorem writes_plus {rest : List Char} : Writes ('+' :: rest) n ↔ Numeral.Decimal rest n := by
  constructor
  · rintro ⟨digits, rfl | same, decimal⟩
    · have plus := decimal.digits '+' (List.mem_cons_self ..)
      exact absurd plus (by decide)
    · cases same
      exact decimal
  · intro decimal
    exact ⟨rest, .inr rfl, decimal⟩

theorem writes_unsigned (unsigned : ∀ rest, text ≠ '+' :: rest) :
    Writes text n ↔ Numeral.Decimal text n := by
  constructor
  · rintro ⟨digits, rfl | signed, decimal⟩
    · exact decimal
    · exact absurd signed (unsigned digits)
  · intro decimal
    exact ⟨text, .inl rfl, decimal⟩

theorem wordOf?_eq_some_iff : wordOf? text = some n ↔ Writes text n ∧ n ≤ 2 ^ 64 - 1 := by
  have word (digits : List Char) :
      (Numeral.read? 10 digits).bind (fun n => if n ≤ Word.max then some n else none) = some n ↔
        Numeral.Decimal digits n ∧ n ≤ 2 ^ 64 - 1 := by
    simp only [Option.bind_eq_some_iff, Numeral.read?_ten_eq_some_iff,
      Option.ite_none_right_eq_some, Option.some.injEq]
    constructor
    · rintro ⟨m, decimal, fits, rfl⟩
      exact ⟨decimal, fits⟩
    · rintro ⟨decimal, fits⟩
      exact ⟨n, decimal, fits, rfl⟩
  unfold wordOf?
  split
  · rw [word, writes_plus]
  · next unsigned => rw [word, writes_unsigned unsigned]

/-- The variable's text, without the white space around it, writes a number that fits a word. -/
def Holds (s : String) (n : Nat) : Prop :=
  ∃ text, Text.Trimmed s.toList text ∧ Writes text n ∧ n ≤ 2 ^ 64 - 1

theorem wordOf?_trim_eq_some_iff : wordOf? (Text.trim s.toList) = some n ↔ Holds s n := by
  rw [wordOf?_eq_some_iff, Holds]
  simp only [← Text.trim_eq_iff, exists_eq_left']

theorem wordOf?_trim_eq_none_iff : wordOf? (Text.trim s.toList) = none ↔ ∀ n, ¬ Holds s n := by
  rw [Option.eq_none_iff_forall_ne_some]
  exact forall_congr' fun n => not_congr wordOf?_trim_eq_some_iff

theorem withEnvironment_eq_ok_iff : c.withEnvironment (some s) = .ok { c with reserveCap := n } ↔
    Holds s n := by
  rw [← wordOf?_trim_eq_some_iff, withEnvironment]
  cases wordOf? (Text.trim s.toList) <;> simp

theorem withEnvironment_eq_error (refused : ∀ n, ¬ Holds s n) :
    c.withEnvironment (some s) = .error (.invalidEnvironment s) := by
  rw [← wordOf?_trim_eq_none_iff] at refused
  simp only [withEnvironment, refused]

/-- What stands around the digits of a number is trimmed, and no digit is. So the number is all that
such a text holds, if it fits. -/
theorem holds_toString_iff {before after : String}
    (blankBefore : ∀ ch ∈ before.toList, ch ∈ Text.whiteSpace)
    (blankAfter : ∀ ch ∈ after.toList, ch ∈ Text.whiteSpace) {m : Nat} :
    Holds (before ++ toString n ++ after) m ↔ m = n ∧ n ≤ 2 ^ 64 - 1 := by
  have decimal := Numeral.decimal_toDigits n
  have visible : ∀ ch ∈ Nat.toDigits 10 n, ch ∉ Text.whiteSpace := fun ch h =>
    Text.not_mem_whiteSpace_of_isDigit (decimal.digits ch h)
  have trimmed : Text.Trimmed (before ++ toString n ++ after).toList (Nat.toDigits 10 n) :=
    ⟨⟨before.toList, after.toList, by simp, blankBefore, blankAfter⟩,
      fun ch h => visible ch (List.mem_of_mem_head? h),
      fun ch h => visible ch (List.mem_of_mem_getLast? h)⟩
  have unsigned : ∀ rest, Nat.toDigits 10 n ≠ '+' :: rest := by
    intro rest signed
    have plus := decimal.digits '+' (by rw [signed]; exact List.mem_cons_self ..)
    exact absurd plus (by decide)
  rw [← wordOf?_trim_eq_some_iff, trimmed.eq_trim, wordOf?_eq_some_iff, writes_unsigned unsigned]
  constructor
  · rintro ⟨other, fits⟩
    have same : m = n := other.value.symm.trans decimal.value
    exact ⟨same, same ▸ fits⟩
  · rintro ⟨rfl, fits⟩
    exact ⟨decimal, fits⟩

/-- The variable is read exactly where its text, trimmed, is a number of at most 64 bits with an
optional plus sign, and then the cap is that number; every other text is refused and quoted as it
is. A variable that is not set changes nothing. In particular, the digits of every number that fits
are read back, whatever white space stands around them. -/
theorem withEnvironment_laws (c : Config) (s : String) :
    (∀ n, c.withEnvironment (some s) = .ok { c with reserveCap := n } ↔ Holds s n) ∧
      ((∀ n, ¬ Holds s n) →
        c.withEnvironment (some s) = .error (.invalidEnvironment s) ∧
        (ConfigError.invalidEnvironment s).message? = some
          ("environment variable PIXEL_BUFFER_RESERVE_CAP has invalid value \x60" ++ s ++ "\x60")) ∧
      c.withEnvironment none = .ok c ∧
      ∀ n ≤ 2 ^ 64 - 1, ∀ before after : String,
        (∀ ch ∈ before.toList, ch ∈ Text.whiteSpace) →
        (∀ ch ∈ after.toList, ch ∈ Text.whiteSpace) →
          c.withEnvironment (some (before ++ toString n ++ after))
            = .ok { c with reserveCap := n } := by
  refine ⟨fun n => withEnvironment_eq_ok_iff, ?_, rfl, ?_⟩
  · intro refused
    exact ⟨withEnvironment_eq_error refused, rfl⟩
  · intro n fits before after blankBefore blankAfter
    exact withEnvironment_eq_ok_iff.2
      ((holds_toString_iff blankBefore blankAfter).2 ⟨rfl, fits⟩)

/-- A sign and leading zeros between wide spaces are read, a space inside is refused, and so is the
first number beyond a word; the last one is read back. -/
theorem withEnvironment_laws_around_a_word :
    default.withEnvironment (some "\u3000+0040\n") = .ok ⟨40⟩ ∧
      default.withEnvironment (some " 4 0") = .error (.invalidEnvironment " 4 0") ∧
      default.withEnvironment (some "18446744073709551616")
        = .error (.invalidEnvironment "18446744073709551616") ∧
      default.withEnvironment (some ("\u205f" ++ toString 18446744073709551615 ++ "\t"))
        = .ok ⟨18446744073709551615⟩ := by
  obtain ⟨reads, -, -, readsBack⟩ := withEnvironment_laws default "\u3000+0040\n"
  refine ⟨(reads 40).2 (wordOf?_trim_eq_some_iff.1 (by decide)), ?_, ?_, ?_⟩
  · exact ((withEnvironment_laws default _).2.1 (wordOf?_trim_eq_none_iff.1 (by decide))).1
  · exact ((withEnvironment_laws default _).2.1 (wordOf?_trim_eq_none_iff.1 (by decide))).1
  · exact readsBack 18446744073709551615 (by decide) _ _ (by simp [Text.whiteSpace])
      (by simp [Text.whiteSpace])

end Config

end PixelPool
