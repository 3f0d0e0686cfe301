import PixelPool.Proofs.Readers

/-!
The two sources of the cap, a document and the environment variable, on the same numbers.

Documents are read by any reader that keeps to TOML and to what it says of words
(`Toml.Reader.FollowsToml`, `Toml.Reader.FillsWords`). Integers of TOML have 64 bits with the sign
among them, so documents stop at half the range of the variable (`ofToml_cap`, `ofToml_beyond`).
Beyond that range a text is no document; a negative cap or an unknown key is read, and is reported
as what it is. Main statement: `sources_agree`.
-/

namespace PixelPool

namespace Config

open Toml (assignment written IsBareKey Reader)

variable {R : Reader} {c : Config} {n : Nat} {k : Toml.Key}

/-! ## 1. Documents with one entry -/

theorem isBareKey_capKey : IsBareKey capKey := ⟨by decide, by simp [capKey]⟩

theorem ofToml_of_ok {text : List Char} (read : R.field capKey defaultCap text = .ok n) :
    ofToml R text = .ok ⟨n⟩ := by
  simp only [ofToml, default, read]

theorem ofToml_of_error {text : List Char} {e : R.Error}
    (read : R.field capKey defaultCap text = .error e) :
    ofToml R text = .error (.parse (R.message e)) := by
  simp only [ofToml, default, read]

theorem ofToml_cap (toml : R.FollowsToml) (fills : R.FillsWords) (fits : n ≤ 2 ^ 63 - 1) :
    ofToml R (assignment capKey (written n)) = .ok ⟨n⟩ := by
  have entry : R.entries (assignment capKey (written n)) = .ok [(capKey, R.integer n)] :=
    toml.entry isBareKey_capKey (by omega) (by omega)
  exact ofToml_of_ok (fills.filled entry (fills.integer fits))

/-- An integer out of range is no number of the document, and is not reported as a value. -/
theorem ofToml_beyond (toml : R.FollowsToml) (fills : R.FillsWords) {m : Int}
    (outside : m < -2 ^ 63 ∨ 2 ^ 63 - 1 < m) :
    ∃ message, ofToml R (assignment capKey (written m)) = .error (.parse message) ∧
      ∀ what, message ≠ some ("invalid value: " ++ what) := by
  obtain ⟨e, unread, worded⟩ := toml.beyond isBareKey_capKey outside
  obtain ⟨e', fails, same⟩ := fills.unread unread
  exact ⟨R.message e', ofToml_of_error fails, fun what => same ▸ worded what⟩

/-- A negative cap is a number of the document as long as it is in range, and misfits. -/
theorem ofToml_negative (toml : R.FollowsToml) (fills : R.FillsWords) {m : Int} (below : m < 0)
    (least : -2 ^ 63 ≤ m) : ofToml R (assignment capKey (written m)) = .error (.parse
      (some ("invalid value: integer \x60" ++ toString m ++ "\x60, expected usize"))) := by
  have entry := toml.entry isBareKey_capKey least (by omega)
  obtain ⟨e, misfits, words⟩ := fills.negative least below
  obtain ⟨e', fails, same⟩ := fills.misfit (m := defaultCap) entry misfits
  rw [ofToml_of_error fails, same, words]

theorem ofToml_unknown (toml : R.FollowsToml) (fills : R.FillsWords) (bare : IsBareKey k)
    (other : k ≠ capKey) (fits : n ≤ 2 ^ 63 - 1) :
    ofToml R (assignment k (written n)) = .error (.parse (some
      ("unknown field \x60" ++ String.ofList k ++ "\x60, expected \x60reserve_cap\x60"))) := by
  have entry : R.entries (assignment k (written n)) = .ok [(k, R.integer n)] :=
    toml.entry bare (by omega) (by omega)
  obtain ⟨e, fails, words⟩ := fills.unknown (m := defaultCap) entry other
  have closing : "\x60, expected \x60" ++ String.ofList capKey ++ "\x60"
      = "\x60, expected \x60reserve_cap\x60" := by decide
  rw [ofToml_of_error fails, words, ← closing]
  simp only [String.append_assoc]

/-! ## 2. Texts -/

theorem toList_line (key : String) (n : Nat) :
    (key ++ " = " ++ toString n).toList = assignment key.toList (written n) := by
  simp [assignment, Toml.written_natCast]

theorem toList_negativeLine (key : String) (pos : 1 ≤ n) :
    (key ++ " = -" ++ toString n).toList = assignment key.toList (written (-n)) := by
  simp [assignment, Toml.written_neg pos]

theorem toString_neg (pos : 1 ≤ n) : toString (-n : Int) = "-" ++ toString n := by
  obtain ⟨m, rfl⟩ := Nat.exists_eq_add_of_le' pos
  rfl

/-- The message on a negative cap has the number as the document writes it. -/
theorem message_negative (pos : 1 ≤ n) :
    "invalid value: integer \x60" ++ toString (-n : Int) ++ "\x60, expected usize"
      = "invalid value: integer \x60-" ++ toString n ++ "\x60, expected usize" := by
  have opening : "invalid value: integer \x60-" = "invalid value: integer \x60" ++ "-" := by decide
  rw [toString_neg pos, opening]
  simp only [String.append_assoc]

theorem message_opening (n : Nat) :
    "invalid value: integer \x60-" ++ toString n ++ "\x60, expected usize"
      = "invalid value: " ++ ("integer \x60-" ++ toString n ++ "\x60, expected usize") := by
  have opening : "invalid value: integer \x60-" = "invalid value: " ++ "integer \x60-" := by decide
  rw [opening]
  simp only [String.append_assoc]

/-! ## 3. The variable -/

theorem withEnvironment_toString (c : Config) (n : Nat) : c.withEnvironment (some (toString n))
    = if n ≤ 2 ^ 64 - 1 then .ok { c with reserveCap := n }
      else .error (.invalidEnvironment (toString n)) := by
  have holds {m : Nat} : Holds (toString n) m ↔ m = n ∧ n ≤ 2 ^ 64 - 1 := by
    have around : Holds ("" ++ toString n ++ "") m ↔ m = n ∧ n ≤ 2 ^ 64 - 1 :=
      holds_toString_iff (by simp) (by simp)
    rwa [String.empty_append, String.append_empty] at around
  split
  · next fits => exact withEnvironment_eq_ok_iff.2 (holds.2 ⟨rfl, fits⟩)
  · next large =>
    apply withEnvironment_eq_error
    intro m h
    exact large (holds.1 h).2

/-! ## 4. Both -/

theorem ite_eq_ok_iff {p : Prop} [Decidable p] {cap d : Config} {e : ConfigError} :
    (if p then Except.ok cap else .error e) = .ok d ↔ d = cap ∧ p := by
  split
  · next fits => simp [fits, eq_comm]
  · next large => simp [large]

/-- Of the digits of a number, a document makes the cap if the number has 63 bits and is refused
otherwise, and the variable makes it the cap if the number has 64 bits. So they agree on the range
of documents, and neither makes another number of it. Behind a minus sign, the number is never a cap
of a document; the message names it exactly as long as an integer can hold it. Any other bare key is
an unknown field, which the message names. -/
theorem sources_agree (R : Reader) (toml : R.FollowsToml) (fills : R.FillsWords) (c : Config)
    (n : Nat) :
    (∀ cap, ofToml R ("reserve_cap = " ++ toString n).toList = .ok cap ↔
        cap = ⟨n⟩ ∧ n ≤ 2 ^ 63 - 1) ∧
      (2 ^ 63 - 1 < n → ∃ message,
        ofToml R ("reserve_cap = " ++ toString n).toList = .error (.parse message)) ∧
      (∀ cap, c.withEnvironment (some (toString n)) = .ok cap ↔ cap = ⟨n⟩ ∧ n ≤ 2 ^ 64 - 1) ∧
      (n ≤ 2 ^ 63 - 1 → ofToml R ("reserve_cap = " ++ toString n).toList
        = c.withEnvironment (some (toString n))) ∧
      (1 ≤ n → ∃ message,
        ofToml R ("reserve_cap = -" ++ toString n).toList = .error (.parse message) ∧
        ((ConfigError.parse message).message?
          = some ("invalid value: integer \x60-" ++ toString n ++ "\x60, expected usize") ↔
            n ≤ 2 ^ 63)) ∧
      ∀ key : String, IsBareKey key.toList → key ≠ "reserve_cap" → n ≤ 2 ^ 63 - 1 →
        ∃ message, ofToml R (key ++ " = " ++ toString n).toList = .error (.parse message) ∧
          (ConfigError.parse message).message?
            = some ("unknown field \x60" ++ key ++ "\x60, expected \x60reserve_cap\x60") := by
  have line : ("reserve_cap = " ++ toString n).toList = assignment capKey (written n) :=
    toList_line "reserve_cap" n
  rw [line, withEnvironment_toString]
  refine ⟨?_, ?_, ?_, ?_, ?_, ?_⟩
  · intro cap
    by_cases fits : n ≤ 2 ^ 63 - 1
    · rw [ofToml_cap toml fills fits]
      exact ⟨fun read => ⟨(Except.ok.inj read).symm, fits⟩, fun same => same.1 ▸ rfl⟩
    · obtain ⟨message, refused, -⟩ := ofToml_beyond toml fills (m := n) (by omega)
      rw [refused]
      exact ⟨nofun, fun same => absurd same.2 fits⟩
  · intro large
    obtain ⟨message, refused, -⟩ := ofToml_beyond toml fills (m := n) (by omega)
    exact ⟨message, refused⟩
  · intro cap
    exact ite_eq_ok_iff
  · intro fits
    rw [ofToml_cap toml fills fits, if_pos (by omega)]
  · intro pos
    have negativeLine : ("reserve_cap = -" ++ toString n).toList
        = assignment capKey (written (-n)) := toList_negativeLine "reserve_cap" pos
    rw [negativeLine]
    by_cases fits : n ≤ 2 ^ 63
    · refine ⟨_, ofToml_negative toml fills (by omega) (by omega), ?_⟩
      exact iff_of_true (congrArg some (message_negative pos)) fits
    · obtain ⟨message, refused, worded⟩ := ofToml_beyond toml fills (m := -n) (by omega)
      refine ⟨message, refused, iff_of_false (fun named => ?_) fits⟩
      rw [message_opening] at named
      exact worded _ named
  · intro key bare other fits
    have otherKey : key.toList ≠ capKey := by
      intro same
      exact other (String.toList_inj.1 same)
    have refused := ofToml_unknown toml fills bare otherKey fits
    rw [String.ofList_toList] at refused
    rw [toList_line]
    exact ⟨_, refused, rfl⟩

/-- The largest integer of a document is read from both sources, and the next number only from the
variable. With a minus sign that one is still an integer. -/
theorem sources_agree_at_largest_integer :
    ofDocument ("reserve_cap = " ++ toString 9223372036854775807).toList
        = default.withEnvironment (some (toString 9223372036854775807)) ∧
      (∃ message, ofDocument ("reserve_cap = " ++ toString 9223372036854775808).toList
        = .error (.parse message)) ∧
      default.withEnvironment (some (toString 9223372036854775808))
        = .ok ⟨9223372036854775808⟩ ∧
      (∃ message, ofDocument ("reserve_cap = -" ++ toString 9223372036854775808).toList
          = .error (.parse message) ∧
        (ConfigError.parse message).message? = some ("invalid value: integer \x60-" ++
          toString 9223372036854775808 ++ "\x60, expected usize")) ∧
      ∃ message, ofDocument ("reserve-cap" ++ " = " ++ toString 9223372036854775807).toList
          = .error (.parse message) ∧
        (ConfigError.parse message).message? = some
          ("unknown field \x60" ++ "reserve-cap" ++ "\x60, expected \x60reserve_cap\x60") := by
  obtain ⟨-, -, -, agree, -, unknown⟩ := sources_agree Toml.reader Toml.reader_followsToml
    Toml.reader_fillsWords default 9223372036854775807
  obtain ⟨-, tooLarge, read, -, negative, -⟩ := sources_agree Toml.reader Toml.reader_followsToml
    Toml.reader_fillsWords default 9223372036854775808
  obtain ⟨message, refused, named⟩ := negative (by decide)
  exact ⟨agree (by decide), tooLarge (by decide), (read _).2 ⟨rfl, by decide⟩,
    ⟨message, refused, named.2 (by decide)⟩,
    unknown "reserve-cap" ⟨by decide, by simp⟩ (by decide) (by decide)⟩

end Config

end PixelPool
