import PixelPool.Numeral.Digits
import PixelPool.Text.Blank
import PixelPool.Toml.Fields
import PixelPool.Word

/-!
The pool's only setting, the cap of a cache's reserve, and the two places it can be read from: a
TOML document and an environment variable.

The document may hold the key `reserve_cap` and nothing else. It is read by a library, a
`Toml.Reader`, whose errors are passed on. The variable holds a number on its own, with white space
around it and a plus sign allowed.
-/

namespace PixelPool

/-- The settings of a cache. -/
structure Config where
  /-- How many idle buffers a cache keeps; with none, every released buffer is freed at once. -/
  reserveCap : Nat
  deriving DecidableEq

/-- Settings that can be installed only once. -/
inductive Installed where
  | configuration
  | allocator
  deriving DecidableEq

/-- Why a configuration could not be read or installed. -/
inductive ConfigError where
  | alreadyInstalled (what : Installed)
  /-- The document could not be read; the message is what the error of its reader says. -/
  | parse (message : Option String)
  /-- The variable does not hold a number; its text is kept as it was. -/
  | invalidEnvironment (value : String)
  deriving DecidableEq

namespace ConfigError

/-- The name of the environment variable. -/
def variableName : String := "PIXEL_BUFFER_RESERVE_CAP"

/-- The sentence that reports the error; for a document, what its reader says, if anything. -/
def message? : ConfigError → Option String
  | .alreadyInstalled .configuration =>
    some "process-wide buffer cache configuration is already installed"
  | .alreadyInstalled .allocator => some "process-wide allocator is already installed"
  | .parse message => message
  | .invalidEnvironment value =>
    some ("environment variable " ++ variableName ++ " has invalid value \x60" ++ value ++ "\x60")

end ConfigError

namespace Config

/-- The cap that is used where none is given. -/
def defaultCap : Nat := 40

/-- The configuration where none is given. -/
def default : Config := ⟨defaultCap⟩

/-- The configuration field by field, for diagnostics. -/
def describe (c : Config) : String :=
  s!"BufferCacheConfig \x7b reserve_cap: {c.reserveCap} \x7d"

/-! ### From a document -/

/-- The key of the cap. -/
def capKey : List Char := ['r', 'e', 's', 'e', 'r', 'v', 'e', '_', 'c', 'a', 'p']

/-- The configuration that a TOML document gives, as the reader reads it. An entry that it leaves
out keeps its default, and one that is not known is an error. -/
def ofToml (R : Toml.Reader) (text : List Char) : Except ConfigError Config :=
  match R.field capKey default.reserveCap text with
  | .ok cap => .ok ⟨cap⟩
  | .error e => .error (.parse (R.message e))

/-- The configuration of a document, read with the reader that is there. -/
def ofDocument (text : List Char) : Except ConfigError Config := ofToml Toml.reader text

/-! ### From the environment -/

/-- The number a word can hold that the text writes, with an optional plus sign. -/
def wordOf? (text : List Char) : Option Nat :=
  let digits := match text with
    | '+' :: rest => rest
    | s => s
  (Numeral.read? 10 digits).bind fun n => if n ≤ Word.max then some n else none

/-- The configuration with its cap replaced by the value of the environment variable, if it is set.
The value may have white space around it. -/
def withEnvironment (c : Config) : Option String → Except ConfigError Config
  | none => .ok c
  | some raw =>
    match wordOf? (Text.trim raw.toList) with
    | some cap => .ok { c with reserveCap := cap }
    | none => .error (.invalidEnvironment raw)

end Config

end PixelPool
