/-!
Images as the pool sees them: a key that tells images apart and the number of bytes one pixel takes.
The pool never holds pixels of the image itself, so a descriptor is all it needs.
-/

namespace PixelPool

/-- The identity of an image: a number, which the caller already has for the image or which is
handed out on demand. The numbers from which keys are handed out are named by their distance from
the first of them (`ImageKey.ofNumber`), wherever that is; those before are named as they are. -/
inductive ImageKey where
  | explicit (raw : Nat)
  | fresh (index : Nat)
  deriving DecidableEq

namespace ImageKey

/-- The key with a number, where keys are handed out from `first` on. It makes no difference who
chose the number: a caller's number from there on is the key that is handed out with it. -/
def ofNumber (first raw : Nat) : ImageKey :=
  if raw < first then .explicit raw else .fresh (raw - first)

/-- A key as it is written in answers: explicit ones by their number, fresh ones as `f0`, `f1`,
... -/
def text : ImageKey → String
  | .explicit raw => s!"{raw}"
  | .fresh index => s!"f{index}"

/-- A key as it is written in diagnostics and events. -/
def describe (k : ImageKey) : String := s!"ImageKey({k.text})"

end ImageKey

/-- What the pool has to know of an image. -/
structure Image where
  key : ImageKey
  bytesPerPixel : Nat
  deriving DecidableEq

namespace Image

/-- The descriptor field by field, for diagnostics. -/
def describe (i : Image) : String :=
  s!"ImageDescriptor \x7b key: {i.key.describe}, bytes_per_pixel: {i.bytesPerPixel} \x7d"

end Image

end PixelPool
