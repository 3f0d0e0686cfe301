import PixelPool.Rect

/-!
The three ways in which a request for pixel storage can fail, with the sentence each is reported by.
-/

namespace PixelPool

/-- Why pixel storage could not be had. -/
inductive StorageError where
  /-- The heap has no room for that many bytes. -/
  | outOfMemory (requested : Nat)
  /-- The allocator's own limit would be passed. -/
  | limitExceeded (requested live limit : Nat)
  /-- The area has no size in bytes. -/
  | invalidArea (area : Rect) (bytesPerPixel : Nat)
  deriving DecidableEq

namespace StorageError

/-- The sentence that reports the error. -/
def message : StorageError → String
  | .outOfMemory requested =>
    s!"out of memory while allocating {requested} bytes of pixel storage"
  | .limitExceeded requested live limit =>
    s!"tracked allocation of {requested} bytes exceeds limit ({live} of {limit} bytes live)"
  | .invalidArea area bytesPerPixel =>
    s!"pixel area {area.geometry} with {bytesPerPixel} bytes per pixel has no valid byte size"

/-- The error field by field, for diagnostics. -/
def describe : StorageError → String
  | .outOfMemory requested => s!"OutOfMemory \x7b requested: {requested} \x7d"
  | .limitExceeded requested live limit =>
    s!"LimitExceeded \x7b requested: {requested}, live: {live}, limit: {limit} \x7d"
  | .invalidArea area bytesPerPixel =>
    s!"InvalidArea \x7b area: {area.describe}, bytes_per_pixel: {bytesPerPixel} \x7d"

end StorageError

end PixelPool
