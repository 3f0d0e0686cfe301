import PixelPool.Fault
import PixelPool.Image

/-!
Handles: what callers hold of a buffer. Each handle stands for one reference of its record and knows
the cache it came from, which it does not keep alive.
-/

namespace PixelPool

/-- One reference to a buffer. -/
structure Handle where
  record : RecordId
  cache : CacheId
  image : ImageKey
  deriving DecidableEq

end PixelPool
