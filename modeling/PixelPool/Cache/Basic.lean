import PixelPool.Cache.Lists
import PixelPool.Cache.Reserve
import PixelPool.Cache.Stats

/-!
A cache: the published buffers of every image, the reserve of idle ones, and its counts. It lives as
long as somebody owns it: a caller that holds it, or the thread it is bound to.
-/

namespace PixelPool

/-- The state of a cache. -/
structure Cache where
  /-- The thread that made the cache. -/
  thread : ThreadId
  /-- Where the storage of its buffers comes from. -/
  allocator : AllocatorId
  /-- How many owners keep it alive. -/
  owners : Nat
  lists : Lists := .empty
  reserve : Reserve
  stats : Stats := {}

end PixelPool
