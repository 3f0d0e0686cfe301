import PixelPool.Store.Release

/-!
Operations on a buffer that its holder asks a cache for: publishing, withdrawing and resizing. Each
first checks that the buffer is the cache's own.
-/

namespace PixelPool.Store

/-- Publishes a buffer: it becomes the first in the list of its image. Nothing happens to a buffer
that is published already. -/
def publish (w : Store) (c : CacheId) (b : Handle) :
    Except Fault (Except Refusal Unit × Store) := do
  if b.cache ≠ c then return (.error (.violation .foreignCache), w)
  let x ← w.record b.record
  if x.published then return (.ok (), w)
  let (_, w) ← w.within c .lists fun w => do
    let cache ← w.cache c
    let lists ← cache.lists.add b.image b.record
    return ((), w.setCache c { cache with lists })
  let w := (w.setRecord b.record (x.markPublished c)).count c .addPublish
  return (.ok (), w.emit (.published c b.image x.area))

/-- Withdraws a buffer. -/
def unpublish (w : Store) (c : CacheId) (b : Handle) :
    Except Fault (Except Refusal Unit × Store) := do
  if b.cache ≠ c then return (.error (.violation .foreignCache), w)
  let w ← w.withdraw c b.record
  return (.ok (), w)

/-- Moves a buffer with a single reference to another area, withdrawing it if it was published. If
the caller holds a view of its pixels, nothing moves once the area is known to have a size. -/
def resize (w : Store) (c : CacheId) (b : Handle) (area : Rect) (viewHeld : Bool) :
    Except Fault (Except Refusal Unit × Store) := do
  if b.cache ≠ c then return (.error (.violation .foreignCache), w)
  let x ← w.record b.record
  if x.references ≠ 1 then return (.error (.violation .sharedResize), w)
  let viewed := viewHeld && x.pixels.isSome
  let w ← w.withdraw c b.record
  if viewed ∧ (byteSize? area x.bytesPerPixel).isSome then
    return (.error (.violation .viewHeld), w)
  let (outcome, w) ← w.fit b.record area
  match outcome with
  | .ok newBlock => return (.ok (), w.count c (·.addAllocation newBlock))
  | .error e => return (.error (.allocation e), w.emit (.resizeFailed c b.image area e))

/-- Gives up a handle through a cache, which must be the handle's own; the handle is given up either
way. -/
def release (w : Store) (c : CacheId) (b : Handle) :
    Except Fault (Except Refusal Unit × Store) := do
  let w ← w.dropHandle b
  return (if b.cache ≠ c then .error (.violation .foreignCache) else .ok (), w)

end PixelPool.Store
