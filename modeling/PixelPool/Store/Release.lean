import PixelPool.Store.Basic

/-!
Giving up references. When the last reference to a buffer goes, the buffer is withdrawn if it was
published, and put into the reserve of its cache; if the reserve is full, or the cache is gone, the
buffer ends.
-/

namespace PixelPool.Store

/-- Withdraws a published buffer: it leaves the list of its image and loses its area. Nothing
happens to a buffer that is not published. -/
def withdraw (w : Store) (c : CacheId) (r : RecordId) : Except Fault Store := do
  let x ← w.record r
  if !x.published then return w
  else if x.publisher ≠ some c then throw (.publishedElsewhere r)
  else
    match x.image with
    | none => throw (.publishedIdle r)
    | some image =>
      let (_, w) ← w.within c .lists fun w => do
        let cache ← w.cache c
        let lists ← cache.lists.remove image r
        return ((), w.setCache c { cache with lists })
      return (w.setRecord r x.unmark.withoutArea).emit (.unpublished c image)

/-- Puts an idle buffer into the reserve of a cache, or ends it if the reserve is full. -/
def keepOrFree (w : Store) (c : CacheId) (r : RecordId) : Except Fault Store := do
  let (kept, w) ← w.within c .reserve fun w => do
    let cache ← w.cache c
    match cache.reserve.push? r with
    | none => return (false, w)
    | some reserve =>
      let x ← w.record r
      if x.isIdle then return (true, w.setCache c { cache with reserve })
      else throw (.reservedInUse r)
  if kept then return w.count c .addKept
  else
    let w := (w.count c .addFreed).emit (.reserveFull c (w.capacityOf r))
    w.destroy r

/-- Drops one reference to a buffer of a cache that exists. -/
def releaseRecord (w : Store) (c : CacheId) (r : RecordId) : Except Fault Store := do
  let x ← w.record r
  let x ← x.letGo r
  let w := w.setRecord r x
  if 0 < x.references then return w
  else
    let w ← w.withdraw c r
    let x ← w.record r
    let x ← x.shelve r
    (w.setRecord r x).keepOrFree c r

/-- Drops one reference to a buffer whose cache is gone. -/
def releaseOrphan (w : Store) (b : Handle) : Except Fault Store := do
  let x ← w.record b.record
  let x ← x.letGo b.record
  let w := w.setRecord b.record x
  if 0 < x.references then return w
  else
    let x ← x.unmark.shelve b.record
    ((w.setRecord b.record x).emit (.outlivedCache b.image)).destroy b.record

/-- Gives up a handle. -/
def dropHandle (w : Store) (b : Handle) : Except Fault Store :=
  if w.isAlive b.cache then w.releaseRecord b.cache b.record else w.releaseOrphan b

/-- Gives up a handle, if there is one. -/
def dropHandle? (w : Store) : Option Handle → Except Fault Store
  | none => .ok w
  | some b => w.dropHandle b

/-- A second handle on the same buffer. -/
def copyHandle (w : Store) (b : Handle) : Except Fault (Handle × Store) := do
  let x ← w.record b.record
  let x ← x.retain b.record
  return (b, w.setRecord b.record x)

end PixelPool.Store
