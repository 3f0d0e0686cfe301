import PixelPool.Store.Basic

/-!
The life of a cache: it is made with one owner, may get more, and is torn down when the last one
leaves. Tearing down ends the buffers of its reserve; its published buffers go on unpublished, for
as long as there are handles on them.
-/

namespace PixelPool.Store

/-- A new cache with one owner. -/
def createCache (w : Store) (thread : ThreadId) (config : Config) (a : AllocatorId) :
    CacheId × Store :=
  let c := w.caches.next
  let reserve : Reserve := { cap := config.reserveCap }
  let made : Cache := { thread, allocator := a, owners := 1, reserve }
  (c, { w with caches := w.caches.add made }.emit (.cacheCreated c config.reserveCap))

/-- Marks buffers as no longer published. -/
def detachAll (w : Store) : List RecordId → Except Fault Store
  | [] => .ok w
  | r :: rest => do
    let x ← w.record r
    (w.setRecord r x.unmark).detachAll rest

/-- The bytes of storage of several buffers together. -/
def totalCapacity (w : Store) (rs : List RecordId) : Nat :=
  rs.foldr (fun r bytes => w.capacityOf r + bytes) 0

/-- Ends a cache. -/
def tearDown (w : Store) (c : CacheId) : Except Fault Store := do
  let cache ← w.cache c
  let w ← w.detachAll cache.lists.all
  let bytes := w.totalCapacity cache.reserve.slots
  let w ← w.destroyAll cache.reserve.slots
  return { w with caches := w.caches.erase c, ended := (c, cache) :: w.ended }.emit
    (.cacheTornDown c cache.lists.all.length bytes)

/-- One more owner for a cache. -/
def addOwner (w : Store) (c : CacheId) : Store :=
  { w with caches := w.caches.update c fun x => { x with owners := x.owners + 1 } }

/-- One owner of a cache leaves; with the last one the cache ends. -/
def dropOwner (w : Store) (c : CacheId) : Except Fault Store := do
  let cache ← w.cache c
  if cache.owners ≤ 1 then w.tearDown c
  else return w.setCache c { cache with owners := cache.owners - 1 }

/-- Empties the reserve of a cache, and answers how many bytes of storage that freed. -/
def emptyReserve (w : Store) (c : CacheId) : Except Fault (Nat × Store) := do
  let (bytes, w) ← w.within c .reserve fun w => do
    let cache ← w.cache c
    let bytes := w.totalCapacity cache.reserve.slots
    let w ← (w.setCache c { cache with reserve := cache.reserve.clear }).destroyAll
      cache.reserve.slots
    return (bytes, w)
  return (bytes, w.emit (.reserveShrunk c bytes))

end PixelPool.Store
