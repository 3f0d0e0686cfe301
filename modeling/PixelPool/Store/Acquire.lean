import PixelPool.Store.Release

/-!
Getting buffers: from the published ones of an image, from the reserve, or anew.
-/

namespace PixelPool.Store

/-- A handle on a buffer in use, for a reference that is already counted. -/
def handOut (w : Store) (c : CacheId) (r : RecordId) : Except Fault Handle := do
  let x ← w.record r
  match x.image with
  | some image => return ⟨r, c, image⟩
  | none => throw (.handedOutIdle r)

/-- A handle on the first published buffer of the image that encloses the area, in the order of the
image's list. -/
def lookup (w : Store) (c : CacheId) (image : Image) (area : Rect) :
    Except Fault (Option Handle × Store) := do
  let (found, w) ← w.within c .lists fun w => do
    let cache ← w.cache c
    match (cache.lists.members image.key).find? fun r => (w.areaOf r).encloses area with
    | none => return (none, w)
    | some r =>
      let x ← w.record r
      let x ← x.retain r
      return (some r, w.setRecord r x)
  match found with
  | none => return (none, w)
  | some r =>
    let b ← w.handOut c r
    return (some b, w)

/-- An idle buffer: the one put last into the reserve, or a new one. -/
def takeIdle (w : Store) (c : CacheId) : Except Fault (RecordId × Store) := do
  let (top, w) ← w.within c .reserve fun w => do
    let cache ← w.cache c
    return (cache.reserve.pop.1, w.setCache c { cache with reserve := cache.reserve.pop.2 })
  match top with
  | some r => return (r, w.count c .addReused)
  | none =>
    let cache ← w.cache c
    let w := w.count c .addMade
    return (w.records.next,
      { w with records := w.records.add { origin := c, allocator := cache.allocator } })

/-- Moves a buffer that was taken for an image to an area and hands it out. A buffer whose storage
cannot be had ends at once. -/
def fitTaken (w : Store) (c : CacheId) (image : Image) (area : Rect) (r : RecordId) :
    Except Fault (Except StorageError Handle × Store) := do
  let (outcome, w) ← w.fit r area
  match outcome with
  | .ok newBlock =>
    let w := (w.count c (·.addAllocation newBlock)).emit
      (.acquired c image.key area (w.capacityOf r))
    let b ← w.handOut c r
    return (.ok b, w)
  | .error e =>
    let w := (w.count c .addFailure).emit (.acquisitionFailed c image.key area e)
    let w ← w.destroy r
    return (.error e, w)

/-- A buffer of its own for an area of an image, never a published one: an idle one is taken for the
image and moved to the area. -/
def acquire (w : Store) (c : CacheId) (image : Image) (area : Rect) :
    Except Fault (Except StorageError Handle × Store) := do
  let (r, w) ← w.takeIdle c
  let x ← w.record r
  let x ← x.assign r image
  (w.setRecord r x).fitTaken c image area r

/-- The number of references to a buffer. -/
def referencesOf (w : Store) (r : RecordId) : Nat := ((w.records.get? r).map (·.references)).getD 0

/-- A buffer whose area encloses the given one: a published one if there is any, else a new one. -/
def request (w : Store) (c : CacheId) (image : Image) (area : Rect) :
    Except Fault (Except StorageError Handle × Store) := do
  let (found, w) ← w.lookup c image area
  match found with
  | some b =>
    return (.ok b, (w.count c .addHit).emit (.hit c image.key area (w.referencesOf b.record)))
  | none => (w.count c .addMiss).acquire c image area

end PixelPool.Store
