import PixelPool.Store.Acquire
import PixelPool.Store.Publish

/-!
Swapping one buffer for another of the same image in a single step, which reuses as much as it can.
-/

namespace PixelPool.Store

/-- The outcome of an allocation as that of an operation that can be refused for other reasons
too. -/
def asRefusal {α : Type} : Except StorageError α → Except Refusal α
  | .ok a => .ok a
  | .error e => .error (.allocation e)

/-- A miss: acquires a buffer for the area. -/
def acquireMissed (w : Store) (c : CacheId) (image : Image) (area : Rect) :
    Except Fault (Except Refusal Handle × Store) := do
  let (outcome, w) ← (w.count c .addMiss).acquire c image area
  return (asRefusal outcome, w)

/-- Gives up `old`, if there is one, for a buffer whose area encloses the given one. In this order:
`old` itself if its area does; a published buffer; `old` moved to the area if nobody else refers to
it; a new buffer. Whatever is answered, `old` is either the answer or given up. -/
def exchange (w : Store) (c : CacheId) (old : Option Handle) (image : Image) (area : Rect) :
    Except Fault (Except Refusal Handle × Store) :=
  match old with
  | none => do
    let (found, w) ← w.lookup c image area
    match found with
    | some b => return (.ok b, w.count c .addHit)
    | none => w.acquireMissed c image area
  | some b => do
    if b.cache ≠ c then
      let w ← w.dropHandle b
      return (.error (.violation .foreignCache), w)
    if b.image ≠ image.key then
      let w ← w.dropHandle b
      return (.error (.violation .otherImage), w)
    if (w.areaOf b.record).encloses area then return (.ok b, w)
    let (found, w) ← w.lookup c image area
    match found with
    | some hit =>
      let w ← (w.count c .addHit).dropHandle b
      return (.ok hit, w)
    | none =>
      if w.referencesOf b.record = 1 then
        let (outcome, w) ← w.resize c b area false
        match outcome with
        | .ok () => return (.ok b, w.count c .addMoved)
        | .error e =>
          let w ← w.dropHandle b
          return (.error e, w)
      else
        let w ← w.dropHandle b
        w.acquireMissed c image area

end PixelPool.Store
