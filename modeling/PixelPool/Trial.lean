import PixelPool.Thread

/-!
A single acquisition from a new cache on a new allocator, which shows what an area of an image
costs.
-/

namespace PixelPool

/-- What an acquired buffer looks like. -/
structure Trial where
  capacity : Nat
  /-- How many bytes its pixels take; none if it has no storage. -/
  pixels : Option Nat
  area : Rect
  deriving DecidableEq

namespace Trial

/-- Acquires an area of an image with `bytesPerPixel` bytes for each pixel, on an allocator with or
without a limit. -/
def run (limit : Option Nat) (bytesPerPixel : Nat) (area : Rect) :
    Except Fault (Except StorageError Trial) := do
  let (a, w) := (Store.settled none).createAllocator limit
  let (c, w) := w.createCache 0 .default a
  let (outcome, w) ← w.request c ⟨.explicit 1, bytesPerPixel⟩ area
  match outcome with
  | .error e => return .error e
  | .ok b =>
    let x ← w.record b.record
    return .ok ⟨x.capacity, x.pixels.map Block.size, x.area⟩

end Trial

end PixelPool
