import PixelPool.Storage.Error
import PixelPool.Word

/-!
How many bytes the pixels of an area take. Every step of the computation is kept inside a machine
word, and a size that no block of memory can have is refused like one that overflows.
-/

namespace PixelPool

/-- The bytes that `area` takes at `bytesPerPixel` bytes for each pixel, `none` if an extent is
negative, if a product leaves the machine word, or if no block can be that large. -/
def byteSize? (area : Rect) (bytesPerPixel : Nat) : Option Nat :=
  if area.width.toInt < 0 ∨ area.height.toInt < 0 then none
  else do
    let pixels ← Word.mul? area.width.toInt.toNat area.height.toInt.toNat
    let bytes ← Word.mul? pixels bytesPerPixel
    if bytes ≤ Word.maxBlock then some bytes else none

/-- The bytes that `area` takes, or the error that names the area and the size of a pixel. -/
def storageSize (area : Rect) (bytesPerPixel : Nat) : Except StorageError Nat :=
  match byteSize? area bytesPerPixel with
  | some bytes => .ok bytes
  | none => .error (.invalidArea area bytesPerPixel)

end PixelPool
