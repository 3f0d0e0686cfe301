/-!
Blocks of bytes, which hold the pixels of one buffer row by row.
-/

namespace PixelPool

/-- A block of memory with its content. -/
structure Block where
  bytes : Array UInt8
  deriving DecidableEq

namespace Block

/-- The number of bytes in the block. -/
def size (b : Block) : Nat := b.bytes.size

/-- A block of `n` bytes, all zero. -/
def zeroed (n : Nat) : Block := ⟨Array.replicate n 0⟩

/-- The block's first `n` bytes, or the whole block if it is shorter. -/
def truncate (b : Block) (n : Nat) : Block := ⟨b.bytes.extract 0 n⟩

/-- The block with its first `n` bytes written anew: byte `i` becomes `fill i`. -/
def overwrite (b : Block) (n : Nat) (fill : Nat → UInt8) : Block :=
  ⟨b.bytes.mapIdx fun i byte => if i < n then fill i else byte⟩

/-- The sum of all bytes. -/
def sum (b : Block) : Nat := b.bytes.foldl (fun total byte => total + byte.toNat) 0

/-- Whether every byte is zero. -/
def isZero (b : Block) : Bool := b.bytes.all (· == 0)

@[simp] theorem size_zeroed (n : Nat) : (zeroed n).size = n := by simp [size, zeroed]

@[simp] theorem size_truncate (b : Block) (n : Nat) : (b.truncate n).size = min n b.size := by
  simp [size, truncate]

@[simp] theorem size_overwrite (b : Block) (n : Nat) (fill : Nat → UInt8) :
    (b.overwrite n fill).size = b.size := by simp [size, overwrite]

/-- A block that was written anew, byte by byte. -/
theorem getElem?_overwrite {b : Block} {n : Nat} (fits : n ≤ b.size) (fill : Nat → UInt8)
    (i : Nat) :
    (b.overwrite n fill).bytes[i]? = if i < n then some (fill i) else b.bytes[i]? := by
  rw [size] at fits
  rw [overwrite, Array.getElem?_mapIdx]
  split
  · next below =>
    rw [Array.getElem?_eq_getElem (Nat.lt_of_lt_of_le below fits)]
    rfl
  · simp

@[simp] theorem isZero_zeroed (n : Nat) : (zeroed n).isZero = true := by
  unfold isZero zeroed
  rw [Array.all_eq_true]
  intro i h
  simp

end Block

end PixelPool
