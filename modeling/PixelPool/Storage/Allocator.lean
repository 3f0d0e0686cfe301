import PixelPool.Storage.Error
import PixelPool.Storage.Block
import PixelPool.Word

/-!
An allocator that hands out zeroed blocks, counts what it does and can be held to a limit.

A request passes three checks in a fixed order: the size must be one that a block can have, the
total of live bytes must stay within the limit, and the heap must have room. Which sizes the heap
has room for is not the allocator's to say: a heap is any predicate on sizes. A refused request
counts as failed and changes nothing else. Returned blocks are trusted to be the allocator's own:
the total of live bytes never goes below zero, whatever comes back.
-/

namespace PixelPool

/-- The heap that allocators take their blocks from, by the sizes that it has room for. -/
abbrev Heap := Nat → Bool

/-- A heap that has room for any block of fewer than `ceiling` bytes. -/
def Heap.below (ceiling : Nat) : Heap := fun size => size < ceiling

/-- An allocator's limit, if it has one, and its running totals. -/
structure Allocator where
  limit : Option Nat
  allocations : Nat := 0
  frees : Nat := 0
  failed : Nat := 0
  live : Nat := 0
  peak : Nat := 0
  deriving DecidableEq

namespace Allocator

/-- A new allocator held to `limit` live bytes, or to none. -/
def withLimit (limit : Option Nat) : Allocator := { limit }

/-- The most live bytes the allocator can have: its limit, or all that a word can count. -/
def ceiling (a : Allocator) : Nat := a.limit.getD Word.max

/-- How a request is refused that would take the live bytes past the ceiling. -/
def quotaError (a : Allocator) (size : Nat) : StorageError :=
  match a.limit with
  | some limit => .limitExceeded size a.live limit
  | none => .outOfMemory size

/-- The allocator after a request it refused. -/
def refuse (a : Allocator) : Allocator := { a with failed := a.failed + 1 }

/-- The allocator after handing out `size` bytes. -/
def grant (a : Allocator) (size : Nat) : Allocator :=
  { a with
    allocations := a.allocations + 1
    live := a.live + size
    peak := Nat.max a.peak (a.live + size) }

/-- A request for `size` bytes, where `heapGrants` says whether the heap has room for them. -/
def allocateIf (heapGrants : Bool) (a : Allocator) (size : Nat) :
    Except StorageError Block × Allocator :=
  if size > Word.maxBlock then (.error (.outOfMemory size), a.refuse)
  else if a.live + size > a.ceiling then (.error (a.quotaError size), a.refuse)
  else if heapGrants then (.ok (.zeroed size), a.grant size)
  else (.error (.outOfMemory size), a.refuse)

/-- A request for `size` bytes, on a heap. -/
def allocate (a : Allocator) (heap : Heap) (size : Nat) : Except StorageError Block × Allocator :=
  a.allocateIf (heap size) size

/-- Takes a block back. -/
def free (a : Allocator) (b : Block) : Allocator :=
  { a with frees := a.frees + 1, live := a.live - b.size }

end Allocator

end PixelPool
