import PixelPool.Config
import PixelPool.Storage.Error

/-!
What can keep an operation from doing what it was asked.

A *refusal* is an answer: storage could not be had, a setting was already fixed, or the caller broke
a rule of the interface. A *fault* is an inner contradiction: a check on the pool's own bookkeeping
that failed. Refusals leave the pool in a known state; a fault ends the run.
-/

namespace PixelPool

/-- Caches are told apart by numbers. -/
abbrev CacheId := Nat

/-- Buffers are told apart by numbers. -/
abbrev RecordId := Nat

/-- Allocators are told apart by numbers. -/
abbrev AllocatorId := Nat

/-- Threads are told apart by numbers. -/
abbrev ThreadId := Nat

/-- The two parts of a cache that only one call may work on at a time. -/
inductive Section where
  | lists
  | reserve
  deriving DecidableEq

/-- A check on the pool's own bookkeeping that failed. -/
inductive Fault where
  /-- A buffer, cache or allocator that should exist does not. -/
  | missingRecord (r : RecordId)
  | missingCache (c : CacheId)
  | missingAllocator (a : AllocatorId)
  /-- A buffer was taken into use that is in use already. -/
  | assignedInUse (r : RecordId)
  /-- A buffer was put aside that has references, or that is published. -/
  | shelvedReferenced (r : RecordId)
  | shelvedPublished (r : RecordId)
  /-- A reference was added to a buffer that no image is bound to. -/
  | retainedIdle (r : RecordId)
  /-- A reference was dropped that did not exist. -/
  | letGoUnreferenced (r : RecordId)
  /-- A buffer was handed out that no image is bound to. -/
  | handedOutIdle (r : RecordId)
  /-- A published buffer was to change its area. -/
  | fittedPublished (r : RecordId)
  /-- A buffer was listed a second time. -/
  | listedTwice (r : RecordId)
  /-- A buffer to be withdrawn was published by another cache, has no image, or is in no list. -/
  | publishedElsewhere (r : RecordId)
  | publishedIdle (r : RecordId)
  | missingFromList (r : RecordId)
  /-- A buffer was put into the reserve that is in use. -/
  | reservedInUse (r : RecordId)
  /-- A part of a cache was entered while a call was at work on it. -/
  | reentered (c : CacheId) (part : Section)
  deriving DecidableEq

/-- A rule of the interface that the caller broke. -/
inductive Violation where
  /-- The buffer belongs to another cache than the one that was called. -/
  | foreignCache
  /-- A buffer with several references was to be resized. -/
  | sharedResize
  /-- A buffer was to be swapped for one of another image. -/
  | otherImage
  /-- A buffer was to be resized while its pixels are being read. -/
  | viewHeld
  /-- A cache was to be bound to a thread that is past that. -/
  | bindingDestroyed
  deriving DecidableEq

/-- The sentence that reports the violation, for those that have one. -/
def Violation.message? : Violation → Option String
  | .foreignCache => some "buffer belongs to a different buffer cache"
  | .sharedResize => some "cannot resize a shared buffer"
  | .otherImage => some "swap_ref must stay on the same image"
  | .viewHeld => none
  | .bindingDestroyed => none

/-- Why an operation was refused. -/
inductive Refusal where
  | allocation (e : StorageError)
  | violation (v : Violation)
  | config (e : ConfigError)
  deriving DecidableEq

end PixelPool
