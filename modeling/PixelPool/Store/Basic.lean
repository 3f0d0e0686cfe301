import PixelPool.Buffer.Handle
import PixelPool.Buffer.Record
import PixelPool.Cache.Basic
import PixelPool.Event
import PixelPool.Storage.Allocator
import PixelPool.Table

/-!
The store: everything that outlives a call. It holds the allocators, the caches and the records of
all buffers, the settings that are fixed once for all threads, and the events so far.

An operation on the store may fault; if it does not, it gives its answer and the store after it.
-/

namespace PixelPool

/-- The settings that all threads share. Each is fixed by whoever needs it first. -/
structure Settings where
  /-- The value of the environment variable, if it is set. -/
  environment : Option String := none
  config : Option Config := none
  allocator : Option AllocatorId := none

/-- What a store finds where it runs, and never changes. -/
structure Host where
  heap : Heap
  /-- The first number that is handed out as an image key. -/
  firstKey : Nat

/-- A host whose addresses have 47 bits, where image keys are handed out from a number that no
caller gives. -/
def Host.usual : Host := ⟨.below 0x800000000000, 0x10000000000000000⟩

/-- Everything that outlives a call. -/
structure Store where
  host : Host
  allocators : Table Allocator
  caches : Table Cache
  records : Table Record
  settings : Settings
  /-- How many image keys have been handed out. -/
  freshKeys : Nat
  /-- The caches that are gone, as they were at their end, the last one first. -/
  ended : List (CacheId × Cache)
  /-- What happened so far, latest first. -/
  log : List Event
  /-- The parts of caches that the running call is at work on; none between calls. -/
  inside : List (CacheId × Section)

namespace Store

/-- A store in which nothing has happened yet. Caches are numbered from one. -/
def fresh (environment : Option String) : Store where
  host := .usual
  allocators := .startingAt 0
  caches := .startingAt 1
  records := .startingAt 0
  settings := { environment }
  freshKeys := 0
  ended := []
  log := []
  inside := []

/-- The store on a host of its own. -/
def on (w : Store) (host : Host) : Store := { w with host }

/-! ### Looking up and replacing -/

/-- The record of a buffer. -/
def record (w : Store) (r : RecordId) : Except Fault Record :=
  match w.records.get? r with
  | some x => .ok x
  | none => .error (.missingRecord r)

/-- The state of a cache. -/
def cache (w : Store) (c : CacheId) : Except Fault Cache :=
  match w.caches.get? c with
  | some x => .ok x
  | none => .error (.missingCache c)

/-- The state of an allocator. -/
def allocator (w : Store) (a : AllocatorId) : Except Fault Allocator :=
  match w.allocators.get? a with
  | some x => .ok x
  | none => .error (.missingAllocator a)

/-- The store with the record of a buffer replaced. -/
def setRecord (w : Store) (r : RecordId) (x : Record) : Store :=
  { w with records := w.records.update r fun _ => x }

/-- The store with the state of a cache replaced. -/
def setCache (w : Store) (c : CacheId) (x : Cache) : Store :=
  { w with caches := w.caches.update c fun _ => x }

/-- The store with the state of an allocator replaced. -/
def setAllocator (w : Store) (a : AllocatorId) (x : Allocator) : Store :=
  { w with allocators := w.allocators.update a fun _ => x }

/-- The store with one more event. -/
def emit (w : Store) (e : Event) : Store := { w with log := e :: w.log }

/-- The store with the counts of a cache changed. -/
def count (w : Store) (c : CacheId) (f : Stats → Stats) : Store :=
  { w with caches := w.caches.update c fun x => { x with stats := f x.stats } }

/-- Whether a cache still exists. -/
def isAlive (w : Store) (c : CacheId) : Bool := (w.caches.get? c).isSome

/-- The area of a buffer, empty for one that does not exist. -/
def areaOf (w : Store) (r : RecordId) : Rect := ((w.records.get? r).map (·.area)).getD .zero

/-- The bytes of storage that a buffer has. -/
def capacityOf (w : Store) (r : RecordId) : Nat :=
  ((w.records.get? r).map (·.capacity)).getD 0

/-! ### Parts of a cache -/

/-- The state of a cache, to read a part that nothing is at work on. -/
def cacheAt (w : Store) (c : CacheId) (part : Section) : Except Fault Cache :=
  if (c, part) ∈ w.inside then .error (.reentered c part) else w.cache c

/-- Does some work on a part of a cache, which nothing else may enter meanwhile. -/
def within {α : Type} (w : Store) (c : CacheId) (part : Section)
    (body : Store → Except Fault (α × Store)) : Except Fault (α × Store) :=
  if (c, part) ∈ w.inside then .error (.reentered c part)
  else
    match body { w with inside := (c, part) :: w.inside } with
    | .ok (a, after) => .ok (a, { after with inside := w.inside })
    | .error f => .error f

/-! ### Storage -/

/-- Gives a block back to an allocator. -/
def giveBack (w : Store) (a : AllocatorId) (b : Block) : Except Fault Store := do
  let source ← w.allocator a
  return w.setAllocator a (source.free b)

/-- Ends a buffer: its storage returns to its allocator, and its record is gone. -/
def destroy (w : Store) (r : RecordId) : Except Fault Store := do
  let x ← w.record r
  let w ← match x.storage with
    | none => pure w
    | some b => w.giveBack x.allocator b
  return { w with records := w.records.erase r }

/-- Ends several buffers, one after another. -/
def destroyAll (w : Store) : List RecordId → Except Fault Store
  | [] => .ok w
  | r :: rest => do
    let w ← w.destroy r
    w.destroyAll rest

/-- Moves a buffer to an area and sees to it that its storage can hold the area's pixels. Storage
that is large enough is kept with its bytes; else it is given back first and then replaced by a new
block. The answer says whether there is a new block. If the area has no size in bytes nothing
changes; if no block can be had the buffer is left without storage and without area. -/
def fit (w : Store) (r : RecordId) (area : Rect) :
    Except Fault (Except StorageError Bool × Store) := do
  let x ← w.record r
  if x.published then throw (.fittedPublished r)
  else
    match storageSize area x.bytesPerPixel with
    | .error e => return (.error e, w)
    | .ok required =>
      if x.storage.isSome ∧ required ≤ x.capacity then
        return (.ok false, w.setRecord r { x with area })
      else
        let source ← w.allocator x.allocator
        let lowered := match x.storage with
          | none => source
          | some b => source.free b
        match lowered.allocate w.host.heap required with
        | (.ok b, after) =>
          return (.ok true,
            (w.setAllocator x.allocator after).setRecord r { x with area, storage := some b })
        | (.error e, after) =>
          let lost := { x with area := .zero, storage := none }
          return (.error e, (w.setAllocator x.allocator after).setRecord r lost)

end Store

end PixelPool
