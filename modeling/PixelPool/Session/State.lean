import PixelPool.Session.Answer
import PixelPool.Session.Names
import PixelPool.Thread

/-!
The state of a session: the store, the names of allocators and images, the names of the running
thread, and the threads that wait for it to end.
-/

namespace PixelPool

/-- A block taken directly from an allocator. -/
structure Loan where
  source : AllocatorId
  block : Block
  deriving DecidableEq

/-- A thread with the names it has given. -/
structure Frame where
  thread : Thread
  handles : Names Handle
  caches : Names CacheId
  blocks : Names Loan

/-- The state of a session. -/
structure Session where
  store : Store
  allocators : Names AllocatorId
  images : Names Image
  /-- The number of the next thread. -/
  nextThread : ThreadId
  /-- The running thread. -/
  frame : Frame
  /-- The threads that wait, the one that started the running thread first. -/
  waiting : List Frame

namespace Frame

/-- A new thread, which has given no names. -/
def start (id : ThreadId) : Frame := ⟨⟨id, .unbound⟩, .empty, .empty, .empty⟩

end Frame

namespace Session

/-- A session on a store, before its first act. -/
def start (w : Store) : Session where
  store := w
  allocators := .empty
  images := .empty
  nextThread := 1
  frame := .start 0
  waiting := []

/-! ### Views -/

/-- What a handle tells about its buffer. -/
def handleView (w : Store) (b : Handle) : Except Fault HandleView := do
  let x ← w.record b.record
  return ⟨x.area, x.references, x.published, x.capacity, b.image⟩

/-- What a cache tells about itself. -/
def cacheView (w : Store) (c : CacheId) : Except Fault CacheView := do
  let x ← w.cacheAt c .reserve
  return ⟨c, x.reserve.slots.length, x.stats⟩

/-- The list of an image in a cache, if it has one. -/
def listing (w : Store) (c : CacheId) (k : ImageKey) : Except Fault (Option Listing) := do
  let x ← w.cacheAt c .lists
  return (x.lists.find? k).map fun members => ⟨k, c, members.map w.areaOf⟩

/-- A handle field by field. -/
def describeHandle (w : Store) (b : Handle) : Except Fault String := do
  let x ← w.record b.record
  return "BufferRef \x7b image: " ++ b.image.describe ++ ", slot: " ++ x.describe ++ " \x7d"

/-- A cache field by field. The buffers of its reserve stand in the order they were put in. -/
def describeCache (w : Store) (c : CacheId) : Except Fault String := do
  let images := (← w.cacheAt c .lists).lists.entries.length
  let x ← w.cacheAt c .reserve
  let slots ← x.reserve.slots.reverse.mapM fun r => (w.record r).map Record.describe
  return s!"BufferCache \x7b id: CacheId({c}), thread: ThreadId(_), " ++
    s!"images: {images}, reserve: Reserve \x7b slots: [" ++
    ", ".intercalate slots ++ s!"], cap: {x.reserve.cap} \x7d \x7d"

/-- The state that a session shows. -/
def snapshot (s : Session) : Except Fault Snapshot := do
  let handles ← s.frame.handles.entries.mapM fun e => do
    let view ← handleView s.store e.2
    let same := (s.frame.handles.entries.find? fun d => d.2.record == e.2.record).map (·.1)
    return (e.1, view, same.getD e.1)
  let caches ← s.frame.caches.entries.mapM fun e => do
    let view ← cacheView s.store e.2
    return (e.1, view)
  let allocators ← s.allocators.entries.mapM fun e => do
    let a ← s.store.allocator e.2
    return (e.1, a)
  return ⟨handles, caches, allocators⟩

/-! ### Names -/

/-- The session with another store. -/
def withStore (s : Session) (w : Store) : Session := { s with store := w }

/-- The session with other names of handles. -/
def withHandles (s : Session) (handles : Names Handle) : Session :=
  { s with frame := { s.frame with handles } }

/-- The session with other names of caches. -/
def withCaches (s : Session) (caches : Names CacheId) : Session :=
  { s with frame := { s.frame with caches } }

/-- The session with other names of blocks. -/
def withBlocks (s : Session) (blocks : Names Loan) : Session :=
  { s with frame := { s.frame with blocks } }

/-- The session with another running thread. -/
def withThread (s : Session) (thread : Thread) : Session :=
  { s with frame := { s.frame with thread } }

/-- Names a handle. What had the name before is given up after that. -/
def nameHandle (s : Session) (name : String) (b : Handle) : Except Fault Session := do
  let w ← s.store.dropHandle? (s.frame.handles.get? name)
  return (s.withHandles (s.frame.handles.put name b)).withStore w

/-- Names an owner's share in a cache. The share that had the name before is given up after that. -/
def nameCache (s : Session) (name : String) (c : CacheId) : Except Fault Session := do
  let named := s.withCaches (s.frame.caches.put name c)
  match s.frame.caches.get? name with
  | none => return named
  | some old =>
    let w ← s.store.dropOwner old
    return named.withStore w

/-- Names an owner's share in a cache if there is a name for it; else gives the share up. -/
def nameOrDropCache (s : Session) (name : Option String) (c : CacheId) :
    Except Fault Session := do
  match name with
  | some name => s.nameCache name c
  | none =>
    let w ← s.store.dropOwner c
    return s.withStore w

end Session

end PixelPool
