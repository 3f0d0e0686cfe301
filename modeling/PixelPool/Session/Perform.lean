import PixelPool.Session.State

/-!
Performing one act of a session. Names are looked up from left to right before anything is done; the
first one that stands for nothing is the answer.
-/

namespace PixelPool.Session

/-! ### Looking up names -/

/-- Goes on with the cache of a name. -/
def withCache (s : Session) (name : String) (go : CacheId → Except Fault (Answer × Session)) :
    Except Fault (Answer × Session) :=
  match s.frame.caches.get? name with
  | some c => go c
  | none => .ok (.unknownName .cache name, s)

/-- Goes on with the handle of a name. -/
def withHandle (s : Session) (name : String) (go : Handle → Except Fault (Answer × Session)) :
    Except Fault (Answer × Session) :=
  match s.frame.handles.get? name with
  | some b => go b
  | none => .ok (.unknownName .buffer name, s)

/-- Goes on with the handle of a name, or with none if no name is given. -/
def withHandle? (s : Session) (name : Option String)
    (go : Option Handle → Except Fault (Answer × Session)) : Except Fault (Answer × Session) :=
  match name with
  | none => go none
  | some name => s.withHandle name fun b => go (some b)

/-- Goes on with the image of a name. -/
def withImage (s : Session) (name : String) (go : Image → Except Fault (Answer × Session)) :
    Except Fault (Answer × Session) :=
  match s.images.get? name with
  | some i => go i
  | none => .ok (.unknownName .image name, s)

/-- Goes on with the allocator of a name. -/
def withAllocator (s : Session) (name : String)
    (go : AllocatorId → Except Fault (Answer × Session)) : Except Fault (Answer × Session) :=
  match s.allocators.get? name with
  | some a => go a
  | none => .ok (.unknownName .allocator name, s)

/-- Goes on with the block of a name. -/
def withBlock (s : Session) (name : String) (go : Loan → Except Fault (Answer × Session)) :
    Except Fault (Answer × Session) :=
  match s.frame.blocks.get? name with
  | some b => go b
  | none => .ok (.unknownName .block name, s)

/-- Whether a name of the given kind stands for something. -/
def knows (s : Session) : Kind → String → Bool
  | .cache, name => (s.frame.caches.get? name).isSome
  | .buffer, name => (s.frame.handles.get? name).isSome
  | .image, name => (s.images.get? name).isSome
  | .allocator, name => (s.allocators.get? name).isSome
  | .block, name => (s.frame.blocks.get? name).isSome

/-- The session without the name of a handle, if one is given. -/
def forgetHandle? (s : Session) (name : Option String) : Session :=
  match name with
  | none => s
  | some name => s.withHandles (s.frame.handles.erase name)

/-! ### Answers -/

/-- The answer to something that either is done or is refused. -/
def doneOrRefused (outcome : Except Refusal Unit) : Answer :=
  match outcome with
  | .ok () => .done
  | .error e => .refused e

/-- The answer to an installation. -/
def installed (outcome : Except ConfigError Unit) : Answer :=
  match outcome with
  | .ok () => .done
  | .error e => .refused (.config e)

/-- Names the handle that an operation gave and shows it, or tells why there is none. -/
def nameOutcome (s : Session) (name : String) (outcome : Except Refusal Handle) :
    Except Fault (Answer × Session) := do
  match outcome with
  | .error e => return (.refused e, s)
  | .ok b =>
    let view ← handleView s.store b
    let s ← s.nameHandle name b
    return (.handle view, s)

/-! ### Ending a thread -/

/-- Gives up several handles, one after another. -/
def dropHandles (w : Store) : List Handle → Except Fault Store
  | [] => .ok w
  | b :: rest => do
    let w ← w.dropHandle b
    dropHandles w rest

/-- Gives up several shares in caches, one after another. -/
def dropOwners (w : Store) : List CacheId → Except Fault Store
  | [] => .ok w
  | c :: rest => do
    let w ← w.dropOwner c
    dropOwners w rest

/-- Gives up everything that the running thread has names for: first the handles, then the caches,
each in the order of the names, and at last the thread's binding. Blocks are just forgotten. -/
def closeFrame (s : Session) : Except Fault Session := do
  let w ← dropHandles s.store s.frame.handles.values
  let w ← dropOwners w s.frame.caches.values
  let (thread, w) ← s.frame.thread.destroyBinding w
  return { s with store := w, frame := ⟨thread, .empty, .empty, .empty⟩ }

/-! ### Acts -/

/-- A new image descriptor, with a key of its own unless one is given. -/
def newImage (s : Session) (name : String) (bytesPerPixel : Nat) (key : Option Nat) :
    Answer × Session :=
  match key with
  | some raw =>
    let i : Image := ⟨.ofNumber s.store.host.firstKey raw, bytesPerPixel⟩
    (.image i, { s with images := s.images.put name i })
  | none =>
    let i : Image := ⟨.fresh s.store.freshKeys, bytesPerPixel⟩
    (.image i,
      { s with
        images := s.images.put name i
        store := { s.store with freshKeys := s.store.freshKeys + 1 } })

/-- A new cache, on the allocator if one is given, else on the shared one. -/
def newCache (s : Session) (name : String) (a : Option AllocatorId) (cap : Option Nat) :
    Except Fault (Answer × Session) := do
  let config : Config := ⟨cap.getD Config.defaultCap⟩
  let (c, w) := match a with
    | some a => s.store.createCache s.frame.thread.id config a
    | none => s.store.createWithConfig s.frame.thread.id config
  let s ← (s.withStore w).nameCache name c
  return (.number c, s)

/-- Writes the pixels of a buffer, and answers how many bytes that were. -/
def writePixels (s : Session) (b : Handle) (fill : Nat → UInt8) :
    Except Fault (Answer × Session) := do
  let x ← s.store.record b.record
  match x.write fill with
  | none => return (.absent, s)
  | some (n, x) => return (.number n, s.withStore (s.store.setRecord b.record x))

/-- Allocates a block directly. -/
def allocateBlock (s : Session) (a : AllocatorId) (size : Nat) :
    Except Fault (Except StorageError Block × Session) := do
  let source ← s.store.allocator a
  let (outcome, source) := source.allocate s.store.host.heap size
  return (outcome, s.withStore (s.store.setAllocator a source))

/-- The description of a thing. -/
def describe (s : Session) : Subject → Except Fault (Answer × Session)
  | .buffer name => s.withHandle name fun b => do
    let text ← describeHandle s.store b
    return (.text text, s)
  | .cache name => s.withCache name fun c => do
    let text ← describeCache s.store c
    return (.text text, s)
  | .image name => s.withImage name fun i => .ok (.text i.describe, s)

/-- Performs an act. -/
def perform (s : Session) (act : Act) : Except Fault (Answer × Session) :=
  match act with
  | .newAllocator name limit =>
    let (a, w) := s.store.createAllocator limit
    .ok (.done, { s with store := w, allocators := s.allocators.put name a })
  | .newImage name bytesPerPixel key => .ok (s.newImage name bytesPerPixel key)
  | .describe subject => s.describe subject
  | .allocateBlock allocator size name => s.withAllocator allocator fun a => do
    let (outcome, s) ← s.allocateBlock a size
    match outcome with
    | .error e => return (.refused (.allocation e), s)
    | .ok b => return (.block b, s.withBlocks (s.frame.blocks.put name ⟨a, b⟩))
  | .freeBlock allocator block truncate =>
    s.withAllocator allocator fun a => s.withBlock block fun loan => do
      let shortened := match truncate with
        | none => loan.block
        | some n => loan.block.truncate n
      let w ← s.store.giveBack a shortened
      return (.done, (s.withBlocks (s.frame.blocks.erase block)).withStore w)
  | .install cap =>
    let (outcome, w) := s.store.install ⟨cap⟩
    .ok (installed outcome, s.withStore w)
  | .sharedConfig =>
    let (config, w) := s.store.sharedConfig
    .ok (.number config.reserveCap, s.withStore w)
  | .environmentConfig =>
    match s.store.environmentConfig with
    | .ok config => .ok (.number config.reserveCap, s)
    | .error e => .ok (.refused (.config e), s)
  | .installAllocator allocator => s.withAllocator allocator fun a =>
    let (outcome, w) := s.store.installAllocator a
    .ok (installed outcome, s.withStore w)
  | .allocateShared size => do
    let (a, w) := s.store.sharedAllocator
    let (outcome, s) ← (s.withStore w).allocateBlock a size
    match outcome with
    | .error e => return (.refused (.allocation e), s)
    | .ok b =>
      let w ← s.store.giveBack a b
      return (.block b, s.withStore w)
  | .destroyBinding => do
    let (thread, w) ← s.frame.thread.destroyBinding s.store
    return (.done, (s.withThread thread).withStore w)
  | .enterThread =>
    .ok (.done,
      { s with
        nextThread := s.nextThread + 1
        frame := .start s.nextThread
        waiting := s.frame :: s.waiting })
  | .leaveThread => do
    let s ← s.closeFrame
    match s.waiting with
    | [] => return (.done, s)
    | frame :: waiting => return (.done, { s with frame, waiting })
  | .incomplete names field =>
    match names.find? fun n => !(s.knows n.1 n.2) with
    | some (kind, name) => .ok (.unknownName kind name, s)
    | none => .ok (.incomplete field, s)
  | .newCache name none cap => s.newCache name none cap
  | .newCache name (some allocator) cap =>
    s.withAllocator allocator fun a => s.newCache name (some a) cap
  | .shareCache cache name => s.withCache cache fun c => do
    let s ← (s.withStore (s.store.addOwner c)).nameCache name c
    return (.done, s)
  | .dropCache cache => s.withCache cache fun c => do
    let w ← s.store.dropOwner c
    return (.done, (s.withCaches (s.frame.caches.erase cache)).withStore w)
  | .inspect cache => s.withCache cache fun c => do
    let x ← s.store.cacheAt c .reserve
    return (.cacheInfo c x.reserve.cap x.reserve.slots.length (x.thread == s.frame.thread.id), s)
  | .emptyReserve cache => s.withCache cache fun c => do
    let (bytes, w) ← s.store.emptyReserve c
    return (.number bytes, s.withStore w)
  | .list cache image => s.withCache cache fun c => s.withImage image fun i => do
    match ← listing s.store c i.key with
    | none => return (.absent, s)
    | some l => return (.listing l, s)
  | .current name => do
    let ((c, thread), w) := s.frame.thread.current s.store
    let view ← cacheView w c
    let s ← ((s.withThread thread).withStore w).nameOrDropCache name c
    return (.cache view, s)
  | .bind cache name => s.withCache cache fun c => do
    let ((outcome, thread), w) ← s.frame.thread.bind (s.store.addOwner c) c
    let s := (s.withThread thread).withStore w
    match outcome with
    | .error e => return (.refused e, s)
    | .ok none => return (.absent, s)
    | .ok (some previous) =>
      let s ← s.nameOrDropCache name previous
      return (.number previous, s)
  | .unbind => do
    let ((was, thread), w) ← s.frame.thread.unbind s.store
    return (.flag was, (s.withThread thread).withStore w)
  | .acquire cache image area name =>
    s.withCache cache fun c => s.withImage image fun i => do
      let (outcome, w) ← s.store.acquire c i area
      (s.withStore w).nameOutcome name (Store.asRefusal outcome)
  | .request cache image area name =>
    s.withCache cache fun c => s.withImage image fun i => do
      let (outcome, w) ← s.store.request c i area
      (s.withStore w).nameOutcome name (Store.asRefusal outcome)
  | .lookup cache image area name =>
    s.withCache cache fun c => s.withImage image fun i => do
      let (found, w) ← s.store.lookup c i area
      match found with
      | none => return (.absent, s.withStore w)
      | some b => (s.withStore w).nameOutcome name (.ok b)
  | .publish cache buffer => s.withCache cache fun c => s.withHandle buffer fun b => do
    let (outcome, w) ← s.store.publish c b
    return (doneOrRefused outcome, s.withStore w)
  | .unpublish cache buffer => s.withCache cache fun c => s.withHandle buffer fun b => do
    let (outcome, w) ← s.store.unpublish c b
    return (doneOrRefused outcome, s.withStore w)
  | .resize cache buffer area viewHeld => s.withCache cache fun c => s.withHandle buffer fun b => do
    let (outcome, w) ← s.store.resize c b area viewHeld
    return (doneOrRefused outcome, s.withStore w)
  | .release cache buffer => s.withCache cache fun c => s.withHandle buffer fun b => do
    let (outcome, w) ← s.store.release c b
    return (doneOrRefused outcome, (s.forgetHandle? (some buffer)).withStore w)
  | .dropHandle buffer => s.withHandle buffer fun b => do
    let w ← s.store.dropHandle b
    return (.done, (s.forgetHandle? (some buffer)).withStore w)
  | .copyHandle buffer name => s.withHandle buffer fun b => do
    let (copy, w) ← s.store.copyHandle b
    (s.withStore w).nameOutcome name (.ok copy)
  | .exchange cache image area buffer name =>
    s.withCache cache fun c => s.withImage image fun i => s.withHandle? buffer fun old => do
      let (outcome, w) ← s.store.exchange c old i area
      ((s.forgetHandle? buffer).withStore w).nameOutcome name outcome
  | .sameRecord buffer other => s.withHandle buffer fun b => s.withHandle other fun d =>
    .ok (.flag (b.record == d.record), s)
  | .readPixels buffer => s.withHandle buffer fun b => do
    let x ← s.store.record b.record
    match x.pixels with
    | none => return (.absent, s)
    | some content => return (.pixels content, s)
  | .writePixels buffer fill => s.withHandle buffer fun b => s.writePixels b fill
  | .requestHere image area name => s.withImage image fun i => do
    let ((outcome, thread), w) ← s.frame.thread.request s.store i area
    ((s.withThread thread).withStore w).nameOutcome name (Store.asRefusal outcome)
  | .publishOwn buffer => s.withHandle buffer fun b => do
    let (outcome, w) ← s.store.publishOwn b
    return (doneOrRefused outcome, s.withStore w)
  | .unpublishOwn buffer => s.withHandle buffer fun b => do
    let (outcome, w) ← s.store.unpublishOwn b
    return (doneOrRefused outcome, s.withStore w)
  | .exchangeOwn image area buffer name =>
    s.withImage image fun i => s.withHandle? buffer fun old => do
      let ((outcome, thread), w) ← s.frame.thread.exchange s.store old i area
      (((s.forgetHandle? buffer).withThread thread).withStore w).nameOutcome name outcome

/-- Performs an act; a fault is answered as such and leaves the session as it was. -/
def step (s : Session) (act : Act) : Answer × Session :=
  match s.perform act with
  | .ok r => r
  | .error f => (.fault f, s)

/-- The session after several acts. -/
def run (s : Session) (acts : List Act) : Session := acts.foldl (fun s act => (s.step act).2) s

end PixelPool.Session
