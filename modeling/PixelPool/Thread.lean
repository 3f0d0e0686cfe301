import PixelPool.Store.Shared
import PixelPool.Store.Swap

/-!
Caches bound to threads, and the operations that find the cache they work on by themselves: getting
a buffer goes to the thread's cache, everything done with a buffer goes to the buffer's own cache.

A thread's cache is made when it is first asked for. When the thread ends its binding is destroyed;
from then on each request gets a new cache of its own, which nobody keeps.
-/

namespace PixelPool

/-- Which cache a thread is bound to. -/
inductive Binding where
  | unbound
  | bound (c : CacheId)
  | destroyed
  deriving DecidableEq

/-- A thread and its binding. -/
structure Thread where
  id : ThreadId
  binding : Binding
  deriving DecidableEq

namespace Thread

/-- The cache of a thread. The caller becomes one of its owners. -/
def current (t : Thread) (w : Store) : (CacheId × Thread) × Store :=
  match t.binding with
  | .bound c => ((c, t), w.addOwner c)
  | .unbound =>
    let (c, w) := w.createShared t.id
    ((c, { t with binding := .bound c }), w.addOwner c)
  | .destroyed =>
    let (c, w) := (w.emit .detachedCache).createShared t.id
    ((c, t), w)

/-- Binds a cache to a thread, which takes over one of the caller's shares in it. The caller gets
the share in the cache that was bound before. If the binding is destroyed the share is given up. -/
def bind (t : Thread) (w : Store) (c : CacheId) :
    Except Fault ((Except Refusal (Option CacheId) × Thread) × Store) :=
  match t.binding with
  | .unbound => .ok ((.ok none, { t with binding := .bound c }), w)
  | .bound previous => .ok ((.ok (some previous), { t with binding := .bound c }), w)
  | .destroyed => do
    let w ← w.dropOwner c
    return ((.error (.violation .bindingDestroyed), t), w)

/-- Ends the binding of a thread, and answers whether there was one. The thread may be bound
again. -/
def unbind (t : Thread) (w : Store) : Except Fault ((Bool × Thread) × Store) :=
  match t.binding with
  | .bound c => do
    let w ← w.dropOwner c
    return ((true, { t with binding := .unbound }), w)
  | _ => .ok ((false, t), w)

/-- Ends the binding of a thread for good. -/
def destroyBinding (t : Thread) (w : Store) : Except Fault (Thread × Store) :=
  match t.binding with
  | .bound c => do
    let w ← w.dropOwner c
    return ({ t with binding := .destroyed }, w)
  | _ => .ok ({ t with binding := .destroyed }, w)

/-- A buffer for an area, from the thread's cache. -/
def request (t : Thread) (w : Store) (image : Image) (area : Rect) :
    Except Fault ((Except StorageError Handle × Thread) × Store) := do
  let ((c, t), w) := t.current w
  let (outcome, w) ← w.request c image area
  let w ← w.dropOwner c
  return ((outcome, t), w)

/-- Swaps a buffer in its own cache. If that cache is gone, or if there is no buffer, the new one
comes from the thread's cache. -/
def exchange (t : Thread) (w : Store) (old : Option Handle) (image : Image) (area : Rect) :
    Except Fault ((Except Refusal Handle × Thread) × Store) := do
  match old.filter fun b => w.isAlive b.cache with
  | some b =>
    let (outcome, w) ← w.exchange b.cache (some b) image area
    return ((outcome, t), w)
  | none =>
    let w ← w.dropHandle? old
    let ((c, t), w) := t.current w
    let (outcome, w) ← w.exchange c none image area
    let w ← w.dropOwner c
    return ((outcome, t), w)

end Thread

namespace Store

/-- Publishes a buffer in its own cache; ignored if that is gone. -/
def publishOwn (w : Store) (b : Handle) : Except Fault (Except Refusal Unit × Store) :=
  if w.isAlive b.cache then w.publish b.cache b
  else .ok (.ok (), w.emit (.publishIgnored b.image))

/-- Withdraws a buffer in its own cache; ignored if that is gone. -/
def unpublishOwn (w : Store) (b : Handle) : Except Fault (Except Refusal Unit × Store) :=
  if w.isAlive b.cache then w.unpublish b.cache b
  else .ok (.ok (), w.emit (.unpublishIgnored b.image))

end Store

end PixelPool
