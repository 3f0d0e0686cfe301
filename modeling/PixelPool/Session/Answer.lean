import PixelPool.Buffer.Record
import PixelPool.Cache.Stats
import PixelPool.Session.Act
import PixelPool.Storage.Allocator

/-!
What a session answers, and what it shows of its state.
-/

namespace PixelPool

/-- What a handle tells about its buffer. -/
structure HandleView where
  area : Rect
  references : Nat
  published : Bool
  capacity : Nat
  image : ImageKey
  deriving DecidableEq

/-- What a cache tells about itself. -/
structure CacheView where
  id : CacheId
  reserveLength : Nat
  stats : Stats
  deriving DecidableEq

/-- The list of an image: the areas of its members in the order in which they are found. -/
structure Listing where
  image : ImageKey
  owner : CacheId
  areas : List Rect
  deriving DecidableEq

/-- An answer. -/
inductive Answer where
  /-- It is done, and there is nothing to tell. -/
  | done
  /-- There is no such thing. -/
  | absent
  | flag (b : Bool)
  | number (n : Nat)
  | text (s : String)
  | image (i : Image)
  | handle (v : HandleView)
  | cache (v : CacheView)
  | cacheInfo (id : CacheId) (cap length : Nat) (here : Bool)
  | listing (l : Listing)
  | pixels (b : Block)
  /-- A block was allocated. -/
  | block (b : Block)
  | refused (e : Refusal)
  | unknownName (kind : Kind) (name : String)
  | incomplete (field : String)
  | fault (f : Fault)

/-- The names of the running thread and those of the allocators, each with what it stands for.
Handles also show the first name, in their order, that stands for the same buffer. -/
structure Snapshot where
  handles : List (String × HandleView × String)
  caches : List (String × CacheView)
  allocators : List (String × Allocator)

end PixelPool
