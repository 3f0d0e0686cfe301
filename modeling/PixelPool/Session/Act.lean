import PixelPool.Config
import PixelPool.Image
import PixelPool.Rect

/-!
What a session can be asked to do. Everything is called by the name it was given; the names of
handles, caches and blocks belong to the running thread, those of allocators and images to the whole
session.
-/

namespace PixelPool

/-- The kinds of things that have names. -/
inductive Kind where
  | cache
  | buffer
  | image
  | allocator
  | block
  deriving DecidableEq

/-- The word for a kind of thing. -/
def Kind.text : Kind → String
  | .cache => "cache"
  | .buffer => "buf"
  | .image => "image"
  | .allocator => "alloc"
  | .block => "block"

/-- Something to describe field by field. -/
inductive Subject where
  | buffer (name : String)
  | cache (name : String)
  | image (name : String)

/-- One thing to do. A name after `as` is given to the result. -/
inductive Act where
  | newAllocator (as : String) (limit : Option Nat)
  | newImage (as : String) (bytesPerPixel : Nat) (key : Option Nat)
  /-- A new cache, on the shared allocator if none is named. -/
  | newCache (as : String) (allocator : Option String) (cap : Option Nat)
  | shareCache (cache : String) (as : String)
  | dropCache (cache : String)
  | inspect (cache : String)
  | acquire (cache image : String) (area : Rect) (as : String)
  | request (cache image : String) (area : Rect) (as : String)
  | lookup (cache image : String) (area : Rect) (as : String)
  | publish (cache buffer : String)
  | unpublish (cache buffer : String)
  | resize (cache buffer : String) (area : Rect) (viewHeld : Bool)
  | release (cache buffer : String)
  | dropHandle (buffer : String)
  | copyHandle (buffer : String) (as : String)
  | exchange (cache image : String) (area : Rect) (buffer : Option String) (as : String)
  | emptyReserve (cache : String)
  | list (cache image : String)
  | sameRecord (buffer other : String)
  | readPixels (buffer : String)
  | writePixels (buffer : String) (fill : Nat → UInt8)
  | describe (subject : Subject)
  | allocateBlock (allocator : String) (size : Nat) (as : String)
  /-- Gives a block back, shortened first if a length is given. -/
  | freeBlock (allocator block : String) (truncate : Option Nat)
  | requestHere (image : String) (area : Rect) (as : String)
  | publishOwn (buffer : String)
  | unpublishOwn (buffer : String)
  | exchangeOwn (image : String) (area : Rect) (buffer : Option String) (as : String)
  | current (as : Option String)
  | bind (cache : String) (as : Option String)
  | unbind
  | install (cap : Nat)
  | sharedConfig
  | environmentConfig
  | installAllocator (allocator : String)
  /-- Allocates from the shared allocator and frees at once. -/
  | allocateShared (size : Nat)
  /-- Ends the binding of the running thread for good. -/
  | destroyBinding
  /-- Starts a thread, which runs from now on. -/
  | enterThread
  /-- Ends the running thread: its names go, and the thread that started it goes on. -/
  | leaveThread
  /-- An act that is not complete: the names it does give, and the field that is missing. -/
  | incomplete (names : List (Kind × String)) (field : String)

namespace Act

/-- Bytes that start with `seed` and rise by `step` from one to the next, modulo 256. -/
def ramp (seed step : Nat) (i : Nat) : UInt8 := UInt8.ofNat (seed + i * step)

end Act

end PixelPool
