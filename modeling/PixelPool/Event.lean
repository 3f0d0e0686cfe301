import PixelPool.Fault
import PixelPool.Image

/-!
The events that the pool reports, and the line that each is written as: its level, its message, and
its fields in a fixed order.
-/

namespace PixelPool

/-- How important an event is. -/
inductive Level where
  | trace
  | debug
  | warn
  deriving DecidableEq

/-- Something that happened. What happens to a buffer is reported by a cache, which the line of the
event leaves out. -/
inductive Event where
  | cacheCreated (cache : CacheId) (reserveCap : Nat)
  | cacheTornDown (cache : CacheId) (published reserveBytes : Nat)
  | detachedCache
  | acquired (cache : CacheId) (image : ImageKey) (area : Rect) (capacity : Nat)
  | acquisitionFailed (cache : CacheId) (image : ImageKey) (area : Rect) (error : StorageError)
  | hit (cache : CacheId) (image : ImageKey) (area : Rect) (references : Nat)
  | published (cache : CacheId) (image : ImageKey) (area : Rect)
  | unpublished (cache : CacheId) (image : ImageKey)
  | resizeFailed (cache : CacheId) (image : ImageKey) (area : Rect) (error : StorageError)
  | reserveFull (cache : CacheId) (capacity : Nat)
  | reserveShrunk (cache : CacheId) (freed : Nat)
  | outlivedCache (image : ImageKey)
  | publishIgnored (image : ImageKey)
  | unpublishIgnored (image : ImageKey)
  | reserveDisabled
  | configured (reserveCap : Nat)
  | overrideIgnored (value : String)
  deriving DecidableEq

/-- The name of a level. -/
def Level.text : Level → String
  | .trace => "TRACE"
  | .debug => "DEBUG"
  | .warn => "WARN"

namespace Event

/-- The level of an event: failures are warnings, what happens to single buffers is traced. -/
def level : Event → Level
  | .acquisitionFailed .. | .resizeFailed .. | .overrideIgnored .. => .warn
  | .cacheCreated .. | .cacheTornDown .. | .detachedCache | .reserveFull .. | .reserveShrunk ..
  | .reserveDisabled | .configured .. => .debug
  | .acquired .. | .hit .. | .published .. | .unpublished .. | .outlivedCache ..
  | .publishIgnored .. | .unpublishIgnored .. => .trace

/-- The message of an event. -/
def message : Event → String
  | .cacheCreated .. => "buffer cache created"
  | .cacheTornDown .. => "buffer cache torn down"
  | .detachedCache => "thread-local buffer cache unavailable, using a detached cache"
  | .acquired .. => "buffer acquired"
  | .acquisitionFailed .. => "pixel buffer allocation failed"
  | .hit .. => "buffer cache hit"
  | .published .. => "buffer published"
  | .unpublished .. => "buffer unpublished"
  | .resizeFailed .. => "pixel buffer resize failed"
  | .reserveFull .. => "buffer reserve full, freeing released buffer"
  | .reserveShrunk .. => "buffer reserve shrunk"
  | .outlivedCache .. => "released buffer outlived its cache"
  | .publishIgnored .. => "publish on orphaned buffer ignored"
  | .unpublishIgnored .. => "unpublish on orphaned buffer ignored"
  | .reserveDisabled => "buffer reserve disabled"
  | .configured .. => "buffer cache configured"
  | .overrideIgnored .. => "ignoring invalid buffer cache override"

/-- The fields of an event, each with its name. The thread of a cache is left blank. -/
def fields : Event → List (String × String)
  | .cacheCreated cache reserveCap =>
    [("cache", s!"{cache}"), ("thread", "_"), ("reserve_cap", s!"{reserveCap}")]
  | .cacheTornDown cache listed reserveBytes =>
    [("cache", s!"{cache}"), ("thread", "_"), ("published", s!"{listed}"),
      ("reserve_bytes", s!"{reserveBytes}")]
  | .detachedCache | .reserveDisabled => []
  | .acquired _ image area capacity =>
    [("image", image.describe), ("area", area.geometry), ("capacity", s!"{capacity}")]
  | .acquisitionFailed _ image area error | .resizeFailed _ image area error =>
    [("image", image.describe), ("area", area.geometry), ("error", error.message)]
  | .hit _ image area references =>
    [("image", image.describe), ("area", area.geometry), ("ref_count", s!"{references}")]
  | .published _ image area => [("image", image.describe), ("area", area.geometry)]
  | .unpublished _ image | .outlivedCache image | .publishIgnored image
  | .unpublishIgnored image => [("image", image.describe)]
  | .reserveFull cache capacity => [("cache", s!"{cache}"), ("capacity", s!"{capacity}")]
  | .reserveShrunk cache freed => [("cache", s!"{cache}"), ("freed", s!"{freed}")]
  | .configured reserveCap => [("reserve_cap", s!"{reserveCap}")]
  | .overrideIgnored value =>
    [("error", ((ConfigError.invalidEnvironment value).message?).getD "")]

/-- The line that an event is written as. -/
def line (e : Event) : String :=
  e.level.text ++ " " ++ e.message ++ " | " ++
    " ".intercalate (e.fields.map fun f => f.1 ++ "=" ++ f.2)

end Event

end PixelPool
