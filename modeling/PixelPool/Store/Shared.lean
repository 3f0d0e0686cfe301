import PixelPool.Store.Lifetime

/-!
The settings that all threads share: the configuration of their caches, and the allocator. Each can
be installed once, as long as nobody has needed it; the first to need it fixes it for good.
-/

namespace PixelPool.Store

/-- Reports a configuration that has just been fixed. -/
def announce (w : Store) (config : Config) : Store :=
  w.emit (if config.reserveCap = 0 then .reserveDisabled else .configured config.reserveCap)

/-- Fixes the configuration. -/
def fixConfig (w : Store) (config : Config) : Store :=
  { w with settings := { w.settings with config := some config } }.announce config

/-- Installs a configuration. -/
def install (w : Store) (config : Config) : Except ConfigError Unit × Store :=
  match w.settings.config with
  | some _ => (.error (.alreadyInstalled .configuration), w)
  | none => (.ok (), w.fixConfig config)

/-- The configuration that the environment asks for. -/
def environmentConfig (w : Store) : Except ConfigError Config :=
  Config.default.withEnvironment w.settings.environment

/-- The shared configuration, fixed now if it was not yet. An environment variable that holds no
number is reported and ignored. -/
def sharedConfig (w : Store) : Config × Store :=
  match w.settings.config with
  | some config => (config, w)
  | none =>
    match w.environmentConfig with
    | .ok config => (config, w.fixConfig config)
    | .error _ =>
      let ignored := w.emit (.overrideIgnored (w.settings.environment.getD ""))
      (Config.default, ignored.fixConfig Config.default)

/-- A new allocator. -/
def createAllocator (w : Store) (limit : Option Nat) : AllocatorId × Store :=
  (w.allocators.next, { w with allocators := w.allocators.add (.withLimit limit) })

/-- Fixes the shared allocator. -/
def fixAllocator (w : Store) (a : AllocatorId) : Store :=
  { w with settings := { w.settings with allocator := some a } }

/-- Installs the shared allocator. -/
def installAllocator (w : Store) (a : AllocatorId) : Except ConfigError Unit × Store :=
  match w.settings.allocator with
  | some _ => (.error (.alreadyInstalled .allocator), w)
  | none => (.ok (), w.fixAllocator a)

/-- The shared allocator, fixed now as one without limit if it was not yet. -/
def sharedAllocator (w : Store) : AllocatorId × Store :=
  match w.settings.allocator with
  | some a => (a, w)
  | none =>
    let (a, w) := w.createAllocator none
    (a, w.fixAllocator a)

/-- A new cache on the shared allocator. -/
def createWithConfig (w : Store) (thread : ThreadId) (config : Config) : CacheId × Store :=
  let (a, w) := w.sharedAllocator
  w.createCache thread config a

/-- A new cache on the shared allocator, by the shared configuration. -/
def createShared (w : Store) (thread : ThreadId) : CacheId × Store :=
  let (config, w) := w.sharedConfig
  w.createWithConfig thread config

/-- A store in which both settings are fixed already: the default configuration, and an allocator
without limit. -/
def settled (environment : Option String) : Store :=
  let (a, w) := (fresh environment).createAllocator none
  { w with settings := { environment, config := some .default, allocator := some a } }

end PixelPool.Store
