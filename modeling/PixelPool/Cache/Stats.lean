/-!
The running counts of a cache.
-/

namespace PixelPool

/-- What a cache has done so far. -/
structure Stats where
  /-- Requests that a published buffer answered. -/
  hits : Nat := 0
  /-- Requests that went on to acquire a buffer. -/
  misses : Nat := 0
  /-- Buffers made anew. -/
  made : Nat := 0
  /-- Buffers taken from the reserve. -/
  reused : Nat := 0
  /-- Buffers put into the reserve when their last reference went. -/
  kept : Nat := 0
  /-- Buffers freed when their last reference went, since the reserve was full. -/
  freed : Nat := 0
  /-- Exchanges that moved the old buffer to the new area. -/
  movedInPlace : Nat := 0
  /-- Blocks of storage allocated for buffers. -/
  allocations : Nat := 0
  /-- Buffers published. -/
  publishes : Nat := 0
  /-- Acquisitions that failed. -/
  failures : Nat := 0
  deriving DecidableEq

namespace Stats

/-- One more hit. -/
def addHit (s : Stats) : Stats := { s with hits := s.hits + 1 }

/-- One more miss. -/
def addMiss (s : Stats) : Stats := { s with misses := s.misses + 1 }

/-- One more buffer made anew. -/
def addMade (s : Stats) : Stats := { s with made := s.made + 1 }

/-- One more buffer taken from the reserve. -/
def addReused (s : Stats) : Stats := { s with reused := s.reused + 1 }

/-- One more buffer put into the reserve. -/
def addKept (s : Stats) : Stats := { s with kept := s.kept + 1 }

/-- One more buffer freed with its last reference. -/
def addFreed (s : Stats) : Stats := { s with freed := s.freed + 1 }

/-- One more buffer moved in an exchange. -/
def addMoved (s : Stats) : Stats := { s with movedInPlace := s.movedInPlace + 1 }

/-- One more block allocated, if there was one. -/
def addAllocation (s : Stats) (newBlock : Bool) : Stats :=
  if newBlock then { s with allocations := s.allocations + 1 } else s

/-- One more buffer published. -/
def addPublish (s : Stats) : Stats := { s with publishes := s.publishes + 1 }

/-- One more failed acquisition. -/
def addFailure (s : Stats) : Stats := { s with failures := s.failures + 1 }

end Stats

end PixelPool
