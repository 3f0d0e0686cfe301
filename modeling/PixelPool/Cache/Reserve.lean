import PixelPool.Fault

/-!
The reserve of a cache: idle buffers kept for later, up to a cap. The one put in last is the first
to be taken out.
-/

namespace PixelPool

/-- Idle buffers, the one put in last first. -/
structure Reserve where
  slots : List RecordId := []
  cap : Nat
  deriving DecidableEq

namespace Reserve

/-- The reserve with one more buffer, if there is room. -/
def push? (v : Reserve) (r : RecordId) : Option Reserve :=
  if v.cap ≤ v.slots.length then none else some { v with slots := r :: v.slots }

/-- The buffer to be taken out next, and the reserve without it. -/
def pop (v : Reserve) : Option RecordId × Reserve :=
  match v.slots with
  | [] => (none, v)
  | r :: rest => (some r, { v with slots := rest })

/-- The reserve without its buffers. -/
def clear (v : Reserve) : Reserve := { v with slots := [] }

end Reserve

end PixelPool
