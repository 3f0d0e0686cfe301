import PixelPool.Fault
import PixelPool.Image
import PixelPool.Storage.Block
import PixelPool.Storage.Size

/-!
The record of one buffer: its storage, and who uses it for what.

A record is idle (no image, no references, no area), or in use for an image with at least one
reference; a record in use may be published, which its flag `published` says together with the cache
that published it. Each operation checks what must hold of the record before it, and reports a fault
if it does not.
-/

namespace PixelPool

/-- The record of one buffer. -/
structure Record where
  /-- The cache that made the record. -/
  origin : CacheId
  /-- The allocator that its storage comes from and returns to. -/
  allocator : AllocatorId
  /-- The image whose pixels it holds, if it is in use. -/
  image : Option ImageKey := none
  /-- Bytes for each pixel, as given by the last image it was taken into use for. -/
  bytesPerPixel : Nat := 0
  /-- The area whose pixels it holds. -/
  area : Rect := .zero
  references : Nat := 0
  /-- Whether it is published. -/
  published : Bool := false
  /-- The cache that published it. -/
  publisher : Option CacheId := none
  storage : Option Block := none

namespace Record

/-- A record is idle if it has neither image nor references. -/
def isIdle (x : Record) : Bool := x.image.isNone && x.references == 0

/-- The bytes of storage it has. -/
def capacity (x : Record) : Nat := (x.storage.map Block.size).getD 0

/-- The bytes that its pixels take. -/
def contentSize (x : Record) : Nat := (byteSize? x.area x.bytesPerPixel).getD 0

/-- Its pixels, row by row; none if it has no storage. -/
def pixels (x : Record) : Option Block :=
  x.storage.bind fun b =>
    if x.contentSize ≤ b.size then some (b.truncate x.contentSize) else none

/-- The record with its pixels written anew, and how many bytes that were. Only the pixels of an
unpublished buffer with a single reference may be written. -/
def write (x : Record) (fill : Nat → UInt8) : Option (Nat × Record) :=
  if x.references ≠ 1 ∨ x.published then none
  else x.storage.bind fun b =>
    if x.contentSize ≤ b.size then
      some (x.contentSize, { x with storage := some (b.overwrite x.contentSize fill) })
    else none

/-- The record taken into use for an image, with one reference. Its area stays empty for now. -/
def assign (x : Record) (r : RecordId) (i : Image) : Except Fault Record :=
  if x.isIdle then
    .ok { x with
      image := some i.key, bytesPerPixel := i.bytesPerPixel, references := 1, published := false,
      publisher := none }
  else .error (.assignedInUse r)

/-- The record put aside; it keeps its storage. -/
def shelve (x : Record) (r : RecordId) : Except Fault Record :=
  if x.references ≠ 0 then .error (.shelvedReferenced r)
  else if x.published then .error (.shelvedPublished r)
  else .ok { x with image := none, area := .zero, publisher := none }

/-- The record with one more reference. -/
def retain (x : Record) (r : RecordId) : Except Fault Record :=
  if x.image.isNone then .error (.retainedIdle r) else .ok { x with references := x.references + 1 }

/-- The record with one reference less. -/
def letGo (x : Record) (r : RecordId) : Except Fault Record :=
  if x.references = 0 then .error (.letGoUnreferenced r)
  else .ok { x with references := x.references - 1 }

/-- The record marked as published by a cache. -/
def markPublished (x : Record) (c : CacheId) : Record :=
  { x with published := true, publisher := some c }

/-- The record no longer marked as published. -/
def unmark (x : Record) : Record := { x with published := false, publisher := none }

/-- The record without an area. -/
def withoutArea (x : Record) : Record := { x with area := .zero }

/-- A key that may be missing, for diagnostics. -/
def describeKey : Option ImageKey → String
  | none => "None"
  | some k => "Some(" ++ k.describe ++ ")"

/-- A cache that may be missing, for diagnostics. -/
def describePublisher : Option CacheId → String
  | none => "None"
  | some c => s!"Some(CacheId({c}))"

/-- The record field by field, for diagnostics. -/
def describe (x : Record) : String :=
  s!"BufferSlot \x7b image: {describeKey x.image}, area: {x.area.describe}, " ++
    s!"ref_count: {x.references}, done: {x.published}, cache: {describePublisher x.publisher}, " ++
    s!"capacity: {x.capacity} \x7d"

end Record

end PixelPool
