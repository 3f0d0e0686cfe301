import Mathlib.Data.Multiset.Count
import Mathlib.Data.Multiset.Filter
import PixelPool.Proofs.Effects
import PixelPool.Session.State

/-!
What everything that the pool does comes down to.

A *world* is a store together with what is held on it: handles, shares in caches, and blocks that
were taken directly. What a running call holds counts as held too, so that a world makes sense in
the middle of a call. A *move* is the smallest change that leads from one such world to the next;
`World.Step` says what each move does, in full, and when it can happen. The operations of the pool
are sequences of moves (`World.Reaches`), so a property that every move keeps is kept by all of
them.
-/

namespace PixelPool

/-- A store and what is held on it. -/
structure World where
  store : Store
  handles : Multiset Handle
  shares : Multiset CacheId
  /-- Blocks that were taken directly from an allocator and have not come back. -/
  loans : Multiset Loan

/-- The smallest changes of a world. -/
inductive Move where
  /-- A handle appears on a buffer in use, or one of several goes. -/
  | retain (b : Handle)
  | letGo (b : Handle)
  | publish (b : Handle)
  | withdraw (r : RecordId)
  /-- A buffer is moved to an area, with or without success. -/
  | refit (r : RecordId)
  | write (r : RecordId)
  /-- A buffer is taken from the reserve, or made. -/
  | take (b : Handle)
  /-- The last handle goes: the buffer is put into the reserve, it ends since the reserve is full,
  it ends since its cache is gone, or it ends since it got no storage. -/
  | keep (b : Handle)
  | free (b : Handle)
  | outlive (b : Handle)
  | discard (b : Handle)
  /-- The last handle on a published buffer goes: it is withdrawn, and then kept or freed. -/
  | retire (b : Handle)
  | report (e : Event)
  | tally (c : CacheId) (f : Stats → Stats)
  | addAllocator (a : AllocatorId)
  | settle
  | addKey
  | addCache (c : CacheId)
  | share (c : CacheId)
  | unshare (c : CacheId)
  | tearDown (c : CacheId)
  | emptyReserve (c : CacheId)
  /-- A block is handed out directly, refused, or given back; or some other block is given back,
  one that was shortened or is not the allocator's. -/
  | lend (l : Loan)
  | refuse (a : AllocatorId)
  | repay (l : Loan)
  | misfree (a : AllocatorId)

namespace World

/-- `Step m W W'`: the move `m` leads from `W` to `W'`. -/
inductive Step : Move → World → World → Prop where
  | retain {W : World} {b : Handle} {x : Record}
      (hx : W.store.records.get? b.record = some x) (image : x.image = some b.image)
      (origin : x.origin = b.cache) :
      Step (.retain b) W
        { W with store := W.store.retained b.record x, handles := b ::ₘ W.handles }
  | letGo {W : World} {H : Multiset Handle} {b : Handle} {x : Record}
      (held : W.handles = b ::ₘ H) (hx : W.store.records.get? b.record = some x)
      (more : 1 < x.references) :
      Step (.letGo b) W { W with
        store := W.store.setRecord b.record { x with references := x.references - 1 }
        handles := H }
  | publish {W : World} {b : Handle} {x : Record} {s : Cache}
      (held : b ∈ W.handles) (hx : W.store.records.get? b.record = some x)
      (undone : x.published = false) (hs : W.store.caches.get? b.cache = some s) :
      Step (.publish b) W { W with store := W.store.enlisted b s x }
  | withdraw {W : World} {r : RecordId} {x : Record} {s : Cache} {k : ImageKey}
      (hx : W.store.records.get? r = some x) (done : x.published = true) (image : x.image = some k)
      (hs : W.store.caches.get? x.origin = some s) :
      Step (.withdraw r) W { W with store := W.store.withdrawn x.origin s r x k }
  | refit {W : World} {r : RecordId} {x : Record} {area : Rect} {newBlock : Bool} {w : Store}
      (hx : W.store.records.get? r = some x) (undone : x.published = false)
      (sole : x.references = 1) (fits : W.store.Fits r x area (.ok newBlock) w) :
      Step (.refit r) W { W with store := w.count x.origin (·.addAllocation newBlock) }
  | refitFailed {W : World} {r : RecordId} {x : Record} {area : Rect} {e : StorageError} {w : Store}
      (hx : W.store.records.get? r = some x) (undone : x.published = false)
      (sole : x.references = 1) (fails : W.store.Fits r x area (.error e) w) :
      Step (.refit r) W { W with store := w }
  | write {W : World} {b : Handle} {x y : Record} {n : Nat} {fill : Nat → UInt8}
      (held : b ∈ W.handles) (hx : W.store.records.get? b.record = some x)
      (written : x.write fill = some (n, y)) :
      Step (.write b.record) W { W with store := W.store.setRecord b.record y }
  | reuse {W : World} {c : CacheId} {s : Cache} {r : RecordId} {rest : List RecordId} {x : Record}
      {i : Image} (hs : W.store.caches.get? c = some s) (top : s.reserve.slots = r :: rest)
      (hx : W.store.records.get? r = some x) :
      Step (.take ⟨r, c, i.key⟩) W { W with
        store := ((W.store.setCache c { s with
          reserve := { s.reserve with slots := rest } }).count c .addReused).setRecord r
          (x.takenFor i)
        handles := ⟨r, c, i.key⟩ ::ₘ W.handles }
  | make {W : World} {c : CacheId} {s : Cache} {i : Image}
      (hs : W.store.caches.get? c = some s) (empty : s.reserve.slots = []) :
      Step (.take ⟨W.store.records.next, c, i.key⟩) W { W with
        store := { W.store.count c .addMade with
          records := W.store.records.add
            (Record.takenFor { origin := c, allocator := s.allocator } i) }
        handles := ⟨W.store.records.next, c, i.key⟩ ::ₘ W.handles }
  | keep {W : World} {H : Multiset Handle} {b : Handle} {x : Record} {s : Cache}
      (held : W.handles = b ::ₘ H) (hx : W.store.records.get? b.record = some x)
      (undone : x.published = false) (last : x.references = 1)
      (hs : W.store.caches.get? b.cache = some s)
      (room : s.reserve.slots.length < s.reserve.cap) :
      Step (.keep b) W { W with
        store := (W.store.setRecord b.record x.parked).shelved b.cache s b.record
        handles := H }
  | free {W : World} {H : Multiset Handle} {b : Handle} {x : Record} {s : Cache}
      (held : W.handles = b ::ₘ H) (hx : W.store.records.get? b.record = some x)
      (undone : x.published = false) (last : x.references = 1)
      (hs : W.store.caches.get? b.cache = some s)
      (full : s.reserve.cap ≤ s.reserve.slots.length) :
      Step (.free b) W
        { W with store := W.store.crowdedOut b.cache b.record x, handles := H }
  | outlive {W : World} {H : Multiset Handle} {b : Handle} {x : Record}
      (held : W.handles = b ::ₘ H) (hx : W.store.records.get? b.record = some x)
      (undone : x.published = false) (last : x.references = 1)
      (dead : W.store.caches.get? b.cache = none) :
      Step (.outlive b) W { W with
        store := (W.store.emit (.outlivedCache b.image)).without b.record
        handles := H }
  | discard {W : World} {H : Multiset Handle} {b : Handle} {x : Record} {area : Rect}
      {e : StorageError}
      (held : W.handles = b ::ₘ H) (hx : W.store.records.get? b.record = some x)
      (undone : x.published = false) (last : x.references = 1) :
      Step (.discard b) W { W with
        store := ((W.store.count b.cache .addFailure).emit
          (.acquisitionFailed b.cache b.image area e)).without b.record
        handles := H }
  | retire {W V W' : World} {b : Handle} {m : Move} (withdrawn : Step (.withdraw b.record) W V)
      (parted : Step m V W') (how : m = .keep b ∨ m = .free b) : Step (.retire b) W W'
  | report {W : World} {e : Event} : Step (.report e) W { W with store := W.store.emit e }
  | tally {W : World} {c : CacheId} {f : Stats → Stats} :
      Step (.tally c f) W { W with store := W.store.count c f }
  | addAllocator {W : World} {limit : Option Nat} :
      Step (.addAllocator W.store.allocators.next) W
        { W with store := (W.store.createAllocator limit).2 }
  | settle {W : World} {settings : Settings}
      (known : ∀ a, settings.allocator = some a → (W.store.allocators.get? a).isSome = true) :
      Step .settle W { W with store := { W.store with settings } }
  | addKey {W : World} :
      Step .addKey W { W with store := { W.store with freshKeys := W.store.freshKeys + 1 } }
  | addCache {W : World} {t : ThreadId} {config : Config} {a : AllocatorId}
      (known : (W.store.allocators.get? a).isSome = true) :
      Step (.addCache W.store.caches.next) W { W with
        store := (W.store.createCache t config a).2
        shares := W.store.caches.next ::ₘ W.shares }
  | share {W : World} {c : CacheId} (alive : (W.store.caches.get? c).isSome = true) :
      Step (.share c) W { W with store := W.store.addOwner c, shares := c ::ₘ W.shares }
  | unshare {W : World} {O : Multiset CacheId} {c : CacheId} {s : Cache}
      (held : W.shares = c ::ₘ O) (hs : W.store.caches.get? c = some s) (more : 1 < s.owners) :
      Step (.unshare c) W { W with
        store := W.store.setCache c { s with owners := s.owners - 1 }
        shares := O }
  | tearDown {W : World} {O : Multiset CacheId} {c : CacheId} {s : Cache}
      (held : W.shares = c ::ₘ O) (hs : W.store.caches.get? c = some s) (last : s.owners = 1) :
      Step (.tearDown c) W { W with store := W.store.tornDown c s, shares := O }
  | emptyReserve {W : World} {c : CacheId} {s : Cache} (hs : W.store.caches.get? c = some s) :
      Step (.emptyReserve c) W { W with store := W.store.emptied c s }
  | lend {W : World} {a : AllocatorId} {s after : Allocator} {n : Nat} {block : Block}
      (hs : W.store.allocators.get? a = some s)
      (granted : s.allocate W.store.host.heap n = (.ok block, after)) :
      Step (.lend ⟨a, block⟩) W { W with
        store := W.store.setAllocator a after
        loans := ⟨a, block⟩ ::ₘ W.loans }
  | refuse {W : World} {a : AllocatorId} {s after : Allocator} {n : Nat} {e : StorageError}
      (hs : W.store.allocators.get? a = some s)
      (refused : s.allocate W.store.host.heap n = (.error e, after)) :
      Step (.refuse a) W { W with store := W.store.setAllocator a after }
  | repay {W : World} {L : Multiset Loan} {l : Loan} {s : Allocator}
      (held : W.loans = l ::ₘ L) (hs : W.store.allocators.get? l.source = some s) :
      Step (.repay l) W { W with
        store := W.store.setAllocator l.source (s.free l.block)
        loans := L }
  | misfree {W : World} {L : Multiset Loan} {a : AllocatorId} {s : Allocator} {block : Block}
      (hs : W.store.allocators.get? a = some s) :
      Step (.misfree a) W { W with store := W.store.setAllocator a (s.free block), loans := L }

/-- `Reaches P W W'`: moves of which `P` holds lead from `W` to `W'`. -/
inductive Reaches (P : Move → Prop) (W : World) : World → Prop where
  | refl : Reaches P W W
  | tail {m : Move} {W₁ W₂ : World} (before : Reaches P W W₁) (allowed : P m)
      (step : Step m W₁ W₂) : Reaches P W W₂

namespace Reaches

variable {P : Move → Prop} {W W₁ W₂ : World}

theorem single {m : Move} (allowed : P m) (step : Step m W W₁) : Reaches P W W₁ :=
  .tail .refl allowed step

theorem trans (h₁ : Reaches P W W₁) (h₂ : Reaches P W₁ W₂) : Reaches P W W₂ := by
  induction h₂ with
  | refl => exact h₁
  | tail _ allowed step ih => exact .tail ih allowed step

/-- What is asked of the moves may be weakened. -/
theorem mono {Q : Move → Prop} (h : W.Reaches P W₁) (weaker : ∀ m, P m → Q m) :
    W.Reaches Q W₁ := by
  induction h with
  | refl => exact .refl
  | tail _ allowed step ih => exact ih.tail (weaker _ allowed) step

/-- What every allowed move keeps holds at the end if it holds at the start. -/
theorem keeps {I : World → Prop}
    (step : ∀ m V V', P m → Step m V V' → I V → I V') (h : Reaches P W W₁) (start : I W) :
    I W₁ := by
  induction h with
  | refl => exact start
  | tail _ allowed s ih => exact step _ _ _ allowed s ih

end Reaches

end World

end PixelPool
